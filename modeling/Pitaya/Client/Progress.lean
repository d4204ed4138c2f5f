import Pitaya.Client.Closing

/-!
# What the goroutines of the client wait for

Every call of the client takes a bounded number of steps (`step_weight`), and a goroutine waits
for nothing but `connMutex`, the end of an attempt, and who runs the `closeOnce` that it wants to
run.

* `Point.Dials` — a goroutine that connects stays apart from those that close.
-/

namespace Pitaya.Client.Connection

open Transition Threads Option Multiset Finset Point Assign Program

variable {s s' : Shared} {p q : Point} {p' : Option Point} {rest : Multiset Point}
  {c : Config Shared Point} {g n : ℕ} {todo : List Assign} {next : Option Outside} {choice : Choice}

/-! ## Bounded calls -/

/-- The steps that a goroutine may take from within a critical section. -/
def Section.weight : Section → ℕ
  | .connect => 20
  | .dialed _ => 13
  | .publish _ => 9
  | .failConnectAttempt _ => 6
  | .disconnect => 13
  | .clear _ => 9
  | .onDisconnected _ => 3

def Outside.weight : Outside → ℕ
  | .lock part => part.weight + 1
  | .dial _ => 15
  | .handleHandshake _ => 11
  | .deferred _ | .wait _ | .expire _ => 1
  | .holder _ => 12
  | .closeOnce _ => 11
  | .callback _ => 3
  | .cleared _ _ => 4

/-- The steps that a goroutine may take.  The callback counts for more than one. -/
def Point.weight : Point → ℕ
  | .outside o => o.weight
  | .entered part => part.weight
  | .body todo next => todo.length + 1 + next.elim 0 Outside.weight

theorem Enters.weight {part : Section} (h : Enters s part todo next) :
    (Point.body todo next).weight < part.weight := by
  cases h with
  | disconnect => cases s.guarded.current <;> simp [weight, Section.weight, Outside.weight]
  | _ => simp [weight, Section.weight, Outside.weight]

theorem Onward.weight {o : Outside} (h : Onward o q) : q.weight < o.weight := by
  cases h <;> simp [weight, Section.weight, Outside.weight]

/-- **Every step brings a goroutine nearer to its end.** -/
theorem step_weight (h : step s p choice = some (s', some q)) : q.weight < p.weight := by
  apply step_induction ?_ ?_ ?_ ?_ h
  · rintro o q rfl honward
    exact honward.weight
  · rintro part todo next rfl henter
    exact henter.weight
  · rintro a todo next rfl
    simp [weight]
  · rintro o rfl
    simp [weight]

theorem Point.weight_pos (p : Point) : 0 < p.weight := by
  cases p with
  | outside o => cases o <;> simp [weight, Outside.weight]
  | entered part => cases part <;> simp [weight, Section.weight]
  | body => exact Nat.add_pos_left (Nat.succ_pos _) _

/-! ## Connecting and closing -/

def Section.dials : Section → Bool
  | .connect | .dialed _ | .publish _ | .failConnectAttempt _ => true
  | _ => false

def Outside.dials : Outside → Bool
  | .lock part => part.dials
  | .dial _ | .handleHandshake _ | .deferred _ => true
  | _ => false

/-- Whether the goroutine connects, as far as its point tells. -/
def Point.Dials (b : Bool) : Point → Prop
  | .outside o => o.dials = b
  | .entered part => part.dials = b
  | .body _ next => ∀ o ∈ next, o.dials = b

theorem Enters.dials {part : Section} (h : Enters s part todo next) :
    ∀ o ∈ next, o.dials = part.dials := by
  cases h with
  | disconnect =>
    intro o ho
    obtain ⟨g, -, rfl⟩ := map_eq_some_iff.mp ho
    rfl
  | _ =>
    rintro o ⟨⟩
    try rfl

/-- **A goroutine that connects, or does not, goes on so.** -/
theorem step_dials {b : Bool} (hp : p.Dials b) (h : step s p choice = some (s', some q)) :
    q.Dials b := by
  refine step_induction ?_ ?_ ?_ ?_ h
  · rintro o q rfl honward
    cases honward <;> exact hp
  · rintro part todo next rfl henter o ho
    exact (henter.dials o ho).trans hp
  · rintro a todo next rfl
    exact hp
  · rintro o rfl
    exact hp o rfl

theorem todo_of_dials (h : connection.Reachable c) (hp : p ∈ c.threads) (hdials : p.Dials false) :
    .current (some n) ∉ p.todo := by
  intro hmem
  cases p with
  | body =>
    obtain ⟨more, -, -, -, -, hnext⟩ := (going h hp).current hmem
    cases hdials _ hnext
  | _ => cases hmem

/-! ## Closing once -/

theorem closing_of_clears (h : connection.Reachable c) (hp : p ∈ c.threads)
    (hclears : p.clears = some g) : g ∈ c.shared.closing := by
  have hle := callbacks_le h g
  obtain ⟨others, hothers⟩ := exists_cons_of_mem hp
  rw [hothers, total_cons, clearing, if_pos hclears] at hle
  by_contra hnot
  rw [if_neg hnot] at hle
  omega

/-- **A generation that has been current still is, unless its `closeOnce` was entered.** -/
theorem became_closing (h : connection.Reachable c) :
    ∀ g ∈ c.shared.guarded.became, g ∈ c.shared.closing ∨ c.shared.guarded.current = some g := by
  apply config_induction ?_ ?_ ?_ h
  · exact fun g hg => absurd hg (notMem_empty g)
  · exact fun s threads p _ hI _ => hI
  · intro s p rest choice s' p' hreach hI hstep g hg
    cases step_moves hstep with
    | @assign a todo next =>
      rw [exec_guarded] at hg ⊢
      rw [exec_closing]
      rcases (became_run _ _ _).mp hg with hg | rfl
      · rcases hI g hg with hclosing | hcurrent
        · exact .inl hclosing
        · cases a with
          | current o =>
            obtain ⟨-, -, -, hgoing⟩ := (going_head hreach).current List.mem_cons_self
            cases o with
            | none =>
              obtain ⟨g', callback, hfound, rfl⟩ := hgoing
              cases hfound.symm.trans hcurrent
              exact .inl (closing_of_clears hreach (mem_cons_self _ _) rfl)
            | some => cases hgoing.1.symm.trans hcurrent
          | _ => exact .inr hcurrent
      · exact .inr rfl
    | once => exact (hI g hg).imp_left mem_insert_of_mem
    | _ => exact hI g hg

/-- The generation whose `closeOnce` the goroutine is to leave. -/
def Outside.holdsOnce : Outside → Option ℕ
  | .lock part => part.closes
  | .cleared g _ => some g
  | _ => none

def Point.holdsOnce : Point → Option ℕ
  | .outside o => o.holdsOnce
  | .entered part => part.closes
  | .body _ next => next.bind Outside.holdsOnce

theorem Enters.holdsOnce {part : Section} (henter : Enters s part todo next) :
    next.bind Outside.holdsOnce = part.closes := by
  cases henter with
  | disconnect => cases s.guarded.current <;> rfl
  | _ => rfl

theorem step_holdsOnce (hp : p.holdsOnce = some g) (h : step s p choice = some (s', p')) :
    (∃ q, p' = some q ∧ q.holdsOnce = some g) ∨ g ∈ s'.closed := by
  cases p with
  | entered part =>
    cases h
    exact .inl ⟨_, rfl, (enter_enters s part).holdsOnce.trans hp⟩
  | body todo =>
    cases todo with
    | nil =>
      obtain ⟨-, rfl⟩ := Prod.mk.inj (some.inj h)
      obtain ⟨o, rfl, ho⟩ := bind_eq_some_iff.mp hp
      exact .inl ⟨_, rfl, ho⟩
    | cons =>
      cases h
      exact .inl ⟨_, rfl, hp⟩
  | outside o =>
    cases o with
    | lock =>
      obtain ⟨-, ⟨⟩⟩ := ite_none_left_eq_some.mp h
      exact .inl ⟨_, rfl, hp⟩
    | cleared g' callback =>
      cases hp
      cases callback <;> cases h <;> exact .inr (mem_insert_self _ _)
    | _ => cases hp

theorem Moves.closed_mono (h : Moves s p s' p') : s.closed ⊆ s'.closed := by
  cases h with
  | @assign a => cases a <;> exact Finset.Subset.refl _
  | leave | leaveCalling => exact subset_insert _ _
  | _ => exact Finset.Subset.refl _

/-- **A `closeOnce` that was entered is done, or a goroutine is in it.** -/
theorem closing_closed (h : connection.Reachable c) : ∀ g ∈ c.shared.closing,
    g ∈ c.shared.closed ∨ ∃ p ∈ c.threads, p.holdsOnce = some g := by
  intro g hg
  refine attended (O := fun s => g ∈ s.closing)
    (D := fun s => g ∈ s.closed) (W := fun p => p.holdsOnce = some g)
    (fun hg => absurd hg (notMem_empty g)) ?_ h hg
  intro s p rest choice s' p' _ hstep hg
  have hmoves := step_moves hstep
  have hclosed (hg : g ∈ s.closed) := hmoves.closed_mono hg
  have hgoes (hholds : p.holdsOnce = some g) := (step_holdsOnce hholds hstep).symm
  cases hmoves with
  | once =>
    rcases mem_insert.mp hg with rfl | hg
    · exact .inr (.inr ⟨_, mem_cons_self _ _, rfl⟩)
    · exact .inl ⟨hg, hclosed, hgoes⟩
  | assign =>
    rw [exec_closing] at hg
    exact .inl ⟨hg, hclosed, hgoes⟩
  | _ => exact .inl ⟨hg, hclosed, hgoes⟩

/-! ## What a goroutine waits for -/

/-- A goroutine that may wait for another one, once `connMutex` is free. -/
def Outside.waits : Outside → Bool
  | .wait _ | .holder _ | .closeOnce _ => true
  | _ => false

theorem step_of_inside (s : Shared) (hinside : p.inside = true) :
    ∃ result, step s p .go = some result := by
  cases p with
  | outside => cases hinside
  | entered => exact ⟨_, rfl⟩
  | body todo => cases todo <;> exact ⟨_, rfl⟩

/-- Outside, a goroutine goes on if the lock is free and it waits for nothing else. -/
theorem step_of_outside {o : Outside} (hmutex : s.connMutex = false) (ho : o.waits = false) :
    ∃ result, step s (.outside o) .go = some result := by
  cases o with
  | lock => exact ⟨_, if_neg (by simp [hmutex])⟩
  | handleHandshake =>
    simp only [step, stepOutside]
    split <;> exact ⟨_, rfl⟩
  | wait | holder | closeOnce => cases ho
  | _ => exact ⟨_, rfl⟩

end Pitaya.Client.Connection
