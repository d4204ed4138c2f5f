import Pitaya.Client.States

/-!
# Closing the generations of the client

What becomes of a generation that has been current: it is taken out once, by a goroutine that has
entered its `closeOnce`, and is not current again.

* `Going`, `going` — the statements that a goroutine has yet to make under `connMutex`, with the
  fields as they are: no other goroutine changes them in between.
* `Past` — a generation that has been taken out.
* `step_induction` — where a goroutine goes from where it is; `step_closes` and `step_carries`, that
  it stays with the generation it closes and the attempt it makes.
-/

namespace Pitaya.Client.Connection

open Transition Threads Multiset Option Finset Point Assign

/-! ## Statements to go -/

/-- The statements to go and the fields, before those that count and after. -/
inductive Going (f : Guarded) : List Assign → Option Outside → Prop
  | accept (hcurrent : f.current = none) :
      Going f [.newAttempt, .attempt (some f.attempts), .state .connecting]
        (some (.dial f.attempts))
  | publish {n} (hcurrent : f.current = none) (hattempt : f.attempt = some n)
      (hfresh : n ∉ f.became) :
      Going f [.current (some n), .connected true, .state .connected, .attempt none,
        .startGenerationLoops n] (some (.deferred n))
  | clear {g callback} (hcurrent : f.current = some g) :
      Going f [.current none, .state .idle, .connected false] (some (.cleared g callback))
  | rest {todo next} (hattempt : .newAttempt ∉ todo) (hcurrent : ∀ g, .current g ∉ todo)
      (hstart : ∀ g, .startGenerationLoops g ∈ todo → g ∈ f.became) : Going f todo next

variable {s s' : Shared} {p q : Point} {p' : Option Point} {rest : Multiset Point}
  {c : Config Shared Point} {g n : ℕ} {f : Guarded} {todo : List Assign} {next : Option Outside}

variable {part : Section}

theorem Enters.going (henter : Enters s part todo next) (h : Consistent s.guarded) :
    Going s.guarded todo next := by
  cases henter with
  | accept hidle => exact .accept (h.current_of_state (by simp [hidle]))
  | publish hattempt =>
    have hstate := h.attempt.mpr (hattempt ▸ rfl)
    exact .publish (h.current_of_state (by simp [hstate])) hattempt (h.fresh _ hattempt)
  | clear hcurrent => exact .clear hcurrent
  | _ => exact .rest (by simp) (by simp) (by simp)

theorem Going.assign {a : Assign} (h : Going f (a :: todo) next) : Going (a.run f) todo next := by
  cases h with
  | publish =>
    refine .rest (by simp) (by simp) fun g hg => ?_
    obtain rfl : g = _ := by simpa using hg
    exact (became_run _ _ _).mpr (.inr rfl)
  | rest hattempt hcurrent hstart =>
    refine .rest (fun hmem => hattempt (List.mem_cons_of_mem _ hmem))
      (fun g hmem => hcurrent g (List.mem_cons_of_mem _ hmem)) fun g hg => ?_
    exact (became_run _ _ _).mpr (.inl (hstart g (List.mem_cons_of_mem _ hg)))
  | _ => exact .rest (by simp) (by simp) (by simp)

/-- **The statements to go agree with the fields.** -/
theorem going (h : connection.Reachable c) (hp : .body todo next ∈ c.threads) :
    Going c.shared.guarded todo next := by
  refine Program.thread_invariant
    (J := fun s p => ∀ todo next, p = .body todo next → Going s.guarded todo next) ?_ ?_ ?_ ?_ h
    (.body todo next) hp todo next rfl
  · exact nofun
  · rintro s threads p _ hentry todo next rfl
    cases hentry
  · rintro s p rest choice s' q hreach hp hstep todo next rfl
    generalize hnext : some (body todo next) = p' at hstep
    cases step_moves hstep with
    | enter henter =>
      cases hnext
      exact henter.going (consistent_of_entered hreach)
    | assign =>
      cases hnext
      rw [exec_guarded]
      exact (hp _ _ rfl).assign
    | release =>
      obtain ⟨o, -, ⟨⟩⟩ := map_eq_some_iff.mp hnext.symm
    | _ => cases hnext
  · rintro s p rest choice s' p' q hreach hq _ hJ hstep todo next rfl
    -- the goroutine holds the lock, and the others leave the fields alone
    rw [(step_moves hstep).guarded_eq (todo_of_other hreach hq rfl)]
    exact hJ todo next rfl

theorem going_head (h : connection.Reachable ⟨s, .body todo next ::ₘ rest⟩) :
    Going s.guarded todo next :=
  going h (mem_cons_self _ _)

theorem Going.current {o : Option ℕ} (h : Going f todo next) (hmem : .current o ∈ todo) :
    ∃ more, todo = .current o :: more ∧ (∀ g, .current g ∉ more) ∧
      o.elim (∃ g callback, f.current = some g ∧ next = some (.cleared g callback)) fun n =>
        f.current = none ∧ n ∉ f.became ∧ next = some (.deferred n) := by
  cases h with
  | accept => simp at hmem
  | publish hcurrent hattempt hfresh =>
    obtain rfl : o = _ := by simpa using hmem
    exact ⟨_, rfl, by simp, hcurrent, hfresh, rfl⟩
  | clear hcurrent =>
    obtain rfl : o = _ := by simpa using hmem
    exact ⟨_, rfl, by simp, _, _, hcurrent, rfl⟩
  | rest _ hcurrent => exact absurd hmem (hcurrent o)

theorem Going.newAttempt (h : Going f (.newAttempt :: todo) next) :
    f.current = none ∧ (∀ g, .current g ∉ todo) ∧ next = some (.dial f.attempts) := by
  cases h with
  | accept hcurrent => exact ⟨hcurrent, by simp, rfl⟩
  | rest hattempt => exact absurd List.mem_cons_self hattempt

/-! ## Generations taken out -/

theorem Assign.current_run (f : Guarded) (a : Assign) (g : ℕ) (h : (a.run f).current = some g) :
    f.current = some g ∨ a = .current (some g) := by
  cases a with
  | current => exact .inr (congrArg current h)
  | _ => exact .inl h

theorem Moves.current (h : Moves s p s' p') (hcurrent : s'.guarded.current = some g) :
    s.guarded.current = some g ∨ .current (some g) ∈ p.todo := by
  cases h with
  | assign =>
    rw [exec_guarded] at hcurrent
    rcases current_run _ _ _ hcurrent with hcurrent | rfl
    · exact .inl hcurrent
    · exact .inr List.mem_cons_self
  | _ => exact .inl hcurrent

theorem Moves.became (h : Moves s p s' p') (hbecame : n ∈ s'.guarded.became) :
    n ∈ s.guarded.became ∨ .current (some n) ∈ p.todo := by
  cases h with
  | assign =>
    rw [exec_guarded] at hbecame
    rcases (became_run _ _ _).mp hbecame with hbecame | rfl
    · exact .inl hbecame
    · exact .inr List.mem_cons_self
  | _ => exact .inl hbecame

/-- Who is about to publish a generation was so before, or has just found its attempt under
way and live. -/
theorem Moves.publishes (h : Moves s p s' (some q)) (hcurrent : .current (some n) ∈ q.todo) :
    .current (some n) ∈ p.todo ∨
      (∃ part, p = .entered part) ∧ s.guarded.attempt = some n ∧ n ∉ s.cancelled := by
  generalize hnext : some q = p' at h
  cases h with
  | enter henter =>
    cases hnext
    cases henter with
    | publish hattempt hlive =>
      obtain rfl : n = _ := by simpa [todo] using hcurrent
      exact .inr ⟨⟨_, rfl⟩, hattempt, hlive⟩
    | _ => simp [todo] at hcurrent
  | assign =>
    cases hnext
    exact .inl (List.mem_cons_of_mem _ hcurrent)
  | release =>
    obtain ⟨o, -, rfl⟩ := map_eq_some_iff.mp hnext.symm
    cases hcurrent
  | _ => cases hnext <;> cases hcurrent

/-- The generation was current and will not be again. -/
structure Past (g : ℕ) (c : Config Shared Point) : Prop where
  became : g ∈ c.shared.guarded.became
  current : c.shared.guarded.current ≠ some g
  threads : ∀ p ∈ c.threads, .current (some g) ∉ p.todo

theorem todo_of_entry (h : connection.entry p = true) : p.todo = [] := by
  cases p with
  | outside => rfl
  | _ => cases h

theorem Past.call {threads : Multiset Point} (h : Past g ⟨s, threads⟩)
    (hentry : connection.entry p = true) : Past g ⟨s, p ::ₘ threads⟩ := by
  refine ⟨h.became, h.current, fun q hq => ?_⟩
  rcases mem_cons.mp hq with rfl | hq
  · rw [todo_of_entry hentry]
    exact List.not_mem_nil
  · exact h.threads q hq

/-- **A generation that was taken out is not current again.** -/
theorem Past.step (hreach : connection.Reachable ⟨s, p ::ₘ rest⟩) (h : Past g ⟨s, p ::ₘ rest⟩)
    (hmoves : Moves s p s' p') : Past g ⟨s', rejoin p' rest⟩ where
  became := hmoves.became_mono h.became
  current hcurrent :=
    (hmoves.current hcurrent).elim h.current (h.threads p (Multiset.mem_cons_self p rest))
  threads q hq := by
    rcases mem_rejoin.mp hq with rfl | hq
    · intro hcurrent
      rcases hmoves.publishes hcurrent with hcurrent | ⟨⟨part, rfl⟩, hattempt, -⟩
      · exact h.threads p (mem_cons_self p rest) hcurrent
      · exact (consistent_of_entered hreach).fresh g hattempt h.became
    · exact h.threads q (mem_cons_of_mem hq)

/-- A generation that the goroutine has taken out, or has found to be out. -/
def Outside.past : Outside → Option ℕ
  | .cleared g _ | .callback g => some g
  | _ => none

def Point.past : Point → Option ℕ
  | .outside o => o.past
  | .entered _ => none
  | .body todo next => if .current none ∈ todo then none else next.bind Outside.past

theorem Outside.closes_of_past {o : Outside} (h : o.past = some g) : o.closes = some g := by
  cases o with
  | cleared | callback => exact h
  | _ => cases h

/-- Who closes a generation did so before, or holds it, or has found it current. -/
theorem Moves.closes (h : Moves s p s' (some q)) (hcloses : q.closes = some g) :
    p.closes = some g ∨ g ∈ s.started ∨ (∃ part, p = .entered part) ∧
      s.guarded.current = some g := by
  generalize hnext : some q = p' at h
  cases h with
  | enter henter =>
    cases hnext
    cases henter with
    | disconnect =>
      cases hcurrent : s.guarded.current with
      | none =>
        rw [hcurrent] at hcloses
        cases hcloses
      | some =>
        rw [hcurrent] at hcloses
        cases hcloses
        exact .inr (.inr ⟨⟨_, rfl⟩, rfl⟩)
    | clear | stale => exact .inl hcloses
    | _ => cases hcloses
  | lock hpart =>
    cases hnext
    cases hpart.symm.trans hcloses
  | hold hstarted =>
    cases hnext
    cases hcloses
    exact .inr (.inl hstarted)
  | release =>
    obtain ⟨o, rfl, rfl⟩ := map_eq_some_iff.mp hnext.symm
    exact .inl hcloses
  | _ => cases hnext <;> exact .inl hcloses

/-- Who closes a generation found it current, or it has been; once the goroutine is past the
section that clears it, it is out. -/
structure Closing (c : Config Shared Point) : Prop where
  started : ∀ g ∈ c.shared.started, g ∈ c.shared.guarded.became
  closes : ∀ p ∈ c.threads, ∀ g, p.closes = some g → g ∈ c.shared.guarded.became
  past : ∀ p ∈ c.threads, ∀ g, p.past = some g → Past g c
  closed : ∀ g ∈ c.shared.closed, Past g c

theorem Closing.call {threads : Multiset Point} (h : Closing ⟨s, threads⟩)
    (hentry : connection.entry p = true) : Closing ⟨s, p ::ₘ threads⟩ := by
  have hself : p.closes = none ∧ p.past = none := by
    cases p with
    | outside o =>
      cases o with
      | lock part => cases part <;> first | exact ⟨rfl, rfl⟩ | cases hentry
      | _ => first | exact ⟨rfl, rfl⟩ | cases hentry
    | _ => cases hentry
  refine ⟨h.started, fun q hq g hcloses => ?_, fun q hq g hpast => ?_,
    fun g hclosed => (h.closed g hclosed).call hentry⟩
  · rcases mem_cons.mp hq with rfl | hq
    · cases hself.1.symm.trans hcloses
    · exact h.closes q hq g hcloses
  · rcases mem_cons.mp hq with rfl | hq
    · cases hself.2.symm.trans hpast
    · exact (h.past q hq g hpast).call hentry

theorem enter_past (h : (Point.body (enter s part).1 (enter s part).2).past = some g) :
    part = .clear g ∧ s.guarded.current ≠ some g := by
  cases part with
  | clear g' =>
    by_cases hcurrent : s.guarded.current = some g'
    · simp [enter, hcurrent, past] at h
    · obtain rfl : g' = g := by simpa [enter, hcurrent, past, Outside.past] using h
      exact ⟨rfl, hcurrent⟩
  | onDisconnected => cases h
  | disconnect =>
    simp only [enter] at h
    split at h
    · cases h
    · cases hcurrent : s.guarded.current with
      | none | some =>
        rw [hcurrent] at h
        cases h
  | _ =>
    simp only [enter] at h
    split at h <;> cases h

theorem enter_disconnect (h : Consistent s.guarded) :
    (∀ o, .current o ∉ (enter s .disconnect).1) ∧
      (enter s .disconnect).2.bind Outside.closes = s.guarded.current := by
  simp only [enter]
  split
  · next hstate _ => exact ⟨by simp, (h.current_of_state (by simp [hstate])).symm⟩
  · refine ⟨by simp, ?_⟩
    cases s.guarded.current <;> rfl

theorem todo_of_alone (h : connection.Reachable ⟨s, p ::ₘ rest⟩) (hinside : p.inside = true)
    (hq : q ∈ rest) : q.todo = [] := by
  cases q with
  | outside => rfl
  | _ => cases connMutex_mutex.alone h hinside hq

variable {choice : Choice}

/-- The goroutine that goes through the section that clears a generation takes it out. -/
theorem Closing.past_step (hreach : connection.Reachable ⟨s, p ::ₘ rest⟩)
    (h : Closing ⟨s, p ::ₘ rest⟩) (hstep : step s p choice = some (s', some q))
    (hpast : q.past = some g) : Past g ⟨s', q ::ₘ rest⟩ := by
  have hmoves := step_moves hstep
  have hself : p ∈ p ::ₘ rest := mem_cons_self p rest
  have hkeep (hp : p.past = some g) : Past g ⟨s', q ::ₘ rest⟩ :=
    (h.past p hself g hp).step hreach hmoves
  have hothers (hinside : p.inside = true) (q : Point) (hq : q ∈ rest) : q.todo = [] :=
    todo_of_alone hreach hinside hq
  cases p with
  | entered =>
    cases hstep
    obtain ⟨rfl, hcurrent⟩ := enter_past hpast
    refine ⟨h.closes _ hself g rfl, hcurrent, fun q hq => ?_⟩
    rcases mem_cons.mp hq with rfl | hq
    · simp [enter, hcurrent, todo]
    · rw [hothers rfl q hq]
      exact List.not_mem_nil
  | body todo =>
    cases todo with
    | nil =>
      obtain ⟨-, hnext⟩ := Prod.ext_iff.mp (some.inj hstep)
      obtain ⟨o, rfl, rfl⟩ := map_eq_some_iff.mp hnext
      exact hkeep hpast
    | cons a =>
      cases hstep
      obtain ⟨hmore, hnext⟩ := ite_none_left_eq_some.mp hpast
      by_cases ha : a = .current none
      · subst ha
        obtain ⟨more, hsplit, hno, -⟩ := (going_head hreach).current List.mem_cons_self
        obtain ⟨-, rfl⟩ := List.cons.inj hsplit
        obtain ⟨o, rfl, ho⟩ := bind_eq_some_iff.mp hnext
        have hbecame := h.closes _ hself g (o.closes_of_past ho)
        refine ⟨hmoves.became_mono hbecame, (by rintro ⟨⟩), fun q hq => ?_⟩
        rcases mem_cons.mp hq with rfl | hq
        · exact hno (some g)
        · rw [hothers rfl q hq]
          exact List.not_mem_nil
      · refine hkeep ((if_neg ?_).trans hnext)
        rw [List.mem_cons, not_or]
        exact ⟨Ne.symm ha, hmore⟩
  | outside =>
    generalize hnext : some q = p' at hmoves
    cases hmoves with
    | leaveCalling =>
      cases hnext
      exact hkeep hpast
    | _ => cases hnext <;> cases hpast

theorem Closing.step (hreach : connection.Reachable ⟨s, p ::ₘ rest⟩) (h : Closing ⟨s, p ::ₘ rest⟩)
    (hstep : step s p choice = some (s', p')) : Closing ⟨s', rejoin p' rest⟩ := by
  have hmoves := step_moves hstep
  have hself : p ∈ p ::ₘ rest := mem_cons_self p rest
  refine ⟨fun g hg => ?_, fun q hq g hcloses => ?_, fun q hq g hpast => ?_, fun g hg => ?_⟩
  · cases hmoves with
    | @assign a =>
      rw [exec_guarded, became_run]
      cases a with
      | startGenerationLoops =>
        rcases mem_insert.mp hg with rfl | hg
        · cases going_head hreach with
          | rest _ _ hstart => exact .inl (hstart g List.mem_cons_self)
        · exact .inl (h.started g hg)
      | _ => exact .inl (h.started g hg)
    | _ => exact h.started g hg
  · refine hmoves.became_mono ?_
    rcases mem_rejoin.mp hq with rfl | hq
    · rcases hmoves.closes hcloses with hcloses | hstarted | ⟨⟨part, rfl⟩, hcurrent⟩
      · exact h.closes p hself g hcloses
      · exact h.started g hstarted
      · exact (consistent_of_entered hreach).became g hcurrent
    · exact h.closes q (mem_cons_of_mem hq) g hcloses
  · rcases mem_rejoin.mp hq with rfl | hq
    · exact h.past_step hreach hstep hpast
    · exact (h.past q (mem_cons_of_mem hq) g hpast).step hreach hmoves
  · have hclosed : g ∈ s.closed ∨ p.past = some g := by
      cases hmoves with
      | @assign a => cases a <;> exact .inl hg
      | leave | leaveCalling =>
        rcases mem_insert.mp hg with rfl | hg
        · exact .inr rfl
        · exact .inl hg
      | _ => exact .inl hg
    rcases hclosed with hclosed | hpast
    · exact (h.closed g hclosed).step hreach hmoves
    · exact (h.past p hself g hpast).step hreach hmoves

/-- **Who closes a generation has seen it taken out.** -/
theorem closing (h : connection.Reachable c) : Closing c := by
  refine Program.config_induction ?_ ?_ ?_ h
  · exact ⟨fun g hg => absurd hg (notMem_empty g), nofun, nofun,
      fun g hg => absurd hg (notMem_empty g)⟩
  · exact fun s threads p _ hI hentry => hI.call hentry
  · exact fun s p rest choice s' p' hreach hI hstep => hI.step hreach hstep

/-- Where a goroutine goes that is outside the critical sections. -/
inductive Onward : Outside → Point → Prop
  | lock {part : Section} : Onward (.lock part) (.entered part)
  | dialed {n : ℕ} : Onward (.dial n) (.outside (.lock (.dialed n)))
  | dialFails {n : ℕ} : Onward (.dial n) (.outside (.lock (.failConnectAttempt n)))
  | handshake {n : ℕ} : Onward (.handleHandshake n) (.outside (.lock (.publish n)))
  | handshakeFails {n : ℕ} :
      Onward (.handleHandshake n) (.outside (.lock (.failConnectAttempt n)))
  | hold {g : ℕ} : Onward (.holder g) (.outside (.closeOnce g))
  | once {g : ℕ} : Onward (.closeOnce g) (.outside (.lock (.clear g)))
  | callback {g : ℕ} : Onward (.cleared g true) (.outside (.callback g))

theorem stepOutside_onward {o : Outside} (h : stepOutside s o choice = some (s', some q)) :
    Onward o q := by
  cases o with
  | lock =>
    obtain ⟨-, ⟨⟩⟩ := ite_none_left_eq_some.mp h
    exact .lock
  | dial =>
    cases choice <;> cases h
    · exact .dialed
    · exact .dialFails
  | handleHandshake =>
    cases choice with
    | go =>
      simp only [stepOutside] at h
      split at h <;> cases h
      · exact .handshakeFails
      · exact .handshake
    | fail =>
      cases h
      exact .handshakeFails
  | holder =>
    obtain ⟨-, ⟨⟩⟩ := ite_none_right_eq_some.mp h
    exact .hold
  | closeOnce =>
    simp only [stepOutside] at h
    split at h
    · cases h
    · obtain ⟨-, ⟨⟩⟩ := ite_none_left_eq_some.mp h
      exact .once
  | cleared g callback =>
    cases callback <;> cases h
    exact .callback
  | wait =>
    obtain ⟨-, ⟨⟩⟩ := ite_none_right_eq_some.mp h
  | _ => cases h

theorem step_induction {P : Point → Prop} (onward : ∀ o q, p = .outside o → Onward o q → P q)
    (enter : ∀ part todo next, p = .entered part → Enters s part todo next → P (.body todo next))
    (assign : ∀ a todo next, p = .body (a :: todo) next → P (.body todo next))
    (release : ∀ o, p = .body [] (some o) → P (.outside o))
    (h : step s p choice = some (s', some q)) : P q := by
  cases p with
  | outside o => exact onward o q rfl (stepOutside_onward h)
  | entered part =>
    cases h
    exact enter part _ _ rfl (enter_enters s part)
  | body todo next =>
    cases todo with
    | nil =>
      obtain ⟨-, hnext⟩ := Prod.mk.inj (some.inj h)
      obtain ⟨o, rfl, rfl⟩ := map_eq_some_iff.mp hnext
      exact release o rfl
    | cons a todo =>
      cases h
      exact assign a todo next rfl

theorem step_closes (hstep : step s p choice = some (s', some q)) (hcloses : p.closes = some g) :
    q.closes = some g := by
  apply step_induction ?_ ?_ ?_ ?_ hstep
  · rintro o q rfl honward
    cases honward with
    | lock | once | callback => exact hcloses
    | _ => cases hcloses
  · rintro part todo next rfl henter
    cases henter with
    | clear | stale => exact hcloses
    | _ => cases hcloses
  · rintro a todo next rfl
    exact hcloses
  · rintro o rfl
    exact hcloses

/-! ## The attempt of a goroutine -/

def Section.carries : Section → Option ℕ
  | .dialed n | .publish n | .failConnectAttempt n => some n
  | _ => none

def Outside.carries : Outside → Option ℕ
  | .lock part => part.carries
  | .dial n | .handleHandshake n | .deferred n => some n
  | _ => none

/-- The attempt that the goroutine makes. -/
def Point.carries : Point → Option ℕ
  | .outside o => o.carries
  | .entered part => part.carries
  | .body _ next => next.bind Outside.carries

theorem Enters.carries (henter : Enters s part todo next)
    (hn : next.bind Outside.carries = some n) :
    part.carries = some n ∨ part = .connect ∧ n = s.guarded.attempts := by
  cases henter with
  | accept =>
    cases hn
    exact .inr ⟨rfl, rfl⟩
  | disconnect =>
    cases hcurrent : s.guarded.current with
    | none | some =>
      rw [hcurrent] at hn
      cases hn
  | _ => exact .inl hn

theorem step_carries (hstep : step s p choice = some (s', some q)) (hn : q.carries = some n) :
    p.carries = some n ∨ p = .entered .connect ∧ n = s.guarded.attempts := by
  revert hn
  apply step_induction ?_ ?_ ?_ ?_ hstep
  · rintro o q rfl honward hn
    cases honward <;> exact .inl hn
  · rintro part todo next rfl henter hn
    exact (henter.carries hn).imp_right fun h => ⟨congrArg entered h.1, h.2⟩
  · rintro a todo next rfl hn
    exact .inl hn
  · rintro o rfl hn
    exact .inl hn

theorem Moves.started_mono (h : Moves s p s' p') : s.started ⊆ s'.started := by
  cases h with
  | @assign a =>
    cases a with
    | startGenerationLoops => exact subset_insert _ _
    | _ => exact Finset.Subset.refl _
  | _ => exact Finset.Subset.refl _

/-! ## Returning -/

/-- **Who has closed a generation returns when it is not current.** -/
theorem current_of_leave (hreach : connection.Reachable ⟨s, p ::ₘ rest⟩)
    (hstep : step s p choice = some (s', none)) (hcloses : p.closes = some g) :
    s'.guarded.current ≠ some g := by
  have hclosing := closing hreach
  generalize hnext : none = p' at hstep
  cases step_moves hstep with
  | again hclosed =>
    cases hcloses
    exact (hclosing.closed g hclosed).current
  | leave | callback =>
    cases hcloses
    exact (hclosing.past _ (mem_cons_self _ _) g rfl).current
  | release =>
    have hnone := map_eq_none_iff.mp hnext.symm
    rw [hnone] at hcloses
    cases hcloses
  | finish | wait | expire => cases hcloses
  | _ => cases hnext

end Pitaya.Client.Connection
