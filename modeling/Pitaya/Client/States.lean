import Pitaya.Client.Connection

/-!
# The fields of the client agree

The fields under `connMutex` are assigned one by one, by goroutines that may be slow and by
generations that may be stale.

* `Consistent` — what holds of the fields whenever `connMutex` is free.  While a goroutine
  is inside it holds of `Point.settle`, the fields as that goroutine will leave them, and
  the assignments themselves need no further argument.
* `Doomed` — an attempt that `Disconnect` has cancelled: it can no longer be published.
-/

namespace Pitaya.Client.Connection

open Transition Threads Multiset Option Program Assign

variable {s s' : Shared} {p q : Point} {p' : Option Point} {rest : Multiset Point}
  {c : Config Shared Point}

/-! ## The fields agree -/

/-- What holds of the fields while `connMutex` is free. -/
structure Consistent (f : Guarded) : Prop where
  connected : f.connected = true ↔ f.state = .connected
  current : f.state = .connected ↔ f.current.isSome = true
  attempt : f.state = .connecting ↔ f.attempt.isSome = true
  fresh : ∀ n, f.attempt = some n → n ∉ f.became
  bound : ∀ n, f.attempt = some n ∨ n ∈ f.became → n < f.attempts
  became : ∀ g, f.current = some g → g ∈ f.became

namespace Consistent

variable {f : Guarded}

theorem attempt_of_current {g : ℕ} (h : Consistent f) (hcurrent : f.current = some g) :
    f.attempt = none := by
  have hstate := h.current.mpr (hcurrent ▸ rfl)
  cases hattempt : f.attempt with
  | none => rfl
  | some =>
    have hconnecting := h.attempt.mpr (hattempt ▸ rfl)
    cases hstate.symm.trans hconnecting

theorem current_of_state (h : Consistent f) (hstate : f.state ≠ .connected) : f.current = none :=
  not_isSome_iff_eq_none.mp fun hsome => hstate (h.current.mpr hsome)

theorem connected_of_state (h : Consistent f) (hstate : f.state ≠ .connected) :
    f.connected = false :=
  Bool.not_eq_true _ ▸ fun htrue => hstate (h.connected.mp htrue)

theorem reset {f' : Guarded} (h : Consistent f) (hattempt : f'.attempt = none)
    (hcurrent : f'.current = none) (hstate : f'.state = .idle) (hconnected : f'.connected = false)
    (hattempts : f'.attempts = f.attempts) (hbecame : f'.became = f.became) : Consistent f' where
  connected := by simp [hconnected, hstate]
  current := by simp [hcurrent, hstate]
  attempt := by simp [hattempt, hstate]
  fresh n hn := by cases hattempt.symm.trans hn
  bound n hn := by
    rw [hattempts]
    rw [hattempt, hbecame] at hn
    exact h.bound n (.inr (hn.resolve_left nofun))
  became g hg := by cases hcurrent.symm.trans hg

end Consistent

variable {part : Section} {todo : List Assign} {next : Option Outside}

/-- **A critical section leaves the fields consistent.** -/
theorem Enters.consistent (henter : Enters s part todo next) (h : Consistent s.guarded) :
    Consistent (todo.foldl Assign.run s.guarded) := by
  cases henter with
  | accept hidle =>
    have hcurrent := h.current_of_state (by simp [hidle])
    have hconnected := h.connected_of_state (by simp [hidle])
    refine ⟨?_, ?_, ?_, ?_, ?_, ?_⟩
    · simp [run, hconnected]
    · simp [run, hcurrent]
    · simp [run]
    · rintro n ⟨⟩ hbecame
      exact lt_irrefl _ (h.bound _ (.inr hbecame))
    · rintro n (⟨⟨⟩⟩ | hbecame)
      · exact Nat.lt_succ_self _
      · exact Nat.lt_succ_of_lt (h.bound n (.inr hbecame))
    · intro g hg
      cases hcurrent.symm.trans hg
  | @publish n hattempt =>
    have hbecame (m : ℕ) :
        m ∈ insert n s.guarded.became ↔ m = n ∨ m ∈ s.guarded.became := Finset.mem_insert
    refine ⟨by simp [run], by simp [run], by simp [run], ?_, ?_, ?_⟩
    · rintro m ⟨⟩
    · rintro m (⟨⟨⟩⟩ | hm)
      rcases (hbecame m).mp hm with rfl | hm
      · exact h.bound m (.inl hattempt)
      · exact h.bound m (.inr hm)
    · rintro g ⟨⟩
      exact Finset.mem_insert_self _ _
  | fail hattempt =>
    have hstate : s.guarded.state = .connecting := h.attempt.mpr (hattempt ▸ rfl)
    exact h.reset rfl (h.current_of_state (by simp [hstate])) rfl rfl rfl rfl
  | clear hcurrent => exact h.reset (h.attempt_of_current hcurrent) rfl rfl rfl rfl rfl
  | onDisconnected => exact ⟨h.connected, h.current, h.attempt, h.fresh, h.bound, h.became⟩
  | _ => exact h

/-- The fields as the goroutine will leave them. -/
def Point.settle (f : Guarded) (p : Point) : Guarded := p.todo.foldl Assign.run f

/-- The fields are consistent when the lock is free, and will be when who holds it unlocks. -/
structure Settled (c : Config Shared Point) : Prop where
  free : c.shared.connMutex = false → Consistent c.shared.guarded
  inside : ∀ p ∈ c.threads, p.inside = true → Consistent (p.settle c.shared.guarded)

theorem Settled.of_alone (hrest : ∀ q ∈ rest, q.inside = false)
    (hfree : s'.connMutex = false → Consistent s'.guarded)
    (hself : ∀ q, p' = some q → q.inside = true → Consistent (q.settle s'.guarded)) :
    Settled ⟨s', rejoin p' rest⟩ where
  free := hfree
  inside q hq hinside := by
    rcases mem_rejoin.mp hq with hq | hq
    · exact hself q hq hinside
    · cases (hrest q hq).symm.trans hinside

theorem Settled.step (hreach : connection.Reachable ⟨s, p ::ₘ rest⟩) (h : Settled ⟨s, p ::ₘ rest⟩)
    (hmoves : Moves s p s' p') : Settled ⟨s', rejoin p' rest⟩ := by
  have hself := h.inside p (mem_cons_self p rest)
  have halone (hp : p.inside = true) := fun q hq => connMutex_mutex.alone (q := q) hreach hp hq
  -- outside the critical sections the fields stay as they are
  have hpass (hmutex : s'.connMutex = s.connMutex) (hguarded : s'.guarded = s.guarded)
      (hnext : p'.elim false Point.inside = false) : Settled ⟨s', rejoin p' rest⟩ := by
    refine ⟨fun hfree => hguarded ▸ h.free (hmutex ▸ hfree), fun q hq hinside => ?_⟩
    rcases mem_rejoin.mp hq with rfl | hq
    · cases hnext.symm.trans hinside
    · exact hguarded ▸ h.inside q (mem_cons_of_mem hq) hinside
  cases hmoves with
  | acquire free =>
    have hrest (q : Point) (hq : q ∈ rest) :=
      connMutex_mutex.outside hreach free (mem_cons_of_mem hq)
    refine .of_alone hrest nofun ?_
    rintro q ⟨⟩ _
    exact h.free free
  | enter henter =>
    refine .of_alone (halone rfl) h.free ?_
    rintro q ⟨⟩ _
    exact henter.consistent (hself rfl)
  | assign =>
    have hmutex := connMutex_mutex.taken hreach (mem_cons_self _ _) rfl
    refine .of_alone (halone rfl) ?_ ?_
    · intro hfree
      rw [exec_connMutex] at hfree
      cases hmutex.symm.trans hfree
    · -- the goroutine still leaves the fields as it would have
      rintro q ⟨⟩ _
      rw [exec_guarded]
      exact hself rfl
  | release =>
    refine .of_alone (halone rfl) (fun _ => hself rfl) ?_
    rintro q hq hinside
    obtain ⟨o, -, rfl⟩ := map_eq_some_iff.mp hq
    cases hinside
  | _ => exact hpass rfl rfl rfl

/-- **The fields are consistent whenever `connMutex` is free.** -/
theorem settled (h : connection.Reachable c) : Settled c := by
  refine config_induction ?_ ?_ ?_ h
  · exact ⟨fun _ => ⟨by decide, by decide, by decide, nofun, by simp [connection], nofun⟩, nofun⟩
  · intro s threads p _ hI hentry
    refine ⟨hI.free, fun q hq hinside => ?_⟩
    rcases mem_cons.mp hq with rfl | hq
    · cases (connMutex_mutex.call q hentry).symm.trans hinside
    · exact hI.inside q hq hinside
  · exact fun s p rest choice s' p' hreach hI hstep => hI.step hreach (step_moves hstep)

theorem consistent_of_entered (h : connection.Reachable ⟨s, .entered part ::ₘ rest⟩) :
    Consistent s.guarded :=
  (settled h).inside _ (mem_cons_self _ _) rfl

/-! ## Stale generations -/

theorem Enters.closes {g : ℕ} (henter : Enters s part todo next)
    (hcloses : (Point.body todo next).closes = some g) :
    todo = [] ∨ s.guarded.current = some g := by
  cases henter with
  | clear hcurrent =>
    cases hcloses
    exact .inr hcurrent
  | _ => first | exact .inl rfl | cases hcloses

/-- Who has taken the lock found `current` as it is, and who clears a generation found it
current. -/
theorem found_of_clears (h : connection.Reachable c) : ∀ p ∈ c.threads,
    (∀ part, p = .entered part → c.shared.record.found = c.shared.guarded.current) ∧
      ∀ g, p.closes = some g → p.todo = [] ∨ c.shared.record.found = some g := by
  refine thread_invariant (J := fun s p =>
    (∀ part, p = .entered part → s.record.found = s.guarded.current) ∧
      ∀ g, p.closes = some g → p.todo = [] ∨ s.record.found = some g) ?_ ?_ ?_ ?_ h
  · exact nofun
  · intro s threads p _ hentry
    cases p with
    | outside => exact ⟨nofun, fun _ _ => .inl rfl⟩
    | _ => cases hentry
  · intro s p rest choice s' p' _ hp hstep
    generalize hnext : some p' = q at hstep
    cases step_moves hstep with
    | acquire =>
      cases hnext
      exact ⟨fun _ _ => rfl, fun _ _ => .inl rfl⟩
    | @enter part _ _ henter =>
      cases hnext
      refine ⟨nofun, fun g hcloses => ?_⟩
      rw [hp.1 part rfl]
      exact henter.closes hcloses
    | assign =>
      cases hnext
      refine ⟨nofun, fun g hcloses => .inr ?_⟩
      rw [exec_record]
      exact (hp.2 g hcloses).resolve_left nofun
    | release =>
      obtain ⟨o, -, rfl⟩ := map_eq_some_iff.mp hnext.symm
      exact ⟨nofun, fun _ _ => .inl rfl⟩
    | _ => cases hnext <;> exact ⟨nofun, fun _ _ => .inl rfl⟩
  · intro s p rest choice s' p' q hreach hq _ hJ hstep
    cases hinside : q.inside with
    | false =>
      cases q with
      | outside => exact ⟨nofun, fun _ _ => .inl rfl⟩
      | _ => cases hinside
    | true =>
      have hmutex := connMutex_mutex.taken hreach (mem_cons_of_mem hq) hinside
      have htodo := todo_of_other hreach hq hinside
      rw [(step_moves hstep).found_eq hmutex, (step_moves hstep).guarded_eq htodo]
      exact hJ

/-! ## The callback -/

theorem Enters.clears (henter : Enters s part todo next) :
    next.bind Outside.clears = part.closes := by
  cases henter with
  | disconnect => cases s.guarded.current <;> rfl
  | _ => rfl

/-- Whether the goroutine has entered the `closeOnce` of the generation. -/
def clearing (g : ℕ) (p : Point) : ℕ := if p.clears = some g then 1 else 0

theorem clearing_congr (g : ℕ) (h : q.clears = p.clears) : clearing g q = clearing g p := by
  rw [clearing, clearing, h]

theorem clearing_eq_zero (g : ℕ) (h : p.clears = none) : clearing g p = 0 := by
  rw [clearing, h]
  rfl

/-- A goroutine enters the `closeOnce` of a generation that is new to `closing`, and gives that
up when it calls back. -/
theorem Moves.clearing_le (h : Moves s p s' p') (g : ℕ) :
    s'.record.callbacks.count g + p'.elim 0 (clearing g) + (if g ∈ s.closing then 1 else 0) ≤
      (if g ∈ s'.closing then 1 else 0) + (s.record.callbacks.count g + clearing g p) := by
  have hkeep (hclosing : s'.closing = s.closing)
      (hrecord : s'.record.callbacks = s.record.callbacks)
      (hnext : p'.elim 0 (clearing g) ≤ clearing g p) :
      s'.record.callbacks.count g + p'.elim 0 (clearing g) + (if g ∈ s.closing then 1 else 0) ≤
        (if g ∈ s'.closing then 1 else 0) + (s.record.callbacks.count g + clearing g p) := by
    rw [hclosing, hrecord]
    omega
  cases h with
  | acquire | hold | leaveCalling => exact hkeep rfl rfl (clearing_congr g rfl).le
  | enter henter =>
    exact hkeep rfl rfl (clearing_congr (q := .body _ _) (p := .entered _) g henter.clears).le
  | assign =>
    refine hkeep (exec_closing _ _) ?_ (clearing_congr g rfl).le
    rw [exec_record]
  | @release next =>
    refine hkeep rfl rfl ?_
    cases next with
    | none => exact Nat.zero_le _
    | some => exact (clearing_congr g rfl).le
  | @lock _ part hpart =>
    have hzero := clearing_eq_zero (p := .outside (.lock part)) g hpart
    exact hkeep rfl rfl (hzero.trans_le (Nat.zero_le _))
  | @once g' hfirst =>
    dsimp only [elim_some]
    by_cases hg : g' = g
    · subst hg
      have hself : clearing g' (.outside (.lock (.clear g'))) = 1 := if_pos rfl
      rw [if_neg hfirst, if_pos (Finset.mem_insert_self _ _), hself]
      omega
    · have hmem : g ∈ insert g' s.closing ↔ g ∈ s.closing := by
        simp [Ne.symm hg]
      have hclears : Point.clears (.outside (.lock (.clear g'))) ≠ some g := by
        rintro ⟨⟩
        exact hg rfl
      rw [clearing, if_neg hclears]
      simp only [hmem]
      omega
  | @callback g' =>
    dsimp only [elim_none]
    have hclears : clearing g (.outside (.callback g')) = if g' = g then 1 else 0 := by
      simp [clearing, Point.clears, Outside.clears]
    rw [List.count_cons, hclears]
    simp only [beq_iff_eq]
    omega
  | _ => exact hkeep rfl rfl (Nat.zero_le _)

/-- `closeOnce` is entered once for each generation, and who entered it calls back once. -/
theorem callbacks_le (h : connection.Reachable c) (g : ℕ) :
    c.shared.record.callbacks.count g + Program.total (clearing g) c.threads ≤
      if g ∈ c.shared.closing then 1 else 0 := by
  refine covered (fun s => if g ∈ s.closing then 1 else 0)
    (fun s => s.record.callbacks.count g) (clearing g) (Nat.zero_le _) ?_ ?_ h
  · intro p hentry
    cases p with
    | outside o =>
      cases o with
      | lock part => cases part <;> first | rfl | cases hentry
      | _ => first | rfl | cases hentry
    | _ => cases hentry
  · exact fun s p choice s' p' hstep => (step_moves hstep).clearing_le g

theorem callbacks_nodup (h : connection.Reachable c) : c.shared.record.callbacks.Nodup := by
  rw [List.nodup_iff_count_le_one]
  intro g
  have hle := callbacks_le h g
  split at hle <;> omega

theorem Enters.calls {g : ℕ} (henter : Enters s part todo next)
    (hcalls : next.bind Outside.calls = some g) : s.guarded.current = some g := by
  cases henter with
  | disconnect =>
    cases hcurrent : s.guarded.current with
    | none | some =>
      rw [hcurrent] at hcalls
      cases hcalls
  | @clear g' hcurrent =>
    cases hset : s.guarded.onDisconnected with
    | false =>
      rw [hset] at hcalls
      cases hcalls
    | true =>
      rw [hset] at hcalls
      cases hcalls
      exact hcurrent
  | _ => cases hcalls

/-- Who is to call back was so before, or has just found the generation current. -/
theorem Moves.calls {g : ℕ} (h : Moves s p s' (some q))
    (hcalls : q.next.bind Outside.calls = some g) :
    p.next.bind Outside.calls = some g ∨
      (∃ part, p = .entered part) ∧ s.guarded.current = some g := by
  generalize hnext : some q = p' at h
  cases h with
  | enter henter =>
    cases hnext
    exact .inr ⟨⟨_, rfl⟩, henter.calls hcalls⟩
  | assign | leaveCalling =>
    cases hnext
    exact .inl hcalls
  | release =>
    obtain ⟨o, rfl, rfl⟩ := map_eq_some_iff.mp hnext.symm
    exact .inl hcalls
  | _ => cases hnext <;> cases hcalls

theorem Moves.callbacks {g : ℕ} (h : Moves s p s' p') (hg : g ∈ s'.record.callbacks) :
    g ∈ s.record.callbacks ∨ p.next.bind Outside.calls = some g := by
  cases h with
  | assign =>
    rw [exec_record] at hg
    exact .inl hg
  | callback =>
    rcases List.mem_cons.mp hg with rfl | hg
    · exact .inr rfl
    · exact .inl hg
  | _ => exact .inl hg

/-- The generations called back for, and those that are to be, have been current. -/
structure Called (c : Config Shared Point) : Prop where
  callbacks : ∀ g ∈ c.shared.record.callbacks, g ∈ c.shared.guarded.became
  threads : ∀ p ∈ c.threads, ∀ g, p.next.bind Outside.calls = some g → g ∈ c.shared.guarded.became

theorem called (h : connection.Reachable c) : Called c := by
  refine config_induction ?_ ?_ ?_ h
  · exact ⟨fun g hg => absurd hg List.not_mem_nil, fun p hp => absurd hp (notMem_zero p)⟩
  · intro s threads p _ hI hentry
    refine ⟨hI.callbacks, fun q hq g hcalls => ?_⟩
    rcases mem_cons.mp hq with rfl | hq
    · cases q with
      | outside o => cases o <;> first | cases hentry; done | cases hcalls
      | _ => cases hentry
    · exact hI.threads q hq g hcalls
  · intro s p rest choice s' p' hreach hI hstep
    have hmoves := step_moves hstep
    have hself := hI.threads p (mem_cons_self p rest)
    refine ⟨fun g hg => hmoves.became_mono ?_, fun q hq g hcalls => hmoves.became_mono ?_⟩
    · exact (hmoves.callbacks hg).elim (hI.callbacks g) (hself g)
    · rcases mem_rejoin.mp hq with rfl | hq
      · rcases hmoves.calls hcalls with hcalls | ⟨⟨part, rfl⟩, hcurrent⟩
        · exact hself g hcalls
        · exact (consistent_of_entered hreach).became g hcurrent
      · exact hI.threads q (mem_cons_of_mem hq) g hcalls

/-! ## Disconnect during an attempt -/

/-- The attempt is cancelled, has not been current, and nobody is about to publish it. -/
structure Doomed (n : ℕ) (c : Config Shared Point) : Prop where
  cancelled : n ∈ c.shared.cancelled
  became : n ∉ c.shared.guarded.became
  threads : ∀ p ∈ c.threads, Assign.current (some n) ∉ p.todo

variable {n : ℕ}

theorem Enters.publishes (henter : Enters s part todo next)
    (hcurrent : Assign.current (some n) ∈ todo) : n ∉ s.cancelled := by
  cases henter with
  | publish hattempt hlive =>
    obtain rfl : n = _ := by simpa using hcurrent
    exact hlive
  | _ => simp at hcurrent

/-- **A cancelled attempt is never published.** -/
theorem Doomed.step (h : Doomed n ⟨s, p ::ₘ rest⟩) (hmoves : Moves s p s' p') :
    Doomed n ⟨s', rejoin p' rest⟩ where
  cancelled := hmoves.cancelled_mono h.cancelled
  became := by
    have hp := h.threads p (mem_cons_self p rest)
    cases hmoves with
    | assign =>
      rw [exec_guarded, became_run]
      rintro (hbecame | rfl)
      · exact h.became hbecame
      · exact hp List.mem_cons_self
    | _ => exact h.became
  threads q hq := by
    rcases mem_rejoin.mp hq with hself | hq
    · have hp := h.threads p (mem_cons_self p rest)
      cases hmoves with
      | enter henter =>
        cases hself
        exact fun hcurrent => henter.publishes hcurrent h.cancelled
      | assign =>
        cases hself
        exact fun hcurrent => hp (List.mem_cons_of_mem _ hcurrent)
      | release =>
        obtain ⟨o, -, rfl⟩ := map_eq_some_iff.mp hself
        exact List.not_mem_nil
      | _ => cases hself <;> exact List.not_mem_nil
    · exact h.threads q (mem_cons_of_mem hq)

theorem Enters.awaits (henter : Enters s part todo next)
    (hawaits : next.bind Outside.awaits = some n) :
    todo = [.cancel n] ∧ s.guarded.attempt = some n := by
  cases henter with
  | disconnect =>
    cases hcurrent : s.guarded.current with
    | none | some =>
      rw [hcurrent] at hawaits
      cases hawaits
  | cancel hattempt =>
    cases hawaits
    exact ⟨rfl, hattempt⟩
  | _ => cases hawaits

/-- Who waits for an attempt did so before, or is just about to cancel the attempt under way. -/
theorem Moves.awaits (h : Moves s p s' (some q)) (hawaits : q.next.bind Outside.awaits = some n) :
    p.next.bind Outside.awaits = some n ∨ q.todo = [.cancel n] ∧ s'.guarded.attempt = some n := by
  generalize hnext : some q = p' at h
  cases h with
  | enter henter =>
    cases hnext
    exact .inr (henter.awaits hawaits)
  | assign =>
    cases hnext
    exact .inl hawaits
  | release =>
    obtain ⟨o, rfl, rfl⟩ := map_eq_some_iff.mp hnext.symm
    exact .inl hawaits
  | _ => cases hnext <;> cases hawaits

theorem Moves.awaited (h : Moves s p s' p') (hn : n ∈ s'.record.awaited) : n ∈ s.record.awaited ∨
      p.next.bind Outside.awaits = some n ∧ p.todo = [] ∧ n ∈ s.finished := by
  cases h with
  | assign =>
    rw [exec_record] at hn
    exact .inl hn
  | wait hfinished =>
    rcases List.mem_cons.mp hn with rfl | hn
    · exact .inr ⟨rfl, rfl, hfinished⟩
    · exact .inl hn
  | _ => exact .inl hn

theorem doomed_of_cancel (hreach : connection.Reachable ⟨s, p ::ₘ rest⟩)
    (htodo : p.todo = [.cancel n]) (hattempt : s.guarded.attempt = some n)
    (hmoves : Moves s p s' p') : Doomed n ⟨s', rejoin p' rest⟩ := by
  have hself := (settled hreach).inside p (mem_cons_self p rest)
  cases hmoves with
  | assign =>
    obtain ⟨rfl, rfl⟩ := List.cons.inj htodo
    refine ⟨Finset.mem_insert_self n s.cancelled, (hself rfl).fresh n hattempt, fun q hq => ?_⟩
    rcases mem_cons.mp hq with rfl | hq
    · exact List.not_mem_nil
    · cases q with
      | outside => exact List.not_mem_nil
      | _ => cases connMutex_mutex.alone hreach rfl hq
  | _ => cases htodo

/-- Who waits for an attempt has cancelled it, or is about to do so while it is the attempt
under way. -/
structure Awaited (c : Config Shared Point) : Prop where
  returned : ∀ n ∈ c.shared.record.awaited, Doomed n c ∧ n ∈ c.shared.finished
  waiting : ∀ p ∈ c.threads, ∀ n, p.next.bind Outside.awaits = some n →
    Doomed n c ∨ p.todo = [.cancel n] ∧ c.shared.guarded.attempt = some n

theorem Awaited.call {threads : Multiset Point} (h : Awaited ⟨s, threads⟩)
    (hentry : connection.entry p = true) : Awaited ⟨s, p ::ₘ threads⟩ := by
  have hdoomed {n : ℕ} (h : Doomed n ⟨s, threads⟩) : Doomed n ⟨s, p ::ₘ threads⟩ := by
    refine ⟨h.cancelled, h.became, fun q hq => ?_⟩
    rcases mem_cons.mp hq with rfl | hq
    · cases q with
      | outside => exact List.not_mem_nil
      | _ => cases hentry
    · exact h.threads q hq
  refine ⟨fun n hn => (h.returned n hn).imp_left hdoomed, fun q hq n hawaits => ?_⟩
  rcases mem_cons.mp hq with rfl | hq
  · cases q with
    | outside o => cases o <;> first | cases hentry; done | cases hawaits
    | _ => cases hentry
  · exact (h.waiting q hq n hawaits).imp_left hdoomed

theorem Awaited.step (hreach : connection.Reachable ⟨s, p ::ₘ rest⟩) (h : Awaited ⟨s, p ::ₘ rest⟩)
    (hmoves : Moves s p s' p') : Awaited ⟨s', rejoin p' rest⟩ := by
  have hself := h.waiting p (mem_cons_self p rest)
  refine ⟨fun n hn => ?_, fun q hq n hawaits => ?_⟩
  · rcases hmoves.awaited hn with hn | ⟨hawaits, htodo, hfinished⟩
    · exact (h.returned n hn).imp (fun hdoomed => hdoomed.step hmoves) (hmoves.finished_mono ·)
    · have hdoomed := (hself n hawaits).resolve_right fun hcancel => by
        cases htodo.symm.trans hcancel.1
      exact ⟨hdoomed.step hmoves, hmoves.finished_mono hfinished⟩
  · rcases mem_rejoin.mp hq with rfl | hq
    · rcases hmoves.awaits hawaits with hawaits | hcancel
      · rcases hself n hawaits with hdoomed | ⟨htodo, hattempt⟩
        · exact .inl (hdoomed.step hmoves)
        · exact .inl (doomed_of_cancel hreach htodo hattempt hmoves)
      · exact .inr hcancel
    · -- another one that is about to cancel holds the lock, and the attempt stays
      refine (h.waiting q (mem_cons_of_mem hq) n hawaits).imp
        (fun hdoomed => hdoomed.step hmoves) ?_
      rintro ⟨htodo, hattempt⟩
      have hinside : q.inside = true := by
        cases q <;> first | rfl | cases htodo
      rw [hmoves.guarded_eq (todo_of_other hreach hq hinside)]
      exact ⟨htodo, hattempt⟩

theorem awaited (h : connection.Reachable c) : Awaited c := by
  refine config_induction ?_ ?_ ?_ h
  · exact ⟨fun n hn => absurd hn List.not_mem_nil, fun p hp => absurd hp (notMem_zero p)⟩
  · exact fun s threads p _ hI hentry => hI.call hentry
  · exact fun s p rest choice s' p' hreach hI hstep => hI.step hreach (step_moves hstep)

/-! ## The connection states -/

/-- **The connection states of the client.**  In every interleaving, while `connMutex` is free
the fields agree.  Who closes a generation changes none of them unless it found the generation
current when it took the lock.
`onDisconnected` is called once at most for a generation, and only if it was current.  A
`Disconnect` that found an attempt under way returns when the attempt has finished, and the
attempt was and will never be current. -/
theorem connection_states (h : connection.Reachable c) :
    (c.shared.connMutex = false →
      (c.shared.guarded.connected = true ↔ c.shared.guarded.state = .connected) ∧
      (c.shared.guarded.state = .connected ↔ c.shared.guarded.current.isSome = true) ∧
      (c.shared.guarded.state = .connecting ↔ c.shared.guarded.attempt.isSome = true) ∧
      ¬(c.shared.guarded.current.isSome = true ∧ c.shared.guarded.attempt.isSome = true)) ∧
    (∀ p ∈ c.threads, ∀ g choice s' p', p.closes = some g →
      (p.inside = true → c.shared.record.found ≠ some g) →
      step c.shared p choice = some (s', p') →
      s'.guarded.state = c.shared.guarded.state ∧
        s'.guarded.connected = c.shared.guarded.connected ∧
        s'.guarded.current = c.shared.guarded.current) ∧
    (c.shared.record.callbacks.Nodup ∧
      ∀ g ∈ c.shared.record.callbacks, g ∈ c.shared.guarded.became) ∧
    ∀ n ∈ c.shared.record.awaited, n ∈ c.shared.finished ∧ n ∉ c.shared.guarded.became := by
  refine ⟨fun hfree => ?_, fun p hp g choice s' p' hcloses hfound hstep => ?_,
    ⟨callbacks_nodup h, (called h).callbacks⟩, fun n hn => ?_⟩
  · have hconsistent := (settled h).free hfree
    refine ⟨hconsistent.connected, hconsistent.current, hconsistent.attempt, ?_⟩
    rintro ⟨hcurrent, hattempt⟩
    obtain ⟨g, hcurrent⟩ := Option.isSome_iff_exists.mp hcurrent
    rw [hconsistent.attempt_of_current hcurrent] at hattempt
    cases hattempt
  · have htodo : p.todo = [] := by
      cases p with
      | outside => rfl
      | _ => exact ((found_of_clears h _ hp).2 g hcloses).resolve_right (hfound rfl)
    rw [(step_moves hstep).guarded_eq htodo]
    exact ⟨rfl, rfl, rfl⟩
  · obtain ⟨hdoomed, hfinished⟩ := (awaited h).returned n hn
    exact ⟨hfinished, hdoomed.became⟩

/-- A goroutine goes through a critical section without being interrupted. -/
def critical (part : Section) (todo : List Assign) (next : Option Outside) :
    Run Point Choice :=
  .run (.outside (.lock part)) .go :: .run (.entered part) .go ::
    todo.tails.map fun todo => .run (.body todo next) .go

/-- The client connects, the peer goes away, and a second attempt is cancelled by `Disconnect`
while it dials. -/
def redialled : Run Point Choice := List.flatten [
  [.call (.outside (.lock (.onDisconnected true)))],
  critical (.onDisconnected true) [.onDisconnected true] none,
  [.call (.outside (.lock .connect))],
  critical .connect [.newAttempt, .attempt (some 0), .state .connecting] (some (.dial 0)),
  [.run (.outside (.dial 0)) .go],
  critical (.dialed 0) [] (some (.handleHandshake 0)),
  [.run (.outside (.handleHandshake 0)) .go],
  critical (.publish 0)
    [.current (some 0), .connected true, .state .connected, .attempt none,
      .startGenerationLoops 0] (some (.deferred 0)),
  [.run (.outside (.deferred 0)) .go, .call (.outside (.holder 0)),
    .run (.outside (.holder 0)) .go, .run (.outside (.closeOnce 0)) .go],
  critical (.clear 0) [.current none, .state .idle, .connected false] (some (.cleared 0 true)),
  [.run (.outside (.cleared 0 true)) .go, .run (.outside (.callback 0)) .go,
    .call (.outside (.lock .connect))],
  critical .connect [.newAttempt, .attempt (some 1), .state .connecting] (some (.dial 1)),
  [.call (.outside (.lock .disconnect))],
  critical .disconnect [.cancel 1] (some (.wait 1)),
  [.run (.outside (.dial 1)) .fail],
  critical (.failConnectAttempt 1) [.attempt none, .state .idle, .connected false]
    (some (.deferred 1)),
  [.run (.outside (.deferred 1)) .go, .run (.outside (.wait 1)) .go]]

theorem connection_states_redialled : ∃ c, connection.system.run redialled = some c ∧
    (0 ∈ c.shared.guarded.became ∧ 1 ∈ c.shared.finished ∧ 1 ∉ c.shared.guarded.became ∧
      ¬(c.shared.guarded.current.isSome = true ∧ c.shared.guarded.attempt.isSome = true)) ∧
    c.shared.connMutex = false ∧ c.shared.record.callbacks = [0] ∧
    c.shared.record.awaited = [1] := by
  refine reaches_and (by decide +kernel) fun c hc ⟨hfree, hcallbacks, hawaited⟩ => ?_
  obtain ⟨hstates, -, ⟨-, hbecame⟩, hdisconnect⟩ := connection_states ⟨redialled, hc⟩
  have hone := hdisconnect 1 (by simp [hawaited])
  exact ⟨hbecame 0 (by simp [hcallbacks]), hone.1, hone.2, (hstates hfree).2.2.2⟩

end Pitaya.Client.Connection
