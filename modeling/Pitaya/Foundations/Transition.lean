import Mathlib.Data.List.Basic
import Mathlib.Data.List.Induction
import Mathlib.Logic.Basic

/-!
# Runs of a guarded transition system

A `System` is a start state and a step function that is undefined (`none`) where
an event is not enabled.  A run is the list of its events, oldest first, and the
state a run reaches is computed by `run`.

* `run_induction` — what holds at the start and is kept by every step of a run
  holds after the whole run.  The invariant may speak of the events so far.
  `run_induction_after` starts after a part of the run, `run_induction_since` with
  one of its events.
* `Reachable`, `reachable_induction` — the same without the events.
* `Stuck` — nothing is enabled.  If every step lowers a measure, runs are bounded and
  every run can be continued until it is stuck; `exists_reaching` is the same for any goal.
-/

universe u v

namespace Transition

open List Option

/-- What holds where a run leads is decided by the run. -/
instance decidableReaches {α : Type u} (o : Option α) (p : α → Prop) [DecidablePred p] :
    Decidable (∃ a, o = some a ∧ p a) :=
  inferInstanceAs (Decidable (∃ a ∈ o, p a))

/-- Where a run leads passes a test, and what follows from that. -/
theorem reaches_and {α : Type u} {o : Option α} {p q : α → Prop} (h : ∃ a, o = some a ∧ p a)
    (hq : ∀ a, o = some a → p a → q a) : ∃ a, o = some a ∧ q a ∧ p a :=
  h.imp fun a ⟨ho, hp⟩ => ⟨ho, hq a ho hp, hp⟩

/-- A start state and a guarded step. -/
structure System (σ : Type u) (ι : Type v) where
  start : σ
  step : σ → ι → Option σ

namespace System

variable {σ : Type u} {ι : Type v} (S : System σ ι)

/-- The state after a list of events from a given state, if all are enabled. -/
def runFrom (s : σ) (events : List ι) : Option σ := events.foldlM S.step s

/-- The state after a run. -/
def run (events : List ι) : Option σ := S.runFrom S.start events

@[simp] theorem runFrom_cons (s : σ) (e : ι) (events : List ι) :
    S.runFrom s (e :: events) = (S.step s e).bind fun s' => S.runFrom s' events := rfl

theorem runFrom_append (s : σ) (first second : List ι) :
    S.runFrom s (first ++ second) =
      (S.runFrom s first).bind fun s' => S.runFrom s' second := by
  induction first generalizing s with
  | nil => rfl
  | cons e first ih =>
    simp only [cons_append, runFrom_cons]
    cases S.step s e with
    | none => rfl
    | some s' => exact ih s'

theorem run_append (first second : List ι) :
    S.run (first ++ second) = (S.run first).bind fun s => S.runFrom s second :=
  S.runFrom_append S.start first second

theorem run_concat (events : List ι) (e : ι) :
    S.run (events ++ [e]) = (S.run events).bind fun s => S.step s e := by
  rw [run_append]
  refine congrArg _ (funext fun s => ?_)
  rw [runFrom_cons]
  cases S.step s e <;> rfl

variable {S}

/-- The last step of a run. -/
theorem run_concat_eq_some {events : List ι} {e : ι} {s' : σ} :
    S.run (events ++ [e]) = some s' ↔ ∃ s, S.run events = some s ∧ S.step s e = some s' := by
  rw [run_concat]
  exact bind_eq_some_iff

/-- A run passes through the state after its first part. -/
theorem run_append_eq_some {first second : List ι} {s : σ} :
    S.run (first ++ second) = some s ↔
      ∃ s₀, S.run first = some s₀ ∧ S.runFrom s₀ second = some s := by
  rw [run_append]
  exact bind_eq_some_iff

/-- A run takes the step it is split at. -/
theorem step_of_run_split {before after : List ι} {e : ι} {s last : σ}
    (hrun : S.run (before ++ e :: after) = some last) (hbefore : S.run before = some s) :
    ∃ s', S.step s e = some s' := by
  rw [run_append, hbefore, bind_some, runFrom_cons] at hrun
  obtain ⟨s', hstep, -⟩ := bind_eq_some_iff.mp hrun
  exact ⟨s', hstep⟩

variable (S) in
/-- The states some run ends in. -/
def Reachable (s : σ) : Prop := ∃ events, S.run events = some s

/-! ## Induction over runs -/

variable (S) in
/-- Every step of the run meets `C`, a condition on the state before the step
and the event. -/
def Meets (C : σ → ι → Prop) (events : List ι) : Prop :=
  ∀ before e after s, events = before ++ e :: after → S.run before = some s → C s e

variable {C : σ → ι → Prop}

theorem Meets.of_append {first second : List ι}
    (h : S.Meets C (first ++ second)) : S.Meets C first := by
  intro before e after s hsplit hrun
  refine h before e (after ++ second) s ?_ hrun
  rw [hsplit, append_assoc, cons_append]

theorem Meets.last {events : List ι} {e : ι} {s : σ}
    (h : S.Meets C (events ++ [e])) (hrun : S.run events = some s) : C s e :=
  h events e [] s rfl hrun

/-- A run meets a condition up to its last step, and in that step. -/
theorem meets_concat_iff {events : List ι} {e : ι} {s : σ}
    (hrun : S.run events = some s) : S.Meets C (events ++ [e]) ↔ S.Meets C events ∧ C s e := by
  refine ⟨fun h => ⟨h.of_append, h.last hrun⟩, ?_⟩
  rintro ⟨h, hlast⟩ before e' after s' hsplit hbefore
  rcases eq_nil_or_concat after with rfl | ⟨after, e'', rfl⟩
  · obtain ⟨rfl, he⟩ := append_inj' hsplit rfl
    obtain rfl := singleton_inj.mp he
    obtain rfl := some.inj (hrun.symm.trans hbefore)
    exact hlast
  · rw [concat_eq_append, ← cons_append, ← append_assoc] at hsplit
    obtain ⟨rfl, -⟩ := append_inj' hsplit rfl
    exact h before e' after s' rfl hbefore

variable {P : List ι → σ → Prop}

/-- **Induction over the runs that meet a condition.** -/
theorem run_induction_of_meets (start : P [] S.start)
    (step : ∀ events e s s', S.run events = some s → C s e → P events s →
      S.step s e = some s' → P (events ++ [e]) s')
    {events : List ι} {s : σ} (hrun : S.run events = some s) (hmeets : S.Meets C events) :
    P events s := by
  induction events using reverseRecOn generalizing s with
  | nil =>
    obtain rfl := some.inj hrun
    exact start
  | append_singleton events e ih =>
    obtain ⟨s₀, hrun₀, hstep⟩ := run_concat_eq_some.mp hrun
    exact step events e s₀ s hrun₀ (hmeets.last hrun₀) (ih hrun₀ hmeets.of_append) hstep

/-- **Induction over runs.** -/
theorem run_induction (start : P [] S.start)
    (step : ∀ events e s s', S.run events = some s → P events s →
      S.step s e = some s' → P (events ++ [e]) s')
    {events : List ι} {s : σ} (hrun : S.run events = some s) : P events s :=
  run_induction_of_meets (C := fun _ _ => True) start
    (fun events e s s' h _ => step events e s s' h) hrun (fun _ _ _ _ _ _ => trivial)

/-- **Induction over the continuations of a run.** -/
theorem run_induction_after {before : List ι} {s₀ : σ}
    (hbefore : S.run before = some s₀) (start : P [] s₀)
    (step : ∀ after e s s', S.run (before ++ after) = some s → P after s →
      S.step s e = some s' → P (after ++ [e]) s')
    {after : List ι} {s : σ} (hrun : S.run (before ++ after) = some s) : P after s := by
  induction after using reverseRecOn generalizing s with
  | nil =>
    rw [append_nil, hbefore] at hrun
    obtain rfl := some.inj hrun
    exact start
  | append_singleton after e ih =>
    rw [← append_assoc] at hrun
    obtain ⟨s₁, hrun₁, hstep⟩ := run_concat_eq_some.mp hrun
    exact step after e s₁ s hrun₁ (ih hrun₁) hstep

/-- **Induction over what happens after an event of a run.** -/
theorem run_induction_since {before : List ι} {e : ι}
    (first : ∀ s s', S.run before = some s → S.step s e = some s' → P [] s')
    (step : ∀ after e' s s', S.run (before ++ e :: after) = some s → P after s →
      S.step s e' = some s' → P (after ++ [e']) s')
    {after : List ι} {s : σ} (hrun : S.run (before ++ e :: after) = some s) : P after s := by
  rw [append_cons] at hrun
  obtain ⟨s₁, hfirst, -⟩ := run_append_eq_some.mp hrun
  obtain ⟨s₀, hbefore, hstep⟩ := run_concat_eq_some.mp hfirst
  refine run_induction_after hfirst (first s₀ s₁ hbefore hstep) ?_ hrun
  intro after e' s s' hafter
  rw [← append_cons] at hafter
  exact step after e' s s' hafter

/-- **Along a run** `P` holds if and only if every step meets the condition under which it is
kept. -/
theorem forall_prefix_iff_meets {P : σ → Prop} (start : P S.start)
    (step : ∀ s e s', S.Reachable s → P s → S.step s e = some s' → (P s' ↔ C s e))
    {events : List ι} {s : σ} (hrun : S.run events = some s) :
    (∀ before s', before <+: events → S.run before = some s' → P s') ↔ S.Meets C events := by
  constructor
  · intro h before e after s₀ hsplit hbefore
    subst hsplit
    obtain ⟨s₁, hstep⟩ := step_of_run_split hrun hbefore
    refine (step s₀ e s₁ ⟨before, hbefore⟩ (h before s₀ (prefix_append _ _) hbefore) hstep).mp
      (h (before ++ [e]) s₁ ?_ (run_concat_eq_some.mpr ⟨s₀, hbefore, hstep⟩))
    exact ⟨after, (append_cons before e after).symm⟩
  · rintro h before s' ⟨after, rfl⟩ hbefore
    exact run_induction_of_meets start
      (fun events e s s' hrun hC hP hstep => (step s e s' ⟨events, hrun⟩ hP hstep).mpr hC)
      hbefore h.of_append

/-- **Two conditions** agree along a run if they agree where the first one has been met. -/
theorem meets_congr {C D : σ → ι → Prop} {P : σ → Prop} (start : P S.start)
    (keep : ∀ s e s', P s → C s e → S.step s e = some s' → P s')
    (congr : ∀ s e s', P s → S.step s e = some s' → (C s e ↔ D s e))
    {events : List ι} {s : σ} (hrun : S.run events = some s) :
    S.Meets C events ↔ S.Meets D events := by
  induction events using reverseRecOn generalizing s with
  | nil =>
    refine iff_of_true ?_ ?_ <;>
    · intro before e after s hsplit
      exact absurd hsplit.symm (append_ne_nil_of_right_ne_nil _ (cons_ne_nil _ _))
  | append_singleton events e ih =>
    obtain ⟨s₀, hrun₀, hstep⟩ := run_concat_eq_some.mp hrun
    rw [meets_concat_iff hrun₀, meets_concat_iff hrun₀, ← ih hrun₀]
    refine and_congr_right fun hmeets => congr s₀ e s ?_ hstep
    exact run_induction_of_meets start
      (fun events e s s' _ hC hP hstep => keep s e s' hP hC hstep) hrun₀ hmeets

variable (S) in
/-- `Meets`, computed along a run from a given state. -/
def MeetsFrom (C : σ → ι → Prop) : σ → List ι → Prop
  | _, [] => True
  | s, e :: events =>
    C s e ∧
      match S.step s e with
      | none => True
      | some s' => MeetsFrom C s' events

instance decidableMeetsFrom (C : σ → ι → Prop) [∀ s e, Decidable (C s e)] :
    ∀ s events, Decidable (S.MeetsFrom C s events)
  | _, [] => inferInstanceAs (Decidable True)
  | s, e :: events =>
    match h : S.step s e with
    | none => decidable_of_iff (C s e) (by simp only [MeetsFrom, h, and_true])
    | some s' =>
      have := decidableMeetsFrom C s' events
      decidable_of_iff (C s e ∧ S.MeetsFrom C s' events) (by simp only [MeetsFrom, h])

theorem MeetsFrom.split {C : σ → ι → Prop} {s : σ} {before after : List ι} {e : ι}
    (h : S.MeetsFrom C s (before ++ e :: after)) {s' : σ}
    (hrun : S.runFrom s before = some s') : C s' e := by
  induction before generalizing s with
  | nil =>
    obtain rfl := some.inj hrun
    exact h.1
  | cons e₀ before ih =>
    obtain ⟨s₁, hstep, hrest⟩ := bind_eq_some_iff.mp hrun
    have hmeets := h.2
    rw [hstep] at hmeets
    exact ih hmeets hrest

theorem meets_of_meetsFrom {C : σ → ι → Prop} {events : List ι}
    (h : S.MeetsFrom C S.start events) : S.Meets C events := by
  intro before e after s hsplit hrun
  rw [hsplit] at h
  exact h.split hrun

/-- **Invariants of reachable states.** -/
theorem reachable_induction {P : σ → Prop} (start : P S.start)
    (step : ∀ s e s', S.Reachable s → P s → S.step s e = some s' → P s')
    {s : σ} (h : S.Reachable s) : P s := by
  obtain ⟨events, hrun⟩ := h
  exact run_induction start
    (fun events e s s' hrun hs hstep => step s e s' ⟨events, hrun⟩ hs hstep) hrun

theorem Reachable.step {s s' : σ} {e : ι} (h : S.Reachable s) (hstep : S.step s e = some s') :
    S.Reachable s' := by
  obtain ⟨events, hrun⟩ := h
  exact ⟨events ++ [e], run_concat_eq_some.mpr ⟨s, hrun, hstep⟩⟩

/-- What every step keeps is kept from any state on. -/
theorem runFrom_induction {P : σ → Prop} (step : ∀ s e s', P s → S.step s e = some s' → P s')
    {s s' : σ} {events : List ι} (hs : P s) (hrun : S.runFrom s events = some s') : P s' := by
  induction events generalizing s with
  | nil =>
    obtain rfl := some.inj hrun
    exact hs
  | cons e events ih =>
    obtain ⟨s₁, hstep, hrest⟩ := bind_eq_some_iff.mp hrun
    exact ih (step s e s₁ hs hstep) hrest

theorem Reachable.runFrom {s s' : σ} {events : List ι} (h : S.Reachable s)
    (hrun : S.runFrom s events = some s') : S.Reachable s' :=
  runFrom_induction (fun _ _ _ hs hstep => Reachable.step hs hstep) h hrun

/-! ## Termination -/

variable (S) in
/-- Nothing is enabled. -/
def Stuck (s : σ) : Prop := ∀ e, S.step s e = none

/-- **A goal is reached** if from every other state some events lower a measure. -/
theorem exists_reaching {μ : σ → ℕ} {C : ι → Prop} {Q : σ → Prop}
    (go : ∀ s, ¬ Q s → ∃ events s', (∀ e ∈ events, C e) ∧ S.runFrom s events = some s' ∧ μ s' < μ s)
    (s : σ) : ∃ events s', (∀ e ∈ events, C e) ∧ S.runFrom s events = some s' ∧ Q s' := by
  induction hμ : μ s using Nat.strongRecOn generalizing s with
  | _ n ih =>
    subst hμ
    by_cases hQ : Q s
    · exact ⟨[], s, fun e he => absurd he not_mem_nil, rfl, hQ⟩
    · obtain ⟨first, s₁, hfirst, hrun₁, hlower⟩ := go s hQ
      obtain ⟨second, s₂, hsecond, hrun₂, hQ₂⟩ := ih (μ s₁) hlower s₁ rfl
      refine ⟨first ++ second, s₂, fun e he => ?_, ?_, hQ₂⟩
      · exact (mem_append.mp he).elim (hfirst e) (hsecond e)
      · rw [runFrom_append, hrun₁]
        exact hrun₂

section Measure

variable {μ : σ → ℕ} (decreases : ∀ s e s', S.step s e = some s' → μ s' < μ s)
include decreases

theorem length_add_le {s s' : σ} {events : List ι} (hrun : S.runFrom s events = some s') :
    events.length + μ s' ≤ μ s := by
  induction events generalizing s with
  | nil =>
    obtain rfl := some.inj hrun
    exact Nat.le_of_eq (Nat.zero_add _)
  | cons e events ih =>
    obtain ⟨s₁, hstep, hrest⟩ := bind_eq_some_iff.mp hrun
    have hlower := decreases s e s₁ hstep
    have hlength := ih hrest
    rw [length_cons]
    omega

theorem exists_stuck (s : σ) : ∃ events s', S.runFrom s events = some s' ∧ S.Stuck s' := by
  have hgo (s : σ) (hgo : ¬ S.Stuck s) : ∃ events s', (∀ e ∈ events, True) ∧
      S.runFrom s events = some s' ∧ μ s' < μ s := by
    obtain ⟨e, he⟩ := not_forall.mp hgo
    obtain ⟨s₁, hstep⟩ := ne_none_iff_exists'.mp he
    refine ⟨[e], s₁, fun _ _ => trivial, ?_, decreases s e s₁ hstep⟩
    rw [runFrom_cons, hstep]
    rfl
  obtain ⟨events, s', -, hrun, hstuck⟩ := exists_reaching hgo s
  exact ⟨events, s', hrun, hstuck⟩

end Measure

end System

end Transition
