import Mathlib.Algebra.BigOperators.Group.Multiset.Basic
import Mathlib.Tactic.Abel
import Pitaya.Foundations.Transition

/-!
# Interleaved threads over a shared state

A `Program` is a shared state, a set of program points and a step function for one
thread at one point; a `choice` resolves what the step leaves open.  Any number of
threads run at once, in any interleaving, and new ones may start at the entry
points at any time.  Threads have no names: a configuration holds the multiset of
the points they are at.

* `config_induction` — invariants of configurations, one obligation for a new
  thread and one for a step of a thread among the others;
  `config_induction_of_meets` is the same over the interleavings that meet a
  condition.
* `thread_invariant` — invariants of the form "every thread, at its point, agrees
  with the shared state", with an obligation for the stepping thread and one for
  the bystanders.  `history_invariant` is the same for what speaks of the events so far.
* `balanced` — conservation: when every step moves as much between two shared
  quantities as the stepping thread gains or loses, the first quantity is always
  the second one plus what all threads hold.  `covered` is the inequality: threads may
  drop what they hold.
* `Still` — no thread can take a step; `runs_add_le` — if steps lower what the state and the
  threads weigh, runs are bounded.
* `Mutex` — a lock that is taken on the way in and given back on the way out; one thread
  at most is inside.  `Mutex.owns` is the rule for what the lock protects.
-/

universe u v w x

namespace Threads

open Transition Option List Nat System Bool

/-- Shared state, program points, and the step of one thread. -/
structure Program (σ : Type u) (π : Type v) (χ : Type w) where
  start : σ
  main : Multiset π
  entry : π → Bool
  step : σ → π → χ → Option (σ × Option π)

/-- The shared state and the points of all threads. -/
structure Config (σ : Type u) (π : Type v) where
  shared : σ
  threads : Multiset π

/-- A new thread, or a step of a thread. -/
inductive Event (π : Type v) (χ : Type w) where
  | call (p : π)
  | run (p : π) (choice : χ)

variable {π : Type v}

/-- A thread takes a step. -/
def Event.runs {χ : Type w} : Event π χ → Bool
  | .call _ => false
  | .run _ _ => true

/-- The events of a run, oldest first. -/
abbrev Run (π : Type v) (χ : Type w) := List (Event π χ)

/-- Threads take a step each, one after the other. -/
def steps {χ : Type w} (choice : χ) (points : List π) : Run π χ :=
  points.map (.run · choice)

/-- Put a thread back, unless it has ended. -/
def rejoin : Option π → Multiset π → Multiset π
  | none, rest => rest
  | some p, rest => p ::ₘ rest

@[simp] theorem mem_rejoin {p : Option π} {rest : Multiset π} {q : π} :
    q ∈ rejoin p rest ↔ p = some q ∨ q ∈ rest := by
  cases p with
  | none => simp [rejoin]
  | some => simp [rejoin, eq_comm]

theorem rejoin_add (p : Option π) (rest : Multiset π) : rejoin p rest = rejoin p 0 + rest := by
  cases p with
  | none => exact (zero_add rest).symm
  | some p => exact (Multiset.singleton_add p rest).symm

theorem countP_rejoin_le {test : π → Prop} [DecidablePred test] {p : π} {p' : Option π}
    (rest : Multiset π) (h : ∀ q, p' = some q → test q → test p) :
    (rejoin p' rest).countP test ≤ (p ::ₘ rest).countP test := by
  cases p' with
  | none => exact Multiset.countP_le_of_le test (Multiset.le_cons_self rest p)
  | some q =>
    dsimp only [rejoin]
    rw [Multiset.countP_cons, Multiset.countP_cons]
    split_ifs with hq hp
    · exact le_rfl
    · exact absurd (h q rfl hq) hp
    · exact le_add_right _ _
    · exact le_rfl

theorem filterMap_cons {ρ : Type x} (f : π → Option ρ) (p : π)
    (rest : Multiset π) : (p ::ₘ rest).filterMap f = rejoin (f p) (rest.filterMap f) := by
  cases hf : f p with
  | none => exact Multiset.filterMap_cons_none p rest hf
  | some => exact Multiset.filterMap_cons_some f p rest hf

theorem filterMap_rejoin {ρ : Type x} (f : π → Option ρ) (p : Option π)
    (rest : Multiset π) : (rejoin p rest).filterMap f = rejoin (p.bind f) (rest.filterMap f) := by
  cases p with
  | none => rfl
  | some p => exact filterMap_cons f p rest

namespace Program

variable {σ : Type u} {π : Type v} {χ : Type w} [DecidableEq π] (P : Program σ π χ)

/-- The interleavings of a program. -/
def system : System (Config σ π) (Event π χ) where
  start := ⟨P.start, P.main⟩
  step c e :=
    match e with
    | .call p => if P.entry p then some { c with threads := p ::ₘ c.threads } else none
    | .run p choice =>
      if p ∈ c.threads then
        (P.step c.shared p choice).map fun r => ⟨r.1, rejoin r.2 (c.threads.erase p)⟩
      else none

/-- The configurations some interleaving reaches. -/
def Reachable (c : Config σ π) : Prop := P.system.Reachable c

variable {P}

variable {c : Config σ π}

/-- What an event does: a thread starts, or one among the others takes a step. -/
theorem system_step {c' : Config σ π} {e : Event π χ} (h : P.system.step c e = some c') :
    (∃ p, e = .call p ∧ P.entry p = true ∧ c' = ⟨c.shared, p ::ₘ c.threads⟩) ∨
      ∃ p rest choice s' p', e = .run p choice ∧ c = ⟨c.shared, p ::ₘ rest⟩ ∧
        P.step c.shared p choice = some (s', p') ∧ c' = ⟨s', rejoin p' rest⟩ := by
  obtain ⟨s, threads⟩ := c
  cases e with
  | call p =>
    obtain ⟨hentry, h⟩ := ite_none_right_eq_some.mp h
    exact .inl ⟨p, rfl, hentry, (some.inj h).symm⟩
  | run p choice =>
    obtain ⟨hmem, h⟩ := ite_none_right_eq_some.mp h
    obtain ⟨rest, rfl⟩ := Multiset.exists_cons_of_mem hmem
    obtain ⟨⟨s', p'⟩, hrun, rfl⟩ := map_eq_some_iff.mp h
    refine .inr ⟨p, rest, choice, s', p', rfl, rfl, hrun, ?_⟩
    dsimp only
    rw [Multiset.erase_cons_head]

variable {p : π} {choice : χ}

theorem mem_threads_of_run {before after : Run π χ} {c₀ : Config σ π}
    (hrun : P.system.run (before ++ .run p choice :: after) = some c)
    (hbefore : P.system.run before = some c₀) : p ∈ c₀.threads := by
  obtain ⟨c₁, hstep⟩ := step_of_run_split hrun hbefore
  exact (ite_none_right_eq_some.mp hstep).1

theorem Reachable.call {s : σ} {threads : Multiset π} (h : P.Reachable ⟨s, threads⟩)
    (hentry : P.entry p = true) : P.Reachable ⟨s, p ::ₘ threads⟩ :=
  System.Reachable.step (e := .call p) h (if_pos hentry)

variable {p' : Option π}

/-- A thread among the others takes a step. -/
theorem system_run {s s' : σ} {rest : Multiset π} (hstep : P.step s p choice = some (s', p')) :
    P.system.step ⟨s, p ::ₘ rest⟩ (.run p choice) = some ⟨s', rejoin p' rest⟩ := by
  dsimp only [system]
  rw [if_pos (Multiset.mem_cons_self p rest), hstep, Multiset.erase_cons_head]
  rfl

theorem Reachable.run {s s' : σ} {rest : Multiset π} (h : P.Reachable ⟨s, p ::ₘ rest⟩)
    (hstep : P.step s p choice = some (s', p')) : P.Reachable ⟨s', rejoin p' rest⟩ :=
  System.Reachable.step h (system_run hstep)

variable {events : Run π χ}

/-- **Induction over the interleavings that meet a condition.** -/
theorem config_induction_of_meets {C : Config σ π → Event π χ → Prop} {I : Config σ π → Prop}
    (start : I ⟨P.start, P.main⟩)
    (call : ∀ s threads p, P.Reachable ⟨s, threads⟩ → C ⟨s, threads⟩ (.call p) →
      I ⟨s, threads⟩ → P.entry p = true → I ⟨s, p ::ₘ threads⟩)
    (run : ∀ s p rest choice s' p', P.Reachable ⟨s, p ::ₘ rest⟩ →
      C ⟨s, p ::ₘ rest⟩ (.run p choice) → I ⟨s, p ::ₘ rest⟩ →
      P.step s p choice = some (s', p') → I ⟨s', rejoin p' rest⟩)
    (hrun : P.system.run events = some c) (hmeets : P.system.Meets C events) : I c := by
  apply run_induction_of_meets start ?_ hrun hmeets
  rintro before e ⟨s, threads⟩ c' hbefore hC hI hstep
  have hreach : P.Reachable ⟨s, threads⟩ := ⟨before, hbefore⟩
  rcases system_step hstep with ⟨p, rfl, hentry, rfl⟩ | ⟨p, rest, choice, s', p', rfl, hc, hp, rfl⟩
  · exact call s threads p hreach hC hI hentry
  · obtain rfl : threads = p ::ₘ rest := congrArg Config.threads hc
    exact run s p rest choice s' p' hreach hC hI hp

/-- **Induction over interleavings.** -/
theorem config_induction {I : Config σ π → Prop} (start : I ⟨P.start, P.main⟩)
    (call : ∀ s threads p, P.Reachable ⟨s, threads⟩ → I ⟨s, threads⟩ → P.entry p = true →
      I ⟨s, p ::ₘ threads⟩)
    (run : ∀ s p rest choice s' p', P.Reachable ⟨s, p ::ₘ rest⟩ → I ⟨s, p ::ₘ rest⟩ →
      P.step s p choice = some (s', p') → I ⟨s', rejoin p' rest⟩) (h : P.Reachable c) : I c := by
  obtain ⟨events, hrun⟩ := h
  exact config_induction_of_meets (C := fun _ _ => True) start
    (fun s threads p hreach _ => call s threads p hreach)
    (fun s p rest choice s' p' hreach _ => run s p rest choice s' p' hreach) hrun
    (fun _ _ _ _ _ _ => trivial)

/-- What every step keeps of the shared state is kept from any configuration on. -/
theorem shared_runFrom {J : σ → Prop}
    (step : ∀ s p choice s' p', J s → P.step s p choice = some (s', p') → J s') {c' : Config σ π}
    (h : J c.shared) (hrun : P.system.runFrom c events = some c') : J c'.shared := by
  refine runFrom_induction (P := fun c => J c.shared) (fun c e c' hJ hstep => ?_) h hrun
  rcases system_step hstep with ⟨p, -, -, rfl⟩ | ⟨p, rest, choice, s', p', -, -, hp, rfl⟩
  · exact hJ
  · exact step _ _ _ _ _ hJ hp

/-- **Invariants of the shared state.** -/
theorem shared_invariant {J : σ → Prop} (start : J P.start)
    (step : ∀ s p choice s' p', J s → P.step s p choice = some (s', p') → J s')
    (h : P.Reachable c) : J c.shared := by
  obtain ⟨events, hrun⟩ := h
  exact shared_runFrom step start hrun

/-- **Invariants of every thread**: the stepping thread establishes the invariant
at its next point, and the bystanders keep theirs. -/
theorem thread_invariant {J : σ → π → Prop} (start : ∀ p ∈ P.main, J P.start p)
    (call : ∀ s threads p, P.Reachable ⟨s, threads⟩ → P.entry p = true → J s p)
    (self : ∀ s p rest choice s' p', P.Reachable ⟨s, p ::ₘ rest⟩ → J s p →
      P.step s p choice = some (s', some p') → J s' p')
    (others : ∀ s p rest choice s' p' q, P.Reachable ⟨s, p ::ₘ rest⟩ → q ∈ rest → J s p →
      J s q → P.step s p choice = some (s', p') → J s' q) (h : P.Reachable c) :
    ∀ p ∈ c.threads, J c.shared p := by
  apply config_induction start ?_ ?_ h
  · intro s threads p hreach hJ hentry q hq
    rcases Multiset.mem_cons.mp hq with rfl | hq
    · exact call s threads q hreach hentry
    · exact hJ q hq
  · intro s p rest choice s' p' hreach hJ hstep q hq
    have hp := hJ p (Multiset.mem_cons_self p rest)
    rcases mem_rejoin.mp hq with rfl | hq
    · exact self s p rest choice s' q hreach hp hstep
    · exact others s p rest choice s' p' q hreach hq hp (hJ q (Multiset.mem_cons_of_mem hq)) hstep

/-- **What is owed (`O`) is done (`D`), or a thread is at work on it (`W`)**: what was owed before
stays done, or the thread at work on it does it or goes on, and what is newly owed is done or
worked on at once. -/
theorem attended {O D : σ → Prop} {W : π → Prop} (start : O P.start → D P.start ∨ ∃ p ∈ P.main, W p)
    (step : ∀ s p rest choice s' p', P.Reachable ⟨s, p ::ₘ rest⟩ →
      P.step s p choice = some (s', p') → O s' →
      O s ∧ (D s → D s') ∧ (W p → D s' ∨ ∃ q, p' = some q ∧ W q) ∨
        D s' ∨ ∃ q ∈ rejoin p' rest, W q)
    (h : P.Reachable c) : O c.shared → D c.shared ∨ ∃ p ∈ c.threads, W p := by
  apply config_induction start ?_ ?_ h
  · intro s threads p _ hI _ howed
    refine (hI howed).imp_right ?_
    rintro ⟨q, hq, hworks⟩
    exact ⟨q, Multiset.mem_cons_of_mem hq, hworks⟩
  · intro s p rest choice s' p' hreach hI hstep howed
    rcases step s p rest choice s' p' hreach hstep howed with ⟨hbefore, hdone, hgoes⟩ | hnew
    · rcases hI hbefore with hdone' | ⟨q, hq, hworks⟩
      · exact .inl (hdone hdone')
      · rcases Multiset.mem_cons.mp hq with rfl | hq
        · refine (hgoes hworks).imp_right ?_
          rintro ⟨q', hq', hworks⟩
          exact ⟨q', mem_rejoin.mpr (.inl hq'), hworks⟩
        · exact .inr ⟨q, mem_rejoin.mpr (.inr hq), hworks⟩
    · exact hnew

/-- **Invariants of every thread that speak of the events so far**: they are kept when more
happens, and the stepping thread establishes its own. -/
theorem history_invariant {J : Run π χ → π → Prop} (start : ∀ p ∈ P.main, J [] p)
    (call : ∀ events p, P.entry p = true → J events p)
    (more : ∀ events e p, J events p → J (events ++ [e]) p)
    (step : ∀ events s p rest choice s' p', P.system.run events = some ⟨s, p ::ₘ rest⟩ →
      J events p → P.step s p choice = some (s', some p') → J (events ++ [.run p choice]) p')
    (hrun : P.system.run events = some c) : ∀ p ∈ c.threads, J events p := by
  apply run_induction start ?_ hrun
  rintro events e ⟨s, threads⟩ c' hbefore hJ hstep q hq
  rcases system_step hstep with ⟨p, rfl, hentry, rfl⟩ | ⟨p, rest, choice, s', p', rfl, hc, hp, rfl⟩
  · rcases Multiset.mem_cons.mp hq with rfl | hq
    · exact call _ q hentry
    · exact more events _ q (hJ q hq)
  · obtain rfl : threads = p ::ₘ rest := congrArg Config.threads hc
    rcases mem_rejoin.mp hq with rfl | hq
    · exact step events s p rest choice s' q hbefore (hJ p (Multiset.mem_cons_self p rest)) hp
    · exact more events _ q (hJ q (Multiset.mem_cons_of_mem hq))

/-! ## Conservation -/

section Balance

variable {M : Type x} [AddCancelCommMonoid M]

/-- What all threads hold together. -/
def total (held : π → M) (threads : Multiset π) : M := (threads.map held).sum

omit [DecidableEq π] in
@[simp] theorem total_cons (held : π → M) (p : π) (rest : Multiset π) :
    total held (p ::ₘ rest) = held p + total held rest := by
  rw [total, Multiset.map_cons, Multiset.sum_cons]
  rfl

omit [DecidableEq π] in
theorem total_rejoin (held : π → M) (p : Option π) (rest : Multiset π) :
    total held (rejoin p rest) = p.elim 0 held + total held rest := by
  cases p with
  | none => exact (zero_add _).symm
  | some p => exact total_cons held p rest

omit [DecidableEq π] in
theorem total_eq_zero {held : π → M} {threads : Multiset π} (h : ∀ p ∈ threads, held p = 0) :
    total held threads = 0 := by
  refine Multiset.sum_eq_zero fun x hx => ?_
  obtain ⟨p, hp, rfl⟩ := Multiset.mem_map.mp hx
  exact h p hp

omit [DecidableEq π] in
/-- The threads for which a test is true. -/
theorem total_toNat (test : π → Bool) (threads : Multiset π) :
    total (fun p => (test p).toNat) threads = threads.countP fun p => test p = true := by
  induction threads using Multiset.induction with
  | empty => rfl
  | cons p rest ih =>
    rw [total_cons, Multiset.countP_cons, ih, add_comm]
    cases test p <;> rfl

omit [DecidableEq π] in
/-- If every thread that a partial map picks weighs something, what it picks is bounded by what
all threads weigh. -/
theorem card_filterMap_le_total {ρ : Type*} {f : π → Option ρ} {held : π → ℕ}
    (h : ∀ p q, f p = some q → 1 ≤ held p) (threads : Multiset π) :
    (threads.filterMap f).card ≤ total held threads := by
  induction threads using Multiset.induction with
  | empty => exact le_rfl
  | cons p rest ih =>
    rw [filterMap_cons, total_cons]
    cases hf : f p with
    | none => exact ih.trans (le_add_left _ _)
    | some q =>
      have hp := h p q hf
      dsimp only [rejoin]
      rw [Multiset.card_cons]
      omega

/-- **Conservation.** -/
theorem balanced (big small : σ → M) (held : π → M)
    (start : big P.start = small P.start + total held P.main)
    (call : ∀ p, P.entry p = true → held p = 0)
    (step : ∀ s p rest choice s' p', P.Reachable ⟨s, p ::ₘ rest⟩ →
      big s = small s + (held p + total held rest) → P.step s p choice = some (s', p') →
      big s' + (small s + held p) = big s + (small s' + p'.elim 0 held)) (h : P.Reachable c) :
    big c.shared = small c.shared + total held c.threads := by
  apply config_induction
    start ?_ ?_ h
  · intro s threads p _ hbal hentry
    rw [total_cons, call p hentry, zero_add]
    exact hbal
  · intro s p rest choice s' p' hreach hbal hstep
    rw [total_cons] at hbal
    have hmove := step s p rest choice s' p' hreach hbal hstep
    rw [total_rejoin]
    -- cancel what was shared and held before the step
    refine add_right_cancel (b := small s + held p) ?_
    rw [hmove, hbal]
    abel

/-- What is spent and what the threads hold is covered by what was given out. -/
theorem covered (given spent : σ → ℕ) (held : π → ℕ)
    (start : spent P.start + total held P.main ≤ given P.start)
    (call : ∀ p, P.entry p = true → held p = 0)
    (step : ∀ s p choice s' p', P.step s p choice = some (s', p') →
      spent s' + p'.elim 0 held + given s ≤ given s' + (spent s + held p)) (h : P.Reachable c) :
    spent c.shared + total held c.threads ≤ given c.shared := by
  apply config_induction start ?_ ?_ h
  · intro s threads p _ hle hentry
    rw [total_cons, call p hentry, zero_add]
    exact hle
  · intro s p rest choice s' p' _ hle hstep
    have hmove := step s p choice s' p' hstep
    dsimp only at hle ⊢
    rw [total_cons] at hle
    rw [total_rejoin]
    omega

end Balance

/-! ## Termination -/

variable (P) in
/-- No thread can take a step. -/
def Still (c : Config σ π) : Prop := ∀ p choice, P.system.step c (.run p choice) = none

theorem Still.step (h : P.Still c) (hp : p ∈ c.threads) (choice : χ) :
    P.step c.shared p choice = none := by
  have hstill := h p choice
  dsimp only [system] at hstill
  rw [if_pos hp] at hstill
  exact map_eq_none_iff.mp hstill

section Weight

variable {weight : σ → ℕ} {held : π → ℕ}
  (lowers : ∀ s p choice s' p', P.step s p choice = some (s', p') →
    weight s' + p'.elim 0 held < weight s + held p)
include lowers

omit [DecidableEq π] in
theorem weight_run {s s' : σ} (rest : Multiset π) (hstep : P.step s p choice = some (s', p')) :
    weight s' + total held (rejoin p' rest) < weight s + total held (p ::ₘ rest) := by
  have hlower := lowers s p choice s' p' hstep
  rw [total_rejoin, total_cons]
  omega

/-- If steps lower what the state and the threads weigh, **a run takes a bounded number of steps**
as long as the threads that start weigh nothing. -/
theorem runs_add_le {c' : Config σ π} (hcalls : ∀ p, .call p ∈ events → held p = 0)
    (hrun : P.system.runFrom c events = some c') :
    events.countP Event.runs + (weight c'.shared + total held c'.threads) ≤
      weight c.shared + total held c.threads := by
  induction events generalizing c with
  | nil =>
    obtain rfl := some.inj hrun
    rw [countP_nil, zero_add]
  | cons e events ih =>
    obtain ⟨c₁, hstep, hrest⟩ := bind_eq_some_iff.mp hrun
    have hbound := ih (fun p hp => hcalls p (mem_cons_of_mem _ hp)) hrest
    rcases system_step hstep with
      ⟨p, rfl, -, rfl⟩ | ⟨p, rest, choice, s', p', rfl, hc, hp, rfl⟩
    · have hnone := hcalls p mem_cons_self
      rw [total_cons, hnone, zero_add] at hbound
      exact hbound
    · have hlower := weight_run lowers rest hp
      rw [hc, countP_cons_of_pos (by simp [Event.runs])]
      dsimp only at hbound ⊢
      omega

end Weight

/-! ## Locks -/

/-- The threads inside hold the lock: who goes in finds it free, and who goes out frees it. -/
structure Mutex (P : Program σ π χ) (locked : σ → Bool) (inside : π → Bool) : Prop where
  start : locked P.start = false
  main : ∀ p ∈ P.main, inside p = false
  call : ∀ p, P.entry p = true → inside p = false
  step : ∀ s p choice s' p', P.step s p choice = some (s', p') →
    (inside p = true → locked s = true) →
    (locked s').toNat + (inside p).toNat = (locked s).toNat + p'.elim 0 fun q => (inside q).toNat

namespace Mutex

variable {locked : σ → Bool} {inside : π → Bool} {s : σ} {p q : π} {rest : Multiset π}

theorem locked_eq (M : P.Mutex locked inside) (h : P.Reachable c) :
    (locked c.shared).toNat = total (fun p => (inside p).toNat) c.threads := by
  have hbal := balanced (fun s => (locked s).toNat) (fun _ => 0) (fun p => (inside p).toNat)
    ?_ ?_ ?_ h
  · rw [hbal, zero_add]
  · rw [M.start, total_eq_zero fun p hp => by rw [M.main p hp]; rfl]
    rfl
  · intro p hentry
    rw [M.call p hentry]
    rfl
  · intro s p rest choice s' p' _ hheld hstep
    rw [zero_add, zero_add]
    refine M.step s p choice s' p' hstep fun hp => ?_
    rw [hp] at hheld
    have hpos : (1 : ℕ) ≤ (locked s).toNat := by
      rw [hheld, zero_add]
      exact le_add_right 1 _
    cases hlocked : locked s with
    | true => rfl
    | false =>
      rw [hlocked] at hpos
      cases hpos

/-- The lock is taken while a thread is inside. -/
theorem taken (M : P.Mutex locked inside) (h : P.Reachable c) (hp : p ∈ c.threads)
    (hinside : inside p = true) : locked c.shared = true := by
  have hheld := M.locked_eq h
  obtain ⟨others, hothers⟩ := Multiset.exists_cons_of_mem hp
  rw [hothers, total_cons, hinside] at hheld
  cases hlocked : locked c.shared with
  | true => rfl
  | false =>
    rw [hlocked] at hheld
    have hsum : (0 : ℕ) = 1 + _ := hheld
    omega

/-- **While a thread is inside no other one is.** -/
theorem alone (M : P.Mutex locked inside) (h : P.Reachable ⟨s, p ::ₘ rest⟩)
    (hp : inside p = true) (hq : q ∈ rest) : inside q = false := by
  have hheld := M.locked_eq h
  obtain ⟨others, rfl⟩ := Multiset.exists_cons_of_mem hq
  rw [total_cons, total_cons, hp] at hheld
  have hle := toNat_le (locked s)
  cases hinside : inside q with
  | false => rfl
  | true =>
    rw [hinside] at hheld
    simp only [toNat_true] at hheld
    omega

/-- While the lock is taken a thread is inside. -/
theorem exists_inside (M : P.Mutex locked inside) (h : P.Reachable c)
    (hlocked : locked c.shared = true) : ∃ p ∈ c.threads, inside p = true := by
  have hheld := M.locked_eq h
  rw [hlocked, total_toNat] at hheld
  exact Multiset.countP_pos.mp (hheld ▸ one_pos)

/-- While the lock is free nobody is inside. -/
theorem outside (M : P.Mutex locked inside) (h : P.Reachable c) (hfree : locked c.shared = false)
    (hp : p ∈ c.threads) : inside p = false := by
  cases hinside : inside p with
  | false => rfl
  | true => cases hfree.symm.trans (M.taken h hp hinside)

omit [DecidableEq π] in
/-- A step outside leaves the lock as it is. -/
theorem locked_of_outside (M : P.Mutex locked inside) {s' : σ}
    (hstep : P.step s p choice = some (s', p')) (hp : inside p = false)
    (hnext : ∀ q, p' = some q → inside q = false) : locked s' = locked s := by
  have hlocked := M.step s p choice s' p' hstep fun h => by cases hp.symm.trans h
  have hnone : (p'.elim 0 fun q => (inside q).toNat) = 0 := by
    cases p' with
    | none => rfl
    | some q => rw [elim_some, hnext q rfl, toNat_false]
  rw [hp, hnone] at hlocked
  revert hlocked
  cases locked s <;> cases locked s' <;> simp

omit [DecidableEq π] in
/-- Who goes in found the lock free. -/
theorem free_of_enter (M : P.Mutex locked inside) {s' : σ}
    (hstep : P.step s p choice = some (s', some q)) (hp : inside p = false) (hq : inside q = true) :
    locked s = false := by
  have hlocked := M.step s p choice s' (some q) hstep fun h => by cases hp.symm.trans h
  rw [hp, elim_some, hq] at hlocked
  cases htaken : locked s with
  | false => rfl
  | true =>
    rw [htaken] at hlocked
    have hle : (locked s').toNat ≤ 1 := toNat_le _
    simp only [toNat_true, toNat_false] at hlocked
    omega

/-- **A lock owns what it protects**: `Free` holds while nobody has the lock, who takes it gets
`At` of its point, and who gives it back leaves `Free`.  The others keep both. -/
theorem owns (M : P.Mutex locked inside) {Free : σ → Prop} {At : σ → π → Prop}
    (start : Free P.start)
    (enter : ∀ s p choice s' q, P.step s p choice = some (s', some q) → inside p = false →
      inside q = true → Free s → At s' q)
    (stay : ∀ s p choice s' q, P.step s p choice = some (s', some q) → inside p = true →
      inside q = true → At s p → At s' q)
    (leave : ∀ s p choice s' p', P.step s p choice = some (s', p') → inside p = true →
      (∀ q, p' = some q → inside q = false) → At s p → Free s')
    (others : ∀ s p choice s' p', P.step s p choice = some (s', p') → inside p = false →
      (∀ q, p' = some q → inside q = false) →
      (Free s → Free s') ∧ ∀ q, inside q = true → At s q → At s' q) (h : P.Reachable c) :
    (locked c.shared = false → Free c.shared) ∧
      ∀ p ∈ c.threads, inside p = true → At c.shared p := by
  apply config_induction ?_ ?_ ?_ h
  · refine ⟨fun _ => start, fun p hp hinside => ?_⟩
    cases (M.main p hp).symm.trans hinside
  · rintro s threads p _ ⟨hfree, hat⟩ hentry
    refine ⟨hfree, fun q hq hinside => ?_⟩
    rcases Multiset.mem_cons.mp hq with rfl | hq
    · cases (M.call q hentry).symm.trans hinside
    · exact hat q hq hinside
  · rintro s p rest choice s' p' hreach ⟨hfree, hat⟩ hstep
    have hreach' : P.Reachable ⟨s', rejoin p' rest⟩ := hreach.run hstep
    have hout (q : π) (hlocked : locked s' = false) (hq : p' = some q) : inside q = false :=
      M.outside hreach' hlocked (mem_rejoin.mpr (.inl hq))
    cases hp : inside p with
    | true =>
      have hself := hat p (Multiset.mem_cons_self p rest) hp
      refine ⟨fun hlocked => leave s p choice s' p' hstep hp (fun q => hout q hlocked) hself, ?_⟩
      intro q hq hinside
      rcases mem_rejoin.mp hq with rfl | hq
      · exact stay s p choice s' q hstep hp hinside hself
      · cases (M.alone hreach hp hq).symm.trans hinside
    | false =>
      by_cases hnext : ∀ q, p' = some q → inside q = false
      · obtain ⟨hfree', hat'⟩ := others s p choice s' p' hstep hp hnext
        refine ⟨fun hlocked => hfree' (hfree ?_), fun q hq hinside => ?_⟩
        · exact (M.locked_of_outside hstep hp hnext).symm.trans hlocked
        · rcases mem_rejoin.mp hq with hq | hq
          · cases (hnext q hq).symm.trans hinside
          · exact hat' q hinside (hat q (Multiset.mem_cons_of_mem hq) hinside)
      · -- the thread takes the lock, which nobody held
        obtain ⟨q, rfl, hq⟩ : ∃ q, p' = some q ∧ inside q = true := by simpa using hnext
        have hunlocked := M.free_of_enter hstep hp hq
        refine ⟨fun hlocked => ?_, fun r hr hinside => ?_⟩
        · cases (M.taken hreach' (Multiset.mem_cons_self q rest) hq).symm.trans hlocked
        · rcases Multiset.mem_cons.mp hr with rfl | hr
          · exact enter s p choice s' r hstep hp hq (hfree hunlocked)
          · cases (M.outside hreach hunlocked (Multiset.mem_cons_of_mem hr)).symm.trans hinside

end Mutex

end Program

end Threads
