import Mathlib.Tactic.Ring
import Pitaya.Timer.Manager

/-!
# The schedule of a timer

A timer that was created at a time, with an interval and a counter, is executed for the `n`-th time
not before `n` intervals have passed, and not more often than the counter says.

* `Loop.Accounts` — what the elapsed time and the counter of a timer are, between executions
  (`Resting`), while its function runs (`Running`), and while its counter is decremented.

The account is settled after the function has returned.  `pexec` recovers a panic of the function,
but its log call panics again in development mode; then `Cron` is left with the account open, and
the next `Cron` executes the timer once more.
-/

namespace Pitaya.Timers

open Threads Transition List Option

/-! ## The account of a timer -/

/-- How often the timer was executed. -/
def Timer.executed (t : Timer) : ℤ := t.executions.length

/-- Between executions. -/
def Timer.Resting (t : Timer) : Prop :=
  t.elapse = (t.executed + 1) * t.interval ∧
    (0 ≤ t.count → 0 ≤ t.counter ∧ t.counter + t.executed ≤ t.count)

/-- The function runs, or has just returned: neither the elapsed time nor the counter knows. -/
def Timer.Running (t : Timer) : Prop :=
  t.elapse = t.executed * t.interval ∧
    (0 ≤ t.count → 0 ≤ t.counter ∧ t.counter + t.executed ≤ t.count + 1 ∧ t.executed ≤ t.count)

/-- The counter is being decremented; it was `counter` when it was read. -/
def Timer.Decrementing (t : Timer) (counter : ℤ) : Prop :=
  t.elapse = (t.executed + 1) * t.interval ∧
    (0 ≤ t.count → 0 < counter ∧ counter + t.executed ≤ t.count + 1 ∧ t.executed ≤ t.count)

/-- The account of a timer, depending on where the loop is. -/
def Loop.Accounts (loop : Loop) (id : ℕ) (t : Timer) : Prop :=
  match loop with
  | body _ id' conditional => if id' = id then conditional = false ∧ t.Running else t.Resting
  | update _ id' => if id' = id then t.Running else t.Resting
  | decrement _ id' => if id' = id then t.Decrementing t.counter else t.Resting
  | write _ id' counter => if id' = id then t.Decrementing counter else t.Resting
  | _ => t.Resting

/-- The call of `Cron` under way. -/
def Loop.running : Loop → Option Cron
  | select => none
  | cron k | stop k _ _ | body k _ _ | update k _ | decrement k _ | write k _ _ => some k

/-- The executions of a timer so far, and its account. -/
structure OnSchedule (s : Manager) (id : ℕ) (t : Timer) : Prop where
  plain : t.conditional = false
  numbers : ∀ e ∈ t.executions, e.1 ≤ s.crons
  distinct : (t.executions.map Prod.fst).Nodup
  /-- The call under way has not executed a timer that it has yet to visit. -/
  ahead : ∀ k, s.loop.running = some k → id ∈ k.todo → ∀ e ∈ t.executions, e.1 ≠ k.number
  times : ∀ (n : ℕ) (e : ℕ × ℤ), t.executions[n]? = some e →
    t.createAt + (n + 1) * t.interval ≤ e.2
  account : s.loop.Accounts id t

/-- The timer whose function runs. -/
def Loop.executing : Loop → Option ℕ
  | body _ id _ => some id
  | _ => none

/-- The timer whose counter was found positive and is about to be read again. -/
def Loop.decrementing : Loop → Option ℕ
  | decrement _ id => some id
  | _ => none

/-- The timer has no condition, its function does not panic in development mode, and nobody stops it
between the test of the counter and the decrement. -/
def Steady (development : Bool) (id : ℕ) (c : Config Manager Point) : Event Point Choice → Prop
  | .run .loop .panics => development = true → c.shared.loop.executing ≠ some id
  | .run (.setCondition id') _ => id' ≠ id
  | .run (.stop id' .len) _ => id' = id → c.shared.loop.decrementing ≠ some id
  | _ => True

instance (development : Bool) (id : ℕ) (c : Config Manager Point) :
    (event : Event Point Choice) → Decidable (Steady development id c event)
  | .run .loop .panics => inferInstanceAs (Decidable (_ = _ → _ ≠ _))
  | .run (.setCondition _) _ => inferInstanceAs (Decidable (_ ≠ _))
  | .run (.stop _ .len) _ => inferInstanceAs (Decidable (_ = _ → _ ≠ _))
  | .call _
  | .run .loop .go | .run .loop (.tick _ _) | .run .loop .created | .run .loop .closing
  | .run .loop (.clock _) | .run .loop (.check _)
  | .run (.newTimer _ _ _) _ | .run (.sendCreated _ _) _
  | .run (.stop _ .load) _ | .run (.stop _ .send) _ | .run (.stop _ .store) _ =>
    inferInstanceAs (Decidable True)

/-! ## What keeps the account -/

variable {t : Timer}

theorem Timer.Resting.of_counter_zero (h : t.Resting) : Timer.Resting { t with counter := 0 } := by
  refine ⟨h.1, fun hcount => ?_⟩
  have := h.2 hcount
  exact ⟨le_rfl, by dsimp only [executed] at this ⊢; omega⟩

theorem Timer.Running.of_counter_zero (h : t.Running) : Timer.Running { t with counter := 0 } := by
  refine ⟨h.1, fun hcount => ?_⟩
  have := h.2 hcount
  exact ⟨le_rfl, by dsimp only [executed] at this ⊢; omega, this.2.2⟩

theorem Timer.Resting.execute (h : t.Resting) (hcounter : t.counter ≠ 0) (e : ℕ × ℤ) :
    Timer.Running { t with executions := t.executions ++ [e] } := by
  have hexecuted : Timer.executed { t with executions := t.executions ++ [e] } =
      t.executed + 1 := by
    dsimp only [executed]
    rw [length_append, length_singleton]
    rfl
  refine ⟨?_, fun hcount => ?_⟩
  · rw [hexecuted]
    exact h.1
  · have := h.2 hcount
    dsimp only
    omega

theorem Timer.Running.update (h : t.Running) : if t.counter ≠ -1 ∧ t.counter > 0 then
      Timer.Decrementing { t with elapse := t.elapse + t.interval } t.counter
    else Timer.Resting { t with elapse := t.elapse + t.interval } := by
  have helapse : t.elapse + t.interval = (t.executed + 1) * t.interval := by
    rw [h.1]
    ring
  split
  · rename_i hpos
    exact ⟨helapse, fun hcount => ⟨hpos.2, (h.2 hcount).2⟩⟩
  · rename_i hzero
    refine ⟨helapse, fun hcount => ?_⟩
    have := h.2 hcount
    change 0 ≤ t.counter ∧ t.counter + t.executed ≤ t.count
    omega

theorem Timer.Decrementing.write {counter : ℤ} (h : t.Decrementing counter) :
    Timer.Resting { t with counter := counter - 1 } := by
  refine ⟨h.1, fun hcount => ?_⟩
  have := h.2 hcount
  change 0 ≤ counter - 1 ∧ counter - 1 + t.executed ≤ t.count
  omega

variable {loop : Loop}

theorem Loop.accounts_iff_resting {id : ℕ} (hcurrent : loop.current ≠ some id) :
    loop.Accounts id t ↔ t.Resting := by
  have hne {id' : ℕ} (h : some id' ≠ some id) : id' ≠ id := fun heq => h (congrArg some heq)
  cases loop with
  | body | update | decrement
  | write => rw [Accounts, if_neg (hne hcurrent)]
  | _ => exact Iff.rfl

/-! ## Steps -/

section Steps

variable {timerBacklog : ℕ} {development : Bool} {s s' : Manager} {id : ℕ} {t : Timer}

/-- The timer is the same up to its account. -/
structure Timer.SameHistory (t' t : Timer) : Prop where
  conditional : t'.conditional = t.conditional
  executions : t'.executions = t.executions
  createAt : t'.createAt = t.createAt
  interval : t'.interval = t.interval

theorem Timer.SameHistory.refl (t : Timer) : t.SameHistory t := ⟨rfl, rfl, rfl, rfl⟩

variable {choice : Choice}

/-- The call under way is a new one, or goes on with fewer timers to visit. -/
theorem Dispatches.running (h : Dispatches timerBacklog development s choice s') {k' : Cron}
    (hk' : s'.loop.running = some k') :
    (s'.crons = s.crons + 1 ∧ k'.number = s.crons + 1 ∧ k'.todo.Nodup) ∨
      (s'.crons = s.crons ∧
        ∃ k, s.loop.running = some k ∧ k.number = k'.number ∧ k'.todo.Sublist k.todo) := by
  have hsame {k : Cron} (hloop : s.loop.running = some k) :
      ∃ k₀, s.loop.running = some k₀ ∧ k₀.number = k.number ∧ k.todo.Sublist k₀.todo :=
    ⟨k, hloop, rfl, List.Sublist.refl _⟩
  have hless {k : Cron} {id : ℕ} {rest : List ℕ} (htodo : k.todo = id :: rest) :
      rest.Sublist k.todo := htodo ▸ sublist_cons_self id rest
  cases h with
  | tick _ hnodup =>
    cases hk'
    exact .inl ⟨rfl, rfl, hnodup⟩
  | created | closing => exact .inr ⟨rfl, hsame hk'⟩
  | done => cases hk'
  | skip hloop htodo | exhausted hloop htodo | execute hloop htodo =>
    cases hk'
    exact .inr ⟨rfl, _, congrArg Loop.running hloop, rfl, hless htodo⟩
  | finish hloop | update hloop =>
    dsimp only at hk'
    split at hk' <;> cases hk' <;> exact .inr ⟨rfl, hsame (congrArg Loop.running hloop)⟩
  | die => cases hk'
  | stop hloop | stopped hloop | decrement hloop | write hloop =>
    cases hk'
    exact .inr ⟨rfl, hsame (congrArg Loop.running hloop)⟩

theorem Dispatches.crons_le (h : Dispatches timerBacklog development s choice s') :
    s.crons ≤ s'.crons := by
  cases h with
  | tick => exact Nat.le_succ _
  | _ => exact Nat.le_refl _

variable {t' : Timer}

/-- The account is kept, and the call under way is a new one or has fewer timers to visit. -/
theorem OnSchedule.keep (h : OnSchedule s id t) (hsame : t'.SameHistory t)
    (hcrons : s.crons ≤ s'.crons)
    (hrunning : ∀ k', s'.loop.running = some k' → k'.number = s.crons + 1 ∨
      ∃ k, s.loop.running = some k ∧ k.number = k'.number ∧ k'.todo.Sublist k.todo)
    (haccount : s'.loop.Accounts id t') : OnSchedule s' id t' := by
  refine ⟨hsame.conditional.trans h.plain, ?_, ?_, ?_, ?_, haccount⟩
  · rw [hsame.executions]
    exact fun e he => (h.numbers e he).trans hcrons
  · rw [hsame.executions]
    exact h.distinct
  · intro k' hk' hid e he
    rw [hsame.executions] at he
    rcases hrunning k' hk' with hnumber | ⟨k, hk, hnumber, htodo⟩
    · rw [hnumber]
      exact Nat.ne_of_lt (Nat.lt_succ_of_le (h.numbers e he))
    · rw [← hnumber]
      exact h.ahead k hk (htodo.subset hid) e he
  · rw [hsame.executions, hsame.createAt, hsame.interval]
    exact h.times

theorem OnSchedule.next (h : OnSchedule s id t)
    (hmove : Dispatches timerBacklog development s choice s') (hsame : t'.SameHistory t)
    (haccount : s'.loop.Accounts id t') : OnSchedule s' id t' :=
  h.keep hsame hmove.crons_le (fun _ hk' => (hmove.running hk').imp (·.2.1) (·.2)) haccount

/-- The loop works on another timer, or on none, before the step and after it. -/
theorem OnSchedule.bystander (h : OnSchedule s id t)
    (hmove : Dispatches timerBacklog development s choice s') (hbefore : s.loop.current ≠ some id)
    (hafter : s'.loop.current ≠ some id) : OnSchedule s' id t := by
  have hresting := (Loop.accounts_iff_resting hbefore).mp h.account
  exact h.next hmove (.refl t) ((Loop.accounts_iff_resting hafter).mpr hresting)

variable {stage : Stage} {next : Option Stage} {heap : Finmap fun _ : ℕ => Timer} {ch : List ℕ}

/-- **`Stop`** may set the counter to zero. -/
theorem Stops.account {x : ℕ} (h : Stops timerBacklog s x stage heap ch next)
    (ht' : heap.lookup id = some t') : ∃ t, s.heap.lookup id = some t ∧ t'.SameHistory t ∧
      (t' = t ∨ t' = { t with closed := true } ∨
        (x = id ∧ stage = .len ∧ t' = { t with counter := 0 })) := by
  cases h with
  | full =>
    rcases Manager.lookup_modify_cases ht' with ⟨rfl, t, ht, rfl⟩ | ⟨-, ht⟩
    · exact ⟨t, ht, ⟨rfl, rfl, rfl, rfl⟩, .inr (.inr ⟨rfl, rfl, rfl⟩)⟩
    · exact ⟨t', ht, .refl t', .inl rfl⟩
  | store =>
    rcases Manager.lookup_modify_cases ht' with ⟨rfl, t, ht, rfl⟩ | ⟨-, ht⟩
    · exact ⟨t, ht, ⟨rfl, rfl, rfl, rfl⟩, .inr (.inl rfl)⟩
    · exact ⟨t', ht, .refl t', .inl rfl⟩
  | _ => exact ⟨t', ht', .refl t', .inl rfl⟩

/-- A call that is under way has a number that was given out, and visits every timer once. -/
def Loop.Numbered (loop : Loop) (crons : ℕ) : Prop :=
  ∀ k, loop.running = some k → k.number ≤ crons ∧ k.todo.Nodup

theorem OnSchedule.execute {k : Cron} {rest : List ℕ} (h : OnSchedule s id t)
    (hloop : s.loop = .cron k) (htodo : k.todo = id :: rest) (hnumbered : s.loop.Numbered s.crons)
    (hcounter : t.counter ≠ 0) (hdue : t.conditional = false → t.createAt + t.elapse ≤ k.now)
    (hcrons : s'.crons = s.crons)
    (hloop' : s'.loop = .body { k with todo := rest } id t.conditional) :
    OnSchedule s' id { t with executions := t.executions ++ [(k.number, k.now)] } := by
  have hrunning : s.loop.running = some k := by rw [hloop]; rfl
  have hresting : t.Resting := by
    have := h.account
    rwa [hloop] at this
  obtain ⟨hnumber, hnodup⟩ := hnumbered k hrunning
  have hmem : id ∈ k.todo := htodo ▸ mem_cons_self
  refine ⟨h.plain, ?_, ?_, ?_, ?_, ?_⟩
  · intro e he
    rw [hcrons]
    rcases mem_append.mp he with he | he
    · exact h.numbers e he
    · rw [mem_singleton.mp he]
      exact hnumber
  · dsimp only
    rw [map_append, map_singleton, ← concat_eq_append]
    refine h.distinct.concat fun hmem' => ?_
    obtain ⟨e, he, heq⟩ := mem_map.mp hmem'
    exact h.ahead k hrunning hmem e he heq
  · -- the call does not come to this timer again
    intro k' hk' hid
    rw [hloop'] at hk'
    cases hk'
    rw [htodo] at hnodup
    exact absurd hid (nodup_cons.mp hnodup).1
  · intro n e he
    rcases Nat.lt_trichotomy n t.executions.length with hlt | heq | hgt
    · rw [getElem?_append_left hlt] at he
      exact h.times n e he
    · rw [heq, getElem?_concat_length] at he
      cases he
      have hnow := hdue h.plain
      rw [hresting.1] at hnow
      rw [heq]
      exact hnow
    · rw [getElem?_eq_none (by rw [length_append, length_singleton]; omega)] at he
      cases he
  · rw [hloop', Loop.Accounts, if_pos rfl]
    exact ⟨h.plain, hresting.execute hcounter _⟩

theorem Stops.resting {x : ℕ} (h : Stops timerBacklog s x stage heap ch next)
    (hresting : ∀ t, s.heap.lookup id = some t → t.Resting) (ht' : heap.lookup id = some t') :
    t'.Resting := by
  obtain ⟨t, ht, -, hcases⟩ := h.account ht'
  have hold := hresting t ht
  rcases hcases with rfl | rfl | ⟨-, -, rfl⟩
  · exact hold
  · exact hold
  · exact hold.of_counter_zero

/-- **A step of the loop** keeps the timer on its schedule. -/
theorem Dispatches.onSchedule (hmove : Dispatches timerBacklog development s choice s')
    {threads : Multiset Point} (hsteady : Steady development id ⟨s, threads⟩ (.run .loop choice))
    (hnumbered : s.loop.Numbered s.crons) (h : ∀ t, s.heap.lookup id = some t → OnSchedule s id t)
    (ht' : s'.heap.lookup id = some t') : OnSchedule s' id t' := by
  -- the account before the step, for the place where the loop is
  have haccount {loop : Loop} (hloop : s.loop = loop) {t : Timer}
      (ht : s.heap.lookup id = some t) : loop.Accounts id t := hloop ▸ (h t ht).account
  have hnone : (none : Option ℕ) ≠ some id := (some_ne_none id).symm
  have hother {x : ℕ} (hne : id ≠ x) : some x ≠ some id := fun heq => hne (some.inj heq).symm
  have hmove' := hmove
  cases hmove with
  | tick hloop | done hloop
  | skip hloop => exact (h t' ht').bystander hmove' (hloop ▸ hnone) hnone
  | created | closing => exact (h t' ht').next hmove' (.refl t') (h t' ht').account
  | exhausted hloop => exact (h t' ht').next hmove' (.refl t') (haccount hloop ht')
  | execute hloop htodo hx hcounter hdue =>
    rename_i k x rest t
    rcases Manager.lookup_modify_cases ht' with ⟨rfl, t₀, ht₀, rfl⟩ | ⟨hne, ht⟩
    · obtain rfl := some.inj (hx.symm.trans ht₀)
      exact (h t hx).execute (k := k) hloop htodo hnumbered hcounter hdue rfl rfl
    · exact (h t' ht).bystander hmove' (hloop ▸ hnone) (hother hne)
  | stop hloop hstops | stopped hloop hstops =>
    obtain ⟨t, ht, hsame, -⟩ := hstops.account ht'
    exact (h t ht).next hmove' hsame (hstops.resting (fun _ ht => haccount hloop ht) ht')
  | finish hloop =>
    rename_i k x conditional
    by_cases heq : id = x
    · subst heq
      have hbody := haccount hloop ht'
      rw [Loop.Accounts, if_pos rfl] at hbody
      obtain ⟨rfl, hrunning⟩ := hbody
      refine (h t' ht').next hmove' (.refl t') ?_
      change (Loop.update k id).Accounts id t'
      rw [Loop.Accounts, if_pos rfl]
      exact hrunning
    · refine (h t' ht').bystander hmove' (hloop ▸ hother heq) ?_
      cases conditional with
      | true => exact hnone
      | false => exact hother heq
  | die hloop hdevelopment =>
    rename_i k x conditional
    have hne : id ≠ x := by
      rintro rfl
      exact hsteady hdevelopment (congrArg Loop.executing hloop)
    exact (h t' ht').bystander hmove' (hloop ▸ hother hne) hnone
  | update hloop hx =>
    rename_i k x t
    rcases Manager.lookup_modify_cases ht' with ⟨rfl, t₀, ht₀, rfl⟩ | ⟨hne, ht⟩
    · obtain rfl := some.inj (hx.symm.trans ht₀)
      have hrunning := haccount hloop hx
      rw [Loop.Accounts, if_pos rfl] at hrunning
      have hupdate := hrunning.update
      refine (h t hx).next hmove' ⟨rfl, rfl, rfl, rfl⟩ ?_
      split
      · rename_i hpos
        rw [if_pos hpos] at hupdate
        rw [Loop.Accounts, if_pos rfl]
        exact hupdate
      · rename_i hzero
        rw [if_neg hzero] at hupdate
        exact hupdate
    · refine (h t' ht).bystander hmove' (hloop ▸ hother hne) ?_
      split
      · exact hother hne
      · exact hnone
  | decrement hloop hx =>
    rename_i k x t
    by_cases heq : id = x
    · subst heq
      obtain rfl := some.inj (hx.symm.trans ht')
      exact (h t ht').next hmove' (.refl t) (haccount hloop ht')
    · exact (h t' ht').bystander hmove' (hloop ▸ hother heq) (hother heq)
  | write hloop =>
    rename_i k x counter
    rcases Manager.lookup_modify_cases ht' with ⟨rfl, t, ht, rfl⟩ | ⟨hne, ht⟩
    · have hdecrementing := haccount hloop ht
      rw [Loop.Accounts, if_pos rfl] at hdecrementing
      exact (h t ht).next hmove' ⟨rfl, rfl, rfl, rfl⟩ hdecrementing.write
    · exact (h t' ht).bystander hmove' (hloop ▸ hother hne) hnone

variable {p : Point} {p' : Option Point}

theorem Calls.crons (h : Calls timerBacklog s p s' p') : s'.crons = s.crons := by
  cases h <;> rfl

theorem OnSchedule.call (h : OnSchedule s id t) (hmove : Calls timerBacklog s p s' p')
    (hsame : t'.SameHistory t) (haccount : s.loop.Accounts id t') : OnSchedule s' id t' := by
  refine h.keep hsame hmove.crons.ge (fun k hk => .inr ⟨k, ?_, rfl, .refl _⟩) ?_
  · rw [← hmove.loop]
    exact hk
  · rw [hmove.loop]
    exact haccount

theorem onSchedule_new (now interval counter : ℤ) (hcurrent : s.loop.current ≠ some id) :
    OnSchedule s id
      { createAt := now, interval, elapse := interval, counter, count := counter } where
  plain := rfl
  numbers := nofun
  distinct := List.nodup_nil
  ahead := nofun
  times := nofun
  account := by
    refine (Loop.accounts_iff_resting hcurrent).mpr ⟨?_, fun hcount => ⟨hcount, ?_⟩⟩
    · change interval = (0 + 1) * interval
      ring
    · change counter + 0 ≤ counter
      omega

/-- `Stop` sets the counter of a timer to zero while it is not being decremented. -/
theorem Loop.Accounts.of_counter_zero (h : loop.Accounts id t)
    (hdecrementing : loop.decrementing ≠ some id) : loop.Accounts id { t with counter := 0 } := by
  by_cases hcurrent : loop.current = some id
  · cases loop with
    | select | cron => cases hcurrent
    | stop => exact Timer.Resting.of_counter_zero h
    | body =>
      cases hcurrent
      rw [Loop.Accounts, if_pos rfl] at h ⊢
      exact ⟨h.1, h.2.of_counter_zero⟩
    | update =>
      cases hcurrent
      rw [Loop.Accounts, if_pos rfl] at h ⊢
      exact h.of_counter_zero
    | decrement => exact absurd hcurrent hdecrementing
    | write =>
      cases hcurrent
      rw [Loop.Accounts, if_pos rfl] at h ⊢
      exact h
  · rw [Loop.accounts_iff_resting hcurrent] at h ⊢
    exact h.of_counter_zero

theorem Loop.Accounts.of_closed (h : loop.Accounts id t) :
    loop.Accounts id { t with closed := true } := by
  cases loop <;> exact h

/-- **`Stop`**, called by another goroutine or by a function, keeps the timer on its schedule. -/
theorem OnSchedule.stop (hmove : Calls timerBacklog s p s' p') {x : ℕ}
    (hstops : Stops timerBacklog s x stage heap ch next) (hheap : s'.heap = heap)
    (hsteady : stage = .len → x = id → s.loop.decrementing ≠ some id)
    (h : ∀ t, s.heap.lookup id = some t → OnSchedule s id t) (ht' : s'.heap.lookup id = some t') :
    OnSchedule s' id t' := by
  rw [hheap] at ht'
  obtain ⟨t, ht, hsame, hcases⟩ := hstops.account ht'
  have hold := h t ht
  refine hold.call hmove hsame ?_
  rcases hcases with rfl | rfl | ⟨rfl, rfl, rfl⟩
  · exact hold.account
  · exact hold.account.of_closed
  · exact hold.account.of_counter_zero (hsteady rfl rfl)

/-- **A step of a caller** keeps the timer on its schedule. -/
theorem Calls.onSchedule (hmove : Calls timerBacklog s p s' p') (hs : Allotted s)
    (hcondition : p ≠ .setCondition id)
    (hsteady : ∀ x, p = .stop x .len → x = id → s.loop.decrementing ≠ some id)
    (h : ∀ t, s.heap.lookup id = some t → OnSchedule s id t) (ht' : s'.heap.lookup id = some t') :
    OnSchedule s' id t' := by
  have hmove' := hmove
  cases hmove with
  | newTimer now =>
    rename_i interval counter again
    by_cases heq : id = s.incrementID + 1
    · subst heq
      have hcurrent : s.loop.current ≠ some (s.incrementID + 1) := by
        intro hcurrent
        exact absurd (hs.fresh _ (hs.current _ hcurrent)) (Nat.not_succ_le_self _)
      rw [Manager.newTimer, Finmap.lookup_insert] at ht'
      obtain rfl := some.inj ht'
      have hnew := onSchedule_new now interval counter hcurrent
      exact hnew.call hmove' (.refl _) hnew.account
    · rw [Manager.newTimer, Finmap.lookup_insert_of_ne _ heq] at ht'
      exact (h t' ht').call hmove' (.refl t') (h t' ht').account
  | sendFirst | sendLast => exact (h t' ht').call hmove' (.refl t') (h t' ht').account
  | setCondition =>
    rcases Manager.lookup_modify_cases ht' with ⟨rfl, -⟩ | ⟨-, ht⟩
    · exact absurd rfl hcondition
    · exact (h t' ht).call hmove' (.refl t') (h t' ht).account
  | stop _ hstops | stopped _ hstops =>
    refine OnSchedule.stop hmove' hstops rfl ?_ h ht'
    intro hstage hx
    exact hsteady _ (congrArg _ hstage) hx

end Steps

/-! ## Runs -/

section Runs

variable {timerBacklog : ℕ} {development : Bool}

theorem numbered_of_reachable {c : Config Manager Point}
    (h : (timers timerBacklog development).Reachable c) :
    c.shared.loop.Numbered c.shared.crons := by
  refine Program.shared_invariant (J := fun s => s.loop.Numbered s.crons) (fun k hk => nomatch hk)
    ?_ h
  intro s p choice s' p' hs hstep k hk
  rcases step_cases hstep with ⟨-, -, hmove⟩ | hmove
  · rcases hmove.running hk with ⟨hcrons, hnumber, hnodup⟩ | ⟨hcrons, k₀, hk₀, hnumber, htodo⟩
    · exact ⟨(hnumber.trans hcrons.symm).le, hnodup⟩
    · obtain ⟨hle, hnodup⟩ := hs k₀ hk₀
      exact ⟨hcrons ▸ hnumber ▸ hle, hnodup.sublist htodo⟩
  · rw [hmove.loop] at hk
    rw [hmove.crons]
    exact hs k hk

theorem OnSchedule.executed_le {s : Manager} {id : ℕ} (h : OnSchedule s id t)
    (hcount : 0 ≤ t.count) : t.executed ≤ t.count := by
  have hresting (hresting : t.Resting) : t.executed ≤ t.count := by
    have := hresting.2 hcount
    omega
  have haccount := h.account
  cases hloop : s.loop with
  | body =>
    rw [hloop, Loop.Accounts] at haccount
    split at haccount
    · exact (haccount.2.2 hcount).2.2
    · exact hresting haccount
  | update | decrement | write =>
    rw [hloop, Loop.Accounts] at haccount
    split at haccount
    · exact (haccount.2 hcount).2.2
    · exact hresting haccount
  | _ =>
    rw [hloop] at haccount
    exact hresting haccount

variable {id : ℕ} {events : Run Point Choice} {c : Config Manager Point}
  (hrun : (timers timerBacklog development).system.run events = some c)
  (hmeets : (timers timerBacklog development).system.Meets (Steady development id) events)
include hrun hmeets

/-- **In every steady run** the timer is on its schedule. -/
theorem onSchedule_of_steady :
    ∀ t, c.shared.heap.lookup id = some t → OnSchedule c.shared id t := by
  apply Program.config_induction_of_meets ?_ ?_ ?_ hrun hmeets
  · intro t ht
    cases ht
  · intro s threads p _ _ h _
    exact h
  · intro s p rest choice s' p' hreach hsteady h hstep t' ht'
    rcases step_cases hstep with ⟨rfl, -, hmove⟩ | hmove
    · exact hmove.onSchedule hsteady (numbered_of_reachable hreach) h ht'
    · refine hmove.onSchedule (allotted_of_reachable hreach) ?_ ?_ h ht'
      · rintro rfl
        exact hsteady rfl
      · rintro x rfl
        exact hsteady

/-- **A timer runs neither early nor too often, in every steady run**: its `n`-th execution is in a
`Cron` at a time not before `n` intervals after its creation, no `Cron` executes it twice, and a
counter that is not negative bounds its executions. -/
theorem neither_early_nor_too_often {t : Timer} (ht : c.shared.heap.lookup id = some t) :
    (∀ (n : ℕ) (e : ℕ × ℤ), t.executions[n]? = some e →
      t.createAt + (n + 1) * t.interval ≤ e.2) ∧
    (t.executions.map Prod.fst).Nodup ∧
    (0 ≤ t.count → (t.executions.length : ℤ) ≤ t.count) := by
  have h := onSchedule_of_steady hrun hmeets t ht
  exact ⟨h.times, h.distinct, h.executed_le⟩

end Runs

/-- A timer with an interval of 10 is made known to the loop. -/
def make (counter : ℤ) : Run Point Choice :=
  [.call (.newTimer 10 counter false), .run (.newTimer 10 counter false) (.clock 0),
    .run (.sendCreated 1 false) .go, .run .loop .created]

/-- A call of `Cron` executes the function, which ends in some way. -/
def cronRuns (now : ℤ) (ends : Choice) : Run Point Choice :=
  [.run .loop (.tick now [1]), .run .loop .go, .run .loop ends]

/-- The account is settled. -/
def cronSettles : Run Point Choice := List.replicate 4 (.run .loop .go)

/-- A timer that may run twice runs twice, although its function panics at first. -/
theorem neither_early_nor_too_often_twice : ∃ events c,
    (timers 256 false).system.run events = some c ∧
    (∀ t, c.shared.heap.lookup 1 = some t →
      (∀ (n : ℕ) (e : ℕ × ℤ), t.executions[n]? = some e →
        t.createAt + (n + 1) * t.interval ≤ e.2) ∧
      (t.executions.map Prod.fst).Nodup ∧
      (0 ≤ t.count → (t.executions.length : ℤ) ≤ t.count)) ∧
    ∃ t, c.shared.heap.lookup 1 = some t ∧ t.executions = [(1, 12), (2, 20)] ∧ t.count = 2 := by
  refine ⟨make 2 ++ cronRuns 12 .panics ++ cronSettles ++ cronRuns 20 .go ++ cronSettles, ?_⟩
  refine reaches_and (by decide +kernel) fun c hc _ t ht => neither_early_nor_too_often hc ?_ ht
  exact System.meets_of_meetsFrom (by decide +kernel)

/-- In development mode a timer whose function panics at 12 runs again at 13, although it may run
only once, and its interval is 10. -/
theorem early_and_too_often : ∃ c,
    (timers 256 true).system.run (make 1 ++ cronRuns 12 .panics ++ cronRuns 13 .go) = some c ∧
    ∃ t, c.shared.heap.lookup 1 = some t ∧ t.executions = [(1, 12), (2, 13)] ∧ t.createAt = 0 ∧
      t.interval = 10 ∧ t.count = 1 := by
  decide +kernel

end Pitaya.Timers
