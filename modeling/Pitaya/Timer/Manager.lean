import Mathlib.Data.Int.Order.Basic
import Pitaya.Foundations.FiniteMap
import Pitaya.Foundations.Threads

/-!
# Timers

`timer/timer.go`, and the loop of `HandlerService.Dispatch` in `service/handler.go`.  A timer is
made known to the loop through one channel and taken from it through another one, and the loop runs
the timers that are due when it receives a tick.

* `Manager` — the timers, the channels, and where the loop is.  Timers are objects on a heap that
  callers hold references to; `Manager.timers` is the set of those that the loop knows.
* `Manager.stop` — `Stop`, step by step; callers and `Cron` call it.
* `Manager.dispatch` — the steps of the loop: what it receives, and `Cron` timer by timer.  The
  function of a timer may call whatever other goroutines may call.
* `timers` — any number of callers of `NewTimer`, `SetCondition` and `Stop`, and the loop.

That there is one loop is an assumption.  The application starts `Concurrency.Handler.Dispatch` of
them, 25 by default, which share the channels and the ticker; a loop that dies of a panic stops the
ticker for all.  Here another loop takes the place of one that has died; which ticks still come is
left open, as are all times at which `Cron` is called.

Some fields only record what happened: what `NewTimer` has returned, the executions of a timer,
the number of the current `Cron`, and for which timers `Stop` has returned.
-/

namespace Pitaya.Timers

open Threads Finmap Option

/-- `Timer`.  Of the function only its executions are kept: the number and the time of the `Cron`
they happened in. -/
structure Timer where
  createAt : ℤ
  interval : ℤ
  elapse : ℤ
  counter : ℤ
  /-- The counter the timer was created with. -/
  count : ℤ
  /-- `condition` is not nil. -/
  conditional : Bool := false
  closed : Bool := false
  executions : List (ℕ × ℤ) := []
  deriving DecidableEq

/-- A call of `Cron` under way: its time, and the timers that it has yet to visit. -/
structure Cron where
  number : ℕ
  now : ℤ
  todo : List ℕ
  /-- The timers for which `Stop` had returned when the call began. -/
  stopped : Finset ℕ
  deriving DecidableEq

/-- The steps of `Stop`. -/
inductive Stage where
  /-- `atomic.LoadInt32(&t.closed) > 0`. -/
  | load
  /-- `len(Manager.ChClosingTimer) < timerBacklog`. -/
  | len
  | send
  | store
  deriving DecidableEq

/-- Where the loop of `Dispatch` is. -/
inductive Loop where
  | select
  /-- `Cron` turns to the next timer. -/
  | cron (k : Cron)
  /-- `Cron` stops a timer that has no executions left. -/
  | stop (k : Cron) (id : ℕ) (stage : Stage)
  /-- The function of a timer runs; `conditional` tells why. -/
  | body (k : Cron) (id : ℕ) (conditional : Bool)
  /-- `t.elapse += int64(t.interval)`, and the test of the counter. -/
  | update (k : Cron) (id : ℕ)
  /-- The counter is read in order to be decremented. -/
  | decrement (k : Cron) (id : ℕ)
  /-- The counter is written. -/
  | write (k : Cron) (id : ℕ) (counter : ℤ)
  deriving DecidableEq

/-- `Manager`, with the loop that works on it. -/
structure Manager where
  incrementID : ℕ := 0
  heap : Finmap fun _ : ℕ => Timer := ∅
  timers : Finset ℕ := ∅
  chClosingTimer : List ℕ := []
  chCreatedTimer : List ℕ := []
  loop : Loop := .select
  /-- The timers that `NewTimer` has returned. -/
  held : Finset ℕ := ∅
  /-- How often `Cron` was called. -/
  crons : ℕ := 0
  /-- The timers for which `Stop` has returned. -/
  stopped : Finset ℕ := ∅

/-- What the program leaves open. -/
inductive Choice where
  | go
  /-- A tick is received: the time, and the order in which the timers are visited. -/
  | tick (now : ℤ) (order : List ℕ)
  /-- A new timer is received. -/
  | created
  /-- The id of a closed timer is received. -/
  | closing
  /-- The time a timer is created at. -/
  | clock (now : ℤ)
  /-- What the condition of a timer says. -/
  | check (holds : Bool)
  /-- The function of a timer panics. -/
  | panics
  deriving DecidableEq

/-- The calls of other goroutines. -/
inductive Point where
  | loop
  /-- `NewTimer`.  `NewCountTimer` sends the timer a second time. -/
  | newTimer (interval counter : ℤ) (again : Bool)
  | sendCreated (id : ℕ) (again : Bool)
  | setCondition (id : ℕ)
  | stop (id : ℕ) (stage : Stage)
  deriving DecidableEq

namespace Manager

/-- Write to a timer. -/
def modify (s : Manager) (id : ℕ) (f : Timer → Timer) : Manager :=
  { s with
    heap :=
      match s.heap.lookup id with
      | none => s.heap
      | some t => s.heap.insert id (f t) }

theorem lookup_modify (s : Manager) (id : ℕ) (f : Timer → Timer) (id' : ℕ) :
    (s.modify id f).heap.lookup id' =
      if id' = id then (s.heap.lookup id).map f else s.heap.lookup id' := by
  dsimp only [modify]
  cases hlookup : s.heap.lookup id with
  | none =>
    by_cases heq : id' = id
    · rw [if_pos heq, heq]
      exact hlookup
    · rw [if_neg heq]
  | some =>
    by_cases heq : id' = id
    · rw [if_pos heq, heq]
      exact lookup_insert _
    · rw [if_neg heq]
      exact lookup_insert_of_ne _ heq

theorem mem_heap_modify {s : Manager} {id : ℕ} {f : Timer → Timer} {id' : ℕ} :
    id' ∈ (s.modify id f).heap ↔ id' ∈ s.heap := by
  rw [← lookup_isSome, ← lookup_isSome, lookup_modify]
  split
  · rename_i heq
    rw [heq, isSome_map]
  · rfl

/-- A timer after an update is an updated one, or another one. -/
theorem lookup_modify_cases {s : Manager} {id x : ℕ} {f : Timer → Timer} {t' : Timer}
    (h : (s.modify x f).heap.lookup id = some t') :
    (id = x ∧ ∃ t, s.heap.lookup id = some t ∧ t' = f t) ∨
      (id ≠ x ∧ s.heap.lookup id = some t') := by
  rw [lookup_modify] at h
  split at h
  · rename_i heq
    subst heq
    obtain ⟨t, ht, rfl⟩ := map_eq_some_iff.mp h
    exact .inl ⟨rfl, t, ht, rfl⟩
  · rename_i hne
    exact .inr ⟨hne, h⟩

section Steps

variable (timerBacklog : ℕ) (development : Bool)

variable (s : Manager)

/-- `Stop`.  The next stage is `none` when it returns. -/
def stop (id : ℕ) : Stage → Option (Manager × Option Stage)
  | .load => (s.heap.lookup id).map fun t => (s, if t.closed then none else some .len)
  | .len =>
    if s.chClosingTimer.length < timerBacklog then some (s, some .send)
    else some (s.modify id fun t => { t with counter := 0 }, none)
  | .send =>
    if s.chClosingTimer.length < timerBacklog then
      some ({ s with chClosingTimer := s.chClosingTimer ++ [id] }, some .store)
    else none
  | .store => some (s.modify id fun t => { t with closed := true }, none)

/-- `Stop` has returned. -/
def noteStopped (id : ℕ) : Manager := { s with stopped := insert id s.stopped }

/-- `pexec` calls the function of a timer. -/
def execute (k : Cron) (id : ℕ) (conditional : Bool) : Manager :=
  { s.modify id fun t => { t with executions := t.executions ++ [(k.number, k.now)] } with
    loop := .body k id conditional }

/-- The function that `Cron` passes to `Range`, for one timer; `k` has the timers after it. -/
def visit (k : Cron) (id : ℕ) (t : Timer) : Choice → Option Manager
  | .check holds =>
    if t.counter ≠ 0 ∧ t.conditional then
      if holds then some (s.execute k id true) else some { s with loop := .cron k }
    else none
  | .go =>
    if t.counter = 0 then
      if s.chClosingTimer.length < timerBacklog then some { s with loop := .stop k id .load }
      else some { s with loop := .cron k }
    else if t.conditional then none
    else if t.createAt + t.elapse ≤ k.now then some (s.execute k id false)
    else some { s with loop := .cron k }
  | _ => none

/-- The end of `pexec`.  A panic is recovered and logged with `DPanic`, which panics itself in
development mode; then the loop dies, and another one begins. -/
def finish (k : Cron) (id : ℕ) (conditional : Bool) : Choice → Option Manager
  | .go => some { s with loop := if conditional then .cron k else .update k id }
  | .panics =>
    if development then some { s with loop := .select }
    else some { s with loop := if conditional then .cron k else .update k id }
  | _ => none

/-- A step of the loop. -/
def dispatch (choice : Choice) : Option Manager :=
  match s.loop, choice with
  | .select, .tick now order =>
    if order.Nodup ∧ order.toFinset = s.timers then
      some { s with
        loop := .cron ⟨s.crons + 1, now, order, s.stopped⟩
        crons := s.crons + 1 }
    else none
  | .select, .created =>
    match s.chCreatedTimer with
    | [] => none
    | id :: rest => some { s with chCreatedTimer := rest, timers := insert id s.timers }
  | .select, .closing =>
    match s.chClosingTimer with
    | [] => none
    | id :: rest => some { s with chClosingTimer := rest, timers := s.timers.erase id }
  | .cron k, choice =>
    match k.todo with
    | [] => if choice = .go then some { s with loop := .select } else none
    | id :: todo =>
      (s.heap.lookup id).bind fun t => s.visit timerBacklog { k with todo } id t choice
  | .stop k id stage, .go =>
    (s.stop timerBacklog id stage).map fun
      | (s, none) => { s.noteStopped id with loop := .cron k }
      | (s, some stage) => { s with loop := .stop k id stage }
  | .body k id conditional, choice => s.finish development k id conditional choice
  | .update k id, .go =>
    (s.heap.lookup id).map fun t : Timer =>
      { s.modify id fun t => { t with elapse := t.elapse + t.interval } with
        loop := if t.counter ≠ -1 ∧ t.counter > 0 then .decrement k id else .cron k }
  | .decrement k id, .go =>
    (s.heap.lookup id).map fun t => { s with loop := .write k id t.counter }
  | .write k id counter, .go =>
    some { s.modify id fun t => { t with counter := counter - 1 } with loop := .cron k }
  | _, _ => none

/-- `NewTimer`, up to the channel. -/
def newTimer (now interval counter : ℤ) : Manager :=
  { s with
    incrementID := s.incrementID + 1
    heap := s.heap.insert (s.incrementID + 1)
      { createAt := now, interval, elapse := interval, counter, count := counter } }

/-- A step of a caller, or of the loop. -/
def step (s : Manager) : Point → Choice → Option (Manager × Option Point)
  | .loop, choice => (s.dispatch timerBacklog development choice).map fun s => (s, some .loop)
  | .newTimer interval counter again, .clock now =>
    some (s.newTimer now interval counter, some (.sendCreated (s.incrementID + 1) again))
  | .sendCreated id again, .go =>
    if s.chCreatedTimer.length < timerBacklog then
      let s := { s with chCreatedTimer := s.chCreatedTimer ++ [id] }
      if again then some (s, some (.sendCreated id false))
      else some ({ s with held := insert id s.held }, none)
    else none
  | .setCondition id, .go =>
    if id ∈ s.held then some (s.modify id fun t => { t with conditional := true }, none) else none
  | .stop id stage, .go =>
    if id ∈ s.held then
      (s.stop timerBacklog id stage).map fun
        | (s, none) => (s.noteStopped id, none)
        | (s, some stage) => (s, some (.stop id stage))
    else none
  | _, _ => none

end Steps

end Manager

/-- The calls. -/
def Point.entry : Point → Bool
  | newTimer _ _ _ | setCondition _ | stop _ .load => true
  | _ => false

/-- Callers, and the loop. -/
def timers (timerBacklog : ℕ) (development : Bool) : Program Manager Point Choice where
  start := {}
  main := {.loop}
  entry := Point.entry
  step s p choice := s.step timerBacklog development p choice

/-! ## What a step does -/

section Moves

variable (timerBacklog : ℕ) (development : Bool)

/-- A step of `Stop`, with the timers and the channel after it. -/
inductive Stops (s : Manager) (id : ℕ) :
    Stage → (Finmap fun _ : ℕ => Timer) → List ℕ → Option Stage → Prop
  | alreadyClosed {t} (lookup : s.heap.lookup id = some t) (closed : t.closed = true) :
      Stops s id .load s.heap s.chClosingTimer none
  | load {t} (lookup : s.heap.lookup id = some t) :
      Stops s id .load s.heap s.chClosingTimer (some .len)
  | room (room : s.chClosingTimer.length < timerBacklog) :
      Stops s id .len s.heap s.chClosingTimer (some .send)
  | full (full : ¬ s.chClosingTimer.length < timerBacklog) :
      Stops s id .len (s.modify id fun t => { t with counter := 0 }).heap s.chClosingTimer none
  | send : Stops s id .send s.heap (s.chClosingTimer ++ [id]) (some .store)
  | store :
      Stops s id .store (s.modify id fun t => { t with closed := true }).heap s.chClosingTimer none

/-- A step of the loop. -/
inductive Dispatches (s : Manager) : Choice → Manager → Prop
  | tick {now order} (loop : s.loop = .select) (nodup : order.Nodup)
      (timers : order.toFinset = s.timers) :
      Dispatches s (.tick now order)
        { s with loop := .cron ⟨s.crons + 1, now, order, s.stopped⟩, crons := s.crons + 1 }
  | created {id rest} (loop : s.loop = .select) (received : s.chCreatedTimer = id :: rest) :
      Dispatches s .created { s with chCreatedTimer := rest, timers := insert id s.timers }
  | closing {id rest} (loop : s.loop = .select) (received : s.chClosingTimer = id :: rest) :
      Dispatches s .closing { s with chClosingTimer := rest, timers := s.timers.erase id }
  | done {k} (loop : s.loop = .cron k) : Dispatches s .go { s with loop := .select }
  | skip {k id rest choice} (loop : s.loop = .cron k) (todo : k.todo = id :: rest) :
      Dispatches s choice { s with loop := .cron { k with todo := rest } }
  | exhausted {k id rest t} (loop : s.loop = .cron k) (todo : k.todo = id :: rest)
      (lookup : s.heap.lookup id = some t) :
      Dispatches s .go { s with loop := .stop { k with todo := rest } id .load }
  | execute {k id rest t choice} (loop : s.loop = .cron k) (todo : k.todo = id :: rest)
      (lookup : s.heap.lookup id = some t) (counter : t.counter ≠ 0)
      (due : t.conditional = false → t.createAt + t.elapse ≤ k.now) :
      Dispatches s choice (s.execute { k with todo := rest } id t.conditional)
  | stop {k id stage stage' heap ch} (loop : s.loop = .stop k id stage)
      (stops : Stops timerBacklog s id stage heap ch (some stage')) :
      Dispatches s .go { s with heap, chClosingTimer := ch, loop := .stop k id stage' }
  | stopped {k id stage heap ch} (loop : s.loop = .stop k id stage)
      (stops : Stops timerBacklog s id stage heap ch none) :
      Dispatches s .go { s.noteStopped id with heap, chClosingTimer := ch, loop := .cron k }
  | finish {k id conditional choice} (loop : s.loop = .body k id conditional) :
      Dispatches s choice { s with loop := if conditional then .cron k else .update k id }
  | die {k id conditional} (loop : s.loop = .body k id conditional)
      (development : development = true) : Dispatches s .panics { s with loop := .select }
  | update {k id t} (loop : s.loop = .update k id) (lookup : s.heap.lookup id = some t) :
      Dispatches s .go
        { s.modify id fun t => { t with elapse := t.elapse + t.interval } with
          loop := if t.counter ≠ -1 ∧ t.counter > 0 then .decrement k id else .cron k }
  | decrement {k id t} (loop : s.loop = .decrement k id)
      (lookup : s.heap.lookup id = some t) :
      Dispatches s .go { s with loop := .write k id t.counter }
  | write {k id counter} (loop : s.loop = .write k id counter) :
      Dispatches s .go
        { s.modify id fun t => { t with counter := counter - 1 } with loop := .cron k }

/-- A step of a caller. -/
inductive Calls (s : Manager) : Point → Manager → Option Point → Prop
  | newTimer {interval counter again} (now : ℤ) :
      Calls s (.newTimer interval counter again) (s.newTimer now interval counter)
        (some (.sendCreated (s.incrementID + 1) again))
  | sendFirst {id} : Calls s (.sendCreated id true)
      { s with chCreatedTimer := s.chCreatedTimer ++ [id] } (some (.sendCreated id false))
  | sendLast {id} : Calls s (.sendCreated id false)
      { s with chCreatedTimer := s.chCreatedTimer ++ [id], held := insert id s.held } none
  | setCondition {id} (held : id ∈ s.held) :
      Calls s (.setCondition id) (s.modify id fun t => { t with conditional := true }) none
  | stop {id stage stage' heap ch} (held : id ∈ s.held)
      (stops : Stops timerBacklog s id stage heap ch (some stage')) :
      Calls s (.stop id stage) { s with heap, chClosingTimer := ch } (some (.stop id stage'))
  | stopped {id stage heap ch} (held : id ∈ s.held)
      (stops : Stops timerBacklog s id stage heap ch none) :
      Calls s (.stop id stage) { s.noteStopped id with heap, chClosingTimer := ch } none

variable {timerBacklog development} {s s' : Manager}

variable {id : ℕ} {stage : Stage} {next : Option Stage} {heap : Finmap fun _ : ℕ => Timer}
  {ch : List ℕ}

theorem stop_stops (h : s.stop timerBacklog id stage = some (s', next)) :
    ∃ heap ch, s' = { s with heap, chClosingTimer := ch } ∧
      Stops timerBacklog s id stage heap ch next := by
  cases stage with
  | load =>
    obtain ⟨t, ht, heq⟩ := map_eq_some_iff.mp h
    cases hclosed : t.closed with
    | true =>
      rw [hclosed] at heq
      cases heq
      exact ⟨_, _, rfl, .alreadyClosed ht hclosed⟩
    | false =>
      rw [hclosed] at heq
      cases heq
      exact ⟨_, _, rfl, .load ht⟩
  | len =>
    dsimp only [Manager.stop] at h
    split at h
    · rename_i hroom
      cases h
      exact ⟨_, _, rfl, .room hroom⟩
    · rename_i hfull
      cases h
      exact ⟨_, _, rfl, .full hfull⟩
  | send =>
    obtain ⟨-, ⟨⟩⟩ := ite_none_right_eq_some.mp h
    exact ⟨_, _, rfl, .send⟩
  | store =>
    cases h
    exact ⟨_, _, rfl, .store⟩

variable {choice : Choice}

theorem visit_dispatches {k : Cron} {rest : List ℕ} {t : Timer} (hloop : s.loop = .cron k)
    (htodo : k.todo = id :: rest) (ht : s.heap.lookup id = some t)
    (h : s.visit timerBacklog { k with todo := rest } id t choice = some s') :
    Dispatches timerBacklog development s choice s' := by
  have hexecute (choice : Choice) (hcounter : t.counter ≠ 0)
      (hdue : t.conditional = false → t.createAt + t.elapse ≤ k.now) :
      Dispatches timerBacklog development s choice
        (s.execute { k with todo := rest } id t.conditional) :=
    .execute hloop htodo ht hcounter hdue
  cases choice with
  | check holds =>
    obtain ⟨⟨hcounter, hconditional⟩, h⟩ := ite_none_right_eq_some.mp h
    split at h <;> cases h
    · have hmove := hexecute (.check holds) hcounter fun hfalse => by
        cases hconditional.symm.trans hfalse
      rwa [hconditional] at hmove
    · exact .skip hloop htodo
  | go =>
    dsimp only [Manager.visit] at h
    split at h
    · split at h <;> cases h
      · exact .exhausted hloop htodo ht
      · exact .skip hloop htodo
    · rename_i hcounter
      split at h
      · cases h
      · rename_i hconditional
        split at h <;> cases h
        · rename_i hdue
          have hmove := hexecute .go hcounter fun _ => hdue
          rwa [Bool.eq_false_of_not_eq_true hconditional] at hmove
        · exact .skip hloop htodo
  | _ => cases h

/-- **A step of the loop.** -/
theorem dispatch_dispatches (h : s.dispatch timerBacklog development choice = some s') :
    Dispatches timerBacklog development s choice s' := by
  unfold Manager.dispatch at h
  split at h
  · rename_i hloop
    obtain ⟨⟨hnodup, horder⟩, ⟨⟩⟩ := ite_none_right_eq_some.mp h
    exact .tick hloop hnodup horder
  · rename_i hloop
    split at h
    · cases h
    · rename_i hreceived
      cases h
      exact .created hloop hreceived
  · rename_i hloop
    split at h
    · cases h
    · rename_i hreceived
      cases h
      exact .closing hloop hreceived
  · rename_i hloop
    split at h
    · obtain ⟨rfl, ⟨⟩⟩ := ite_none_right_eq_some.mp h
      exact .done hloop
    · rename_i id rest htodo
      obtain ⟨t, ht, h⟩ := bind_eq_some_iff.mp h
      exact visit_dispatches hloop htodo ht h
  · rename_i hloop
    obtain ⟨⟨s₁, next⟩, hstop, heq⟩ := map_eq_some_iff.mp h
    obtain ⟨heap, ch, rfl, hstops⟩ := stop_stops hstop
    cases next with
    | none =>
      cases heq
      exact .stopped hloop hstops
    | some =>
      cases heq
      exact .stop hloop hstops
  · rename_i hloop
    unfold Manager.finish at h
    split at h
    · cases h
      exact .finish hloop
    · split at h <;> cases h
      · rename_i hdevelopment
        exact .die hloop hdevelopment
      · exact .finish hloop
    · cases h
  · rename_i hloop
    obtain ⟨t, ht, ⟨⟩⟩ := map_eq_some_iff.mp h
    exact .update hloop ht
  · rename_i hloop
    obtain ⟨t, ht, ⟨⟩⟩ := map_eq_some_iff.mp h
    exact .decrement hloop ht
  · rename_i hloop
    cases h
    exact .write hloop
  · cases h

variable {p : Point} {p' : Option Point}

/-- **A step** is one of the loop, or one of a caller. -/
theorem step_cases (h : s.step timerBacklog development p choice = some (s', p')) :
    (p = .loop ∧ p' = some .loop ∧ Dispatches timerBacklog development s choice s') ∨
      Calls timerBacklog s p s' p' := by
  cases p with
  | loop =>
    obtain ⟨s₁, hdispatch, ⟨⟩⟩ := map_eq_some_iff.mp h
    exact .inl ⟨rfl, rfl, dispatch_dispatches hdispatch⟩
  | newTimer =>
    cases choice <;> cases h
    rename_i now
    exact .inr (.newTimer now)
  | sendCreated id again =>
    cases choice <;> try cases h
    obtain ⟨-, h⟩ := ite_none_right_eq_some.mp h
    cases again with
    | true =>
      cases h
      exact .inr .sendFirst
    | false =>
      cases h
      exact .inr .sendLast
  | setCondition =>
    cases choice <;> try cases h
    obtain ⟨hheld, ⟨⟩⟩ := ite_none_right_eq_some.mp h
    exact .inr (.setCondition hheld)
  | stop =>
    cases choice <;> try cases h
    obtain ⟨hheld, h⟩ := ite_none_right_eq_some.mp h
    obtain ⟨⟨s₁, next⟩, hstop, heq⟩ := map_eq_some_iff.mp h
    obtain ⟨heap, ch, rfl, hstops⟩ := stop_stops hstop
    cases next with
    | none =>
      cases heq
      exact .inr (.stopped hheld hstops)
    | some =>
      cases heq
      exact .inr (.stop hheld hstops)

/-! ## Ids -/

/-- The timer that the loop works on. -/
def Loop.current : Loop → Option ℕ
  | select | cron _ => none
  | stop _ id _ | body _ id _ | update _ id | decrement _ id | write _ id _ => some id

/-- Ids are given out once, and the loop works on timers that exist. -/
structure Allotted (s : Manager) : Prop where
  fresh : ∀ id ∈ s.heap, id ≤ s.incrementID
  current : ∀ id, s.loop.current = some id → id ∈ s.heap

theorem Stops.mem_heap (h : Stops timerBacklog s id stage heap ch next) {id' : ℕ} :
    id' ∈ heap ↔ id' ∈ s.heap := by
  cases h with
  | full | store => exact Manager.mem_heap_modify
  | _ => exact Iff.rfl

section

variable (h : Dispatches timerBacklog development s choice s')
include h

theorem Dispatches.mem_heap : id ∈ s'.heap ↔ id ∈ s.heap := by
  cases h with
  | execute | update | write => exact Manager.mem_heap_modify
  | stop _ hstops | stopped _ hstops => exact hstops.mem_heap
  | _ => exact Iff.rfl

theorem Dispatches.incrementID : s'.incrementID = s.incrementID := by
  cases h <;> rfl

theorem Dispatches.current (hid : s'.loop.current = some id) :
    s.loop.current = some id ∨ id ∈ s.heap := by
  cases h with
  | created hloop | closing hloop | stop hloop | decrement hloop => exact .inl (hloop ▸ hid)
  | exhausted _ _ ht | execute _ _ ht =>
    cases hid
    exact .inr (mem_of_lookup_eq_some ht)
  | finish hloop =>
    split at hid
    · cases hid
    · exact .inl (hloop ▸ hid)
  | update hloop =>
    split at hid
    · exact .inl (hloop ▸ hid)
    · cases hid
  | _ => cases hid

end

theorem Calls.mem_heap (h : Calls timerBacklog s p s' p') (hid : id ∈ s.heap) : id ∈ s'.heap := by
  cases h with
  | newTimer => exact mem_insert.mpr (.inr hid)
  | sendFirst | sendLast => exact hid
  | setCondition => exact Manager.mem_heap_modify.mpr hid
  | stop _ hstops | stopped _ hstops => exact hstops.mem_heap.mpr hid

theorem Calls.loop (h : Calls timerBacklog s p s' p') : s'.loop = s.loop := by
  cases h <;> rfl

theorem Calls.fresh (h : Calls timerBacklog s p s' p')
    (hfresh : ∀ id ∈ s.heap, id ≤ s.incrementID) : ∀ id ∈ s'.heap, id ≤ s'.incrementID := by
  intro id hid
  cases h with
  | newTimer =>
    rcases mem_insert.mp hid with rfl | hid
    · exact Nat.le_refl _
    · exact Nat.le_succ_of_le (hfresh id hid)
  | sendFirst | sendLast => exact hfresh id hid
  | setCondition => exact hfresh id (Manager.mem_heap_modify.mp hid)
  | stop _ hstops | stopped _ hstops => exact hfresh id (hstops.mem_heap.mp hid)

end Moves

section Reachable

variable {timerBacklog : ℕ} {development : Bool} {c : Config Manager Point}

theorem allotted_of_reachable (h : (timers timerBacklog development).Reachable c) :
    Allotted c.shared := by
  refine Program.shared_invariant (J := Allotted) ⟨?_, ?_⟩ ?_ h
  · intro id hid
    exact absurd hid notMem_empty
  · intro id hid
    cases hid
  · intro s p choice s' p' hs hstep
    rcases step_cases hstep with ⟨-, -, hmove⟩ | hmove
    · refine ⟨fun id hid => ?_, fun id hid => ?_⟩
      · rw [hmove.incrementID]
        exact hs.fresh id (hmove.mem_heap.mp hid)
      · exact hmove.mem_heap.mpr ((hmove.current hid).elim (hs.current id) fun hheap => hheap)
    · refine ⟨hmove.fresh hs.fresh, fun id hid => ?_⟩
      rw [hmove.loop] at hid
      exact hmove.mem_heap (hs.current id hid)

/-- A caller that has read whether a timer is closed works on a timer that exists. -/
theorem mem_heap_of_stop (h : (timers timerBacklog development).Reachable c) {id : ℕ}
    {stage : Stage}
    (hp : .stop id stage ∈ c.threads) (hstage : stage ≠ .load) : id ∈ c.shared.heap := by
  have hall := Program.thread_invariant
    (J := fun s p => ∀ id stage, p = .stop id stage → stage ≠ .load → id ∈ s.heap)
    ?_ ?_ ?_ ?_ h
  · exact hall _ hp id stage rfl hstage
  · rintro p hp id stage rfl
    cases Multiset.mem_singleton.mp hp
  · rintro s threads p - hentry id stage rfl hstage
    cases stage <;> first | exact absurd rfl hstage | cases hentry
  · rintro s p rest choice s' p' - hJ hstep id stage rfl hstage
    rcases step_cases hstep with ⟨-, hloop, -⟩ | hmove
    · cases hloop
    · cases hmove with
      | stop hheld hstops =>
        cases hstops with
        | load ht => exact mem_of_lookup_eq_some ht
        | room => exact hJ id .len rfl nofun
        | send => exact hJ id .send rfl nofun
  · intro s p rest choice s' p' q _ _ _ hJ hstep id stage hq hstage
    have hid := hJ id stage hq hstage
    rcases step_cases hstep with ⟨-, -, hmove⟩ | hmove
    · exact hmove.mem_heap.mpr hid
    · exact hmove.mem_heap hid

end Reachable

end Pitaya.Timers
