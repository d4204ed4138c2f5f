import Mathlib.Data.Finset.Insert
import Pitaya.Foundations.Threads

/-!
# The connection states of the client

`client/client.go`: `ConnectTo`, `Disconnect`, `disconnectGeneration` and
`OnDisconnected`, called from any number of goroutines, together with the loops of the
generations, which close their own generation when the peer goes away, a read or a write
fails or the heartbeat is late — also when it has long been replaced.

* `Guarded` — the fields under `connMutex`; `Shared` adds the contexts and wait groups of
  the attempts and the `closeOnce` of the generations.
* `enter` — what each critical section assigns, decided once the lock is taken; the
  assignments are then made one by one, and other goroutines run in between.
* `connection` — the program; its interleavings are `Threads.Program.system`.
* `Moves`, `step_moves` — what a step can do; `Enters` is the same for a critical section.

An attempt is known by its number, and so is the generation made from it.  The errors that
`ConnectTo` returns are left out, and so is what goes on within a generation.
-/

namespace Pitaya.Client.Connection

open Transition Threads Option

/-! ## State -/

inductive ClientState where
  | idle
  | connecting
  | connected
  deriving DecidableEq

/-- The fields under `connMutex`. -/
structure Guarded where
  connected : Bool := false
  state : ClientState := .idle
  attempt : Option ℕ := none
  current : Option ℕ := none
  /-- Whether `onDisconnected` is set. -/
  onDisconnected : Bool := false
  /-- The attempts made so far. -/
  attempts : ℕ := 0
  /-- The generations that were or are current. -/
  became : Finset ℕ := ∅

/-- What happened, for the record: no step depends on it. -/
structure Record where
  /-- `current` as it was when `connMutex` was last taken. -/
  found : Option ℕ := none
  /-- The generations for which `onDisconnected` was called. -/
  callbacks : List ℕ := []
  /-- The attempts for which a `Disconnect` has waited that has returned. -/
  awaited : List ℕ := []

structure Shared where
  connMutex : Bool := false
  guarded : Guarded := {}
  /-- The attempts whose context is cancelled. -/
  cancelled : Finset ℕ := ∅
  /-- The attempts that have called `done.Done`. -/
  finished : Finset ℕ := ∅
  /-- The generations whose loops have been started. -/
  started : Finset ℕ := ∅
  /-- The generations whose `closeOnce` was entered. -/
  closing : Finset ℕ := ∅
  /-- The generations whose `closeOnce` is done. -/
  closed : Finset ℕ := ∅
  record : Record := {}

/-! ## Program points -/

/-- A statement under `connMutex`. -/
inductive Assign where
  /-- `attempt := &connectAttempt{…}`. -/
  | newAttempt
  | attempt (a : Option ℕ)
  | state (st : ClientState)
  | connected (b : Bool)
  | current (g : Option ℕ)
  | onDisconnected (callback : Bool)
  /-- `attempt.cancel()`. -/
  | cancel (n : ℕ)
  | startGenerationLoops (g : ℕ)
  deriving DecidableEq

/-- The critical sections of `connMutex`. -/
inductive Section where
  /-- `connectToContext`, the admission. -/
  | connect
  /-- `connectToContext`, after dialling. -/
  | dialed (n : ℕ)
  /-- `connectToContext`, the publication. -/
  | publish (n : ℕ)
  | failConnectAttempt (n : ℕ)
  | disconnect
  /-- `disconnectGeneration`, within `closeOnce.Do`. -/
  | clear (g : ℕ)
  | onDisconnected (callback : Bool)
  deriving DecidableEq

/-- Where a goroutine is while it does not hold `connMutex`. -/
inductive Outside where
  | lock (part : Section)
  | dial (n : ℕ)
  | handleHandshake (n : ℕ)
  /-- The deferred function of `connectToContext`. -/
  | deferred (n : ℕ)
  /-- `attempt.done.Wait()` in `Disconnect`. -/
  | wait (n : ℕ)
  /-- A holder of the generation, such as one of its loops, that may close it. -/
  | holder (g : ℕ)
  /-- `disconnectGeneration`, at `closeOnce.Do`. -/
  | closeOnce (g : ℕ)
  /-- The function given to `closeOnce.Do` returns. -/
  | cleared (g : ℕ) (callback : Bool)
  | callback (g : ℕ)
  /-- The deadline of the context, or the end of its parent. -/
  | expire (n : ℕ)
  deriving DecidableEq

/-- Where a goroutine is. -/
inductive Point where
  | outside (o : Outside)
  /-- `connMutex` is taken. -/
  | entered (part : Section)
  /-- Statements to go before `connMutex` is unlocked, and where that leads. -/
  | body (todo : List Assign) (next : Option Outside)
  deriving DecidableEq

/-- How dialling or the handshake ends. -/
inductive Choice where
  | go
  | fail
  deriving DecidableEq

/-! ## Steps -/

/-- What a statement does to the fields. -/
def Assign.run (f : Guarded) : Assign → Guarded
  | .newAttempt => { f with attempts := f.attempts + 1 }
  | .attempt a => { f with attempt := a }
  | .state st => { f with state := st }
  | .connected b => { f with connected := b }
  | .current g => { f with current := g, became := g.elim f.became (insert · f.became) }
  | .onDisconnected b => { f with onDisconnected := b }
  | .cancel _ => f
  | .startGenerationLoops _ => f

/-- What a statement does. -/
def Assign.exec (s : Shared) (a : Assign) : Shared :=
  match a with
  | .cancel n => { s with cancelled := insert n s.cancelled }
  | .startGenerationLoops g => { s with started := insert g s.started }
  | a => { s with guarded := a.run s.guarded }

/-- The statements of a critical section, and what follows it. -/
def enter (s : Shared) : Section → List Assign × Option Outside
  | .connect =>
    match s.guarded.state with
    | .connected => ([], none)
    | .connecting => ([], none)
    | .idle =>
      let n := s.guarded.attempts
      ([.newAttempt, .attempt (some n), .state .connecting], some (.dial n))
  | .dialed n =>
    if s.guarded.attempt ≠ some n ∨ s.guarded.state ≠ .connecting then
      ([], some (.deferred n))
    else ([], some (.handleHandshake n))
  | .publish n =>
    if s.guarded.attempt ≠ some n ∨ s.guarded.state ≠ .connecting ∨ n ∈ s.cancelled then
      ([], some (.lock (.failConnectAttempt n)))
    else
      ([.current (some n), .connected true, .state .connected, .attempt none,
        .startGenerationLoops n], some (.deferred n))
  | .failConnectAttempt n =>
    if s.guarded.attempt = some n then
      ([.attempt none, .state .idle, .connected false], some (.deferred n))
    else ([], some (.deferred n))
  | .disconnect =>
    match s.guarded.state, s.guarded.attempt with
    | .connecting, some n => ([.cancel n], some (.wait n))
    | _, _ => ([], s.guarded.current.map .closeOnce)
  | .clear g =>
    if s.guarded.current = some g then
      ([.current none, .state .idle, .connected false],
        some (.cleared g s.guarded.onDisconnected))
    else ([], some (.cleared g false))
  | .onDisconnected callback => ([.onDisconnected callback], none)

/-- One step of a goroutine outside the critical sections. -/
def stepOutside (s : Shared) : Outside → Choice → Option (Shared × Option Point)
  | .lock part, _ =>
    if s.connMutex then none
    else
      some ({ s with connMutex := true, record.found := s.guarded.current },
        some (.entered part))
  | .dial n, .go => some (s, some (.outside (.lock (.dialed n))))
  | .dial n, .fail => some (s, some (.outside (.lock (.failConnectAttempt n))))
  | .handleHandshake n, .go =>
    -- a handshake that succeeds after the context has ended is a failure
    if n ∈ s.cancelled then some (s, some (.outside (.lock (.failConnectAttempt n))))
    else some (s, some (.outside (.lock (.publish n))))
  | .handleHandshake n, .fail => some (s, some (.outside (.lock (.failConnectAttempt n))))
  | .deferred n, _ =>
    some ({ s with cancelled := insert n s.cancelled, finished := insert n s.finished }, none)
  | .wait n, _ =>
    if n ∈ s.finished then
      some ({ s with record.awaited := n :: s.record.awaited }, none)
    else none
  | .holder g, _ => if g ∈ s.started then some (s, some (.outside (.closeOnce g))) else none
  | .closeOnce g, _ =>
    -- `Do` runs its function once, and who comes while it runs waits
    if g ∈ s.closed then some (s, none)
    else if g ∈ s.closing then none
    else some ({ s with closing := insert g s.closing }, some (.outside (.lock (.clear g))))
  | .cleared g callback, _ =>
    some ({ s with closed := insert g s.closed },
      if callback then some (.outside (.callback g)) else none)
  | .callback g, _ => some ({ s with record.callbacks := g :: s.record.callbacks }, none)
  | .expire n, _ => some ({ s with cancelled := insert n s.cancelled }, none)

/-- One step of a goroutine. -/
def step (s : Shared) : Point → Choice → Option (Shared × Option Point)
  | .outside o, choice => stepOutside s o choice
  | .entered part, _ => some (s, some (.body (enter s part).1 (enter s part).2))
  | .body (a :: todo) next, _ => some (a.exec s, some (.body todo next))
  | .body [] next, _ => some ({ s with connMutex := false }, next.map .outside)

/-- The client: `ConnectTo`, `Disconnect` and `OnDisconnected` are called at any time, and
contexts end and generations are closed at any time. -/
def connection : Program Shared Point Choice where
  start := {}
  main := 0
  entry
    | .outside (.lock .connect) | .outside (.lock .disconnect)
    | .outside (.lock (.onDisconnected _)) | .outside (.holder _) | .outside (.expire _) => true
    | _ => false
  step := step

/-! ## Points -/

def Section.closes : Section → Option ℕ
  | .clear g => some g
  | _ => none

def Outside.closes : Outside → Option ℕ
  | .lock part => part.closes
  | .closeOnce g | .cleared g _ | .callback g => some g
  | _ => none

/-- A generation whose `closeOnce` was entered. -/
def Outside.clears : Outside → Option ℕ
  | .lock part => part.closes
  | .cleared g _ | .callback g => some g
  | _ => none

/-- A generation for which `onDisconnected` is to be called. -/
def Outside.calls : Outside → Option ℕ
  | .cleared g true | .callback g => some g
  | _ => none

/-- An attempt that is waited for. -/
def Outside.awaits : Outside → Option ℕ
  | .wait n => some n
  | _ => none

namespace Point

/-- The goroutine holds `connMutex`. -/
def inside : Point → Bool
  | .outside _ => false
  | .entered _ | .body _ _ => true

/-- The statements to go. -/
def todo : Point → List Assign
  | .body todo _ => todo
  | _ => []

/-- Where the goroutine is, or goes when it unlocks. -/
def next : Point → Option Outside
  | .outside o => some o
  | .entered _ => none
  | .body _ next => next

/-- The generation that the goroutine is closing in `disconnectGeneration`. -/
def closes : Point → Option ℕ
  | .outside o => o.closes
  | .entered part => part.closes
  | .body _ next => next.bind Outside.closes

/-- The generation whose `closeOnce` the goroutine has entered. -/
def clears : Point → Option ℕ
  | .outside o => o.clears
  | .entered part => part.closes
  | .body _ next => next.bind Outside.clears

end Point

/-! ## What a step does -/

/-- What a critical section comes to. -/
inductive Enters (s : Shared) : Section → List Assign → Option Outside → Prop
  | refuse : Enters s .connect [] none
  | accept (hstate : s.guarded.state = .idle) :
      Enters s .connect
        [.newAttempt, .attempt (some s.guarded.attempts), .state .connecting]
        (some (.dial s.guarded.attempts))
  | superseded {n} : Enters s (.dialed n) [] (some (.deferred n))
  | dialed {n} : Enters s (.dialed n) [] (some (.handleHandshake n))
  | late {n} : Enters s (.publish n) [] (some (.lock (.failConnectAttempt n)))
  | publish {n} (hattempt : s.guarded.attempt = some n) (hlive : n ∉ s.cancelled) :
      Enters s (.publish n)
        [.current (some n), .connected true, .state .connected, .attempt none,
          .startGenerationLoops n] (some (.deferred n))
  | fail {n} (hattempt : s.guarded.attempt = some n) :
      Enters s (.failConnectAttempt n) [.attempt none, .state .idle, .connected false]
        (some (.deferred n))
  | failed {n} : Enters s (.failConnectAttempt n) [] (some (.deferred n))
  | cancel {n} (hattempt : s.guarded.attempt = some n) :
      Enters s .disconnect [.cancel n] (some (.wait n))
  | disconnect : Enters s .disconnect [] (s.guarded.current.map .closeOnce)
  | clear {g} (hcurrent : s.guarded.current = some g) :
      Enters s (.clear g) [.current none, .state .idle, .connected false]
        (some (.cleared g s.guarded.onDisconnected))
  | stale {g} : Enters s (.clear g) [] (some (.cleared g false))
  | onDisconnected {callback} : Enters s (.onDisconnected callback) [.onDisconnected callback] none

variable (s : Shared) (a : Assign)

theorem enter_enters (part : Section) : Enters s part (enter s part).1 (enter s part).2 := by
  cases part with
  | connect =>
    simp only [enter]
    split
    · exact .refuse
    · exact .refuse
    · next hidle => exact .accept hidle
  | dialed =>
    simp only [enter]
    split
    · exact .superseded
    · exact .dialed
  | publish =>
    simp only [enter]
    split
    · exact .late
    · next hgo =>
      simp only [not_or, not_not] at hgo
      exact .publish hgo.1 hgo.2.2
  | failConnectAttempt =>
    simp only [enter]
    split
    · next hattempt => exact .fail hattempt
    · exact .failed
  | disconnect =>
    simp only [enter]
    split
    · next hattempt => exact .cancel hattempt
    · exact .disconnect
  | clear =>
    simp only [enter]
    split
    · next hcurrent => exact .clear hcurrent
    · exact .stale
  | onDisconnected => exact .onDisconnected

/-- A goroutine goes from one point to the next. -/
inductive Moves (s : Shared) : Point → Shared → Option Point → Prop
  | acquire {part} (free : s.connMutex = false) :
      Moves s (.outside (.lock part))
        { s with connMutex := true, record.found := s.guarded.current } (some (.entered part))
  | enter {part todo next} (henter : Enters s part todo next) :
      Moves s (.entered part) s (some (.body todo next))
  | assign {a todo next} : Moves s (.body (a :: todo) next) (a.exec s) (some (.body todo next))
  | release {next} : Moves s (.body [] next) { s with connMutex := false } (next.map .outside)
  /-- Nothing shared changes. -/
  | lock {o part} (hpart : part.closes = none) :
      Moves s (.outside o) s (some (.outside (.lock part)))
  | hold {g} (hstarted : g ∈ s.started) :
      Moves s (.outside (.holder g)) s (some (.outside (.closeOnce g)))
  | again {g} (hclosed : g ∈ s.closed) : Moves s (.outside (.closeOnce g)) s none
  | once {g} (hfirst : g ∉ s.closing) :
      Moves s (.outside (.closeOnce g)) { s with closing := insert g s.closing }
        (some (.outside (.lock (.clear g))))
  | leave {g} : Moves s (.outside (.cleared g false)) { s with closed := insert g s.closed } none
  | leaveCalling {g} :
      Moves s (.outside (.cleared g true)) { s with closed := insert g s.closed }
        (some (.outside (.callback g)))
  | callback {g} :
      Moves s (.outside (.callback g))
        { s with record.callbacks := g :: s.record.callbacks } none
  | finish {n} :
      Moves s (.outside (.deferred n))
        { s with cancelled := insert n s.cancelled, finished := insert n s.finished } none
  | wait {n} (hfinished : n ∈ s.finished) :
      Moves s (.outside (.wait n)) { s with record.awaited := n :: s.record.awaited } none
  | expire {n} :
      Moves s (.outside (.expire n)) { s with cancelled := insert n s.cancelled } none

/-- **What a step does.** -/
theorem step_moves {s s' : Shared} {p : Point} {p' : Option Point} {choice : Choice}
    (h : step s p choice = some (s', p')) : Moves s p s' p' := by
  cases p with
  | entered part =>
    cases h
    exact .enter (enter_enters s part)
  | body todo =>
    cases todo with
    | nil =>
      cases h
      exact .release
    | cons =>
      cases h
      exact .assign
  | outside o =>
    cases o with
    | lock =>
      obtain ⟨hfree, ⟨⟩⟩ := ite_none_left_eq_some.mp h
      exact .acquire (Bool.not_eq_true _ ▸ hfree)
    | dial =>
      cases choice <;> cases h
      · exact .lock rfl
      · exact .lock rfl
    | handleHandshake =>
      cases choice with
      | go =>
        simp only [step, stepOutside] at h
        split at h <;> cases h
        · exact .lock rfl
        · exact .lock rfl
      | fail =>
        cases h
        exact .lock rfl
    | deferred =>
      cases h
      exact .finish
    | wait =>
      obtain ⟨hfinished, ⟨⟩⟩ := ite_none_right_eq_some.mp h
      exact .wait hfinished
    | holder =>
      obtain ⟨hstarted, ⟨⟩⟩ := ite_none_right_eq_some.mp h
      exact .hold hstarted
    | closeOnce =>
      simp only [step, stepOutside] at h
      split at h
      · next hclosed =>
        cases h
        exact .again hclosed
      · obtain ⟨hfirst, ⟨⟩⟩ := ite_none_left_eq_some.mp h
        exact .once hfirst
    | cleared g callback =>
      cases callback <;> cases h
      · exact .leave
      · exact .leaveCalling
    | callback =>
      cases h
      exact .callback
    | expire =>
      cases h
      exact .expire

theorem Assign.exec_guarded : (a.exec s).guarded = a.run s.guarded := by
  cases a <;> rfl

theorem Assign.exec_connMutex : (a.exec s).connMutex = s.connMutex := by
  cases a <;> rfl

theorem Assign.exec_record : (a.exec s).record = s.record := by
  cases a <;> rfl

theorem Assign.exec_closing : (a.exec s).closing = s.closing := by
  cases a <;> rfl

theorem Assign.exec_finished : (a.exec s).finished = s.finished := by
  cases a <;> rfl

theorem Assign.became_run (f : Guarded) (a : Assign) (n : ℕ) :
    n ∈ (a.run f).became ↔ n ∈ f.became ∨ a = .current (some n) := by
  cases a with
  | current g =>
    cases g with
    | none => simp [run]
    | some => simp [run, or_comm, eq_comm]
  | _ => simp [run]

namespace Moves

variable {s s' : Shared} {p : Point} {p' : Option Point}

section

variable (h : Moves s p s' p')
include h

theorem guarded_eq (hp : p.todo = []) : s'.guarded = s.guarded := by
  cases h with
  | assign => cases hp
  | _ => rfl

theorem found_eq (htaken : s.connMutex = true) : s'.record.found = s.record.found := by
  cases h with
  | acquire free => cases free.symm.trans htaken
  | assign => rw [Assign.exec_record]
  | _ => rfl

theorem became_mono : s.guarded.became ⊆ s'.guarded.became := by
  intro n hn
  cases h with
  | assign =>
    rw [Assign.exec_guarded]
    exact (Assign.became_run _ _ _).mpr (.inl hn)
  | _ => exact hn

theorem cancelled_mono : s.cancelled ⊆ s'.cancelled := by
  intro n hn
  cases h with
  | @assign a =>
    cases a with
    | cancel => exact Finset.mem_insert_of_mem hn
    | _ => exact hn
  | finish | expire => exact Finset.mem_insert_of_mem hn
  | _ => exact hn

theorem finished_mono : s.finished ⊆ s'.finished := by
  intro n hn
  cases h with
  | assign =>
    rw [Assign.exec_finished]
    exact hn
  | finish => exact Finset.mem_insert_of_mem hn
  | _ => exact hn

end

end Moves

variable {s s' : Shared} {p q : Point} {p' : Option Point} {rest : Multiset Point}
  {c : Config Shared Point}

theorem connMutex_mutex : connection.Mutex Shared.connMutex Point.inside where
  start := rfl
  main := nofun
  call p hentry := by
    cases p with
    | outside => rfl
    | _ => cases hentry
  step s p choice s' p' hstep hlocked := by
    cases step_moves hstep with
    | acquire free =>
      rw [free]
      rfl
    | assign =>
      rw [Assign.exec_connMutex]
      rfl
    | @release next =>
      rw [hlocked rfl]
      cases next <;> rfl
    | _ => rfl

theorem todo_of_other (h : connection.Reachable ⟨s, p ::ₘ rest⟩) (hq : q ∈ rest)
    (hinside : q.inside = true) : p.todo = [] := by
  cases p with
  | outside => rfl
  | entered => rfl
  | body => cases (connMutex_mutex.alone h rfl hq).symm.trans hinside

end Pitaya.Client.Connection
