import Pitaya.Cluster.Cache
import Pitaya.Foundations.Threads

/-!
# The goroutines of the service discovery

`SyncServers`, the loops of `Init` and `Shutdown` of `cluster/etcd_service_discovery.go`,
statement by statement and in any interleaving.  A snapshot that etcd returns, the
responses of a watch and the moment at which they come are arbitrary; a callback of a
listener takes as long as it likes.

* `Moves` — every transition, once; `step_moves` is the inversion.
* `reconcileMu_mutex` — who reads the context, changes the cache and tells the listeners
  does so under `reconcileMu`.
* `Moves.working` — who changes the cache has found the context alive under the lock.

`Init` is its parts: `running`, a call of `SyncServers` for `bootstrap`, the two
`loops.Go`, and what it does if `bootstrap` fails; they may come in any order.  A lease that
is renewed is a call of `SyncServers` too.
-/

namespace Pitaya.Cluster.Lifecycle

open Discovery Ranges Revisions Threads Option

/-! ## State -/

/-- `sync.Once`. -/
inductive StopOnce where
  | fresh
  | running
  | done
  deriving DecidableEq, Repr

/-- `etcdServiceDiscovery`.  `called` are the callbacks that have been started, `results`
what calls of `SyncServers` from outside the loops returned, and `shutdowns` the number of
calls of `Shutdown` that have returned; `atLock` is the state in which `reconcileMu` was
locked last. -/
structure Shared where
  sd : Discovery := {}
  reconcileMu : Bool := false
  listeners : List ℕ := []
  running : Bool := false
  stopOnce : StopOnce := .fresh
  stopChan : Bool := false
  loops : ℕ := 0
  called : List (ℕ × ServerChange) := []
  results : List (Except SyncError Unit) := []
  shutdowns : ℕ := 0
  atLock : Discovery := {}

/-- Who calls `syncServersLocked`. -/
inductive Caller where
  /-- `SyncServers`, from anywhere but the loops. -/
  | external
  /-- `SyncServers`, from the loop of `Init`. -/
  | ticker
  /-- `watchEtcdChanges`. -/
  | watch
  deriving DecidableEq, Repr

/-- The two critical sections of `reconcileMu` that change the cache. -/
inductive Section where
  | sync (caller : Caller)
  | response
  deriving DecidableEq, Repr

/-- The next statement of a goroutine. -/
inductive Point where
  /-- `SyncServers`, `watchEtcdChanges`: before `reconcileMu.Lock`. -/
  | syncLock (caller : Caller)
  /-- `syncServersLocked`: `Get`. -/
  | get (caller : Caller)
  /-- `syncServersLocked`: before the context is checked. -/
  | syncCheck (caller : Caller) (snapshot : Snapshot)
  /-- `syncServersLocked`: before the revisions are compared. -/
  | compare (caller : Caller) (snapshot : Snapshot)
  /-- `syncServersLocked`: the loop that stores. -/
  | store (caller : Caller) (revision : ℕ) (servers : Finmap fun _ : Bytes => Server)
      (todo : List Bytes) (changes : List ServerChange)
  /-- `syncServersLocked`: the loop that removes. -/
  | remove (caller : Caller) (revision : ℕ) (servers : Finmap fun _ : Bytes => Server)
      (todo : List Bytes) (changes : List ServerChange)
  /-- `applyWatchResponse`: before `reconcileMu.Lock`. -/
  | responseLock (events : List (Revisions.Event Bytes Bytes))
  /-- `applyWatchResponse`: before the context is checked. -/
  | responseCheck (events : List (Revisions.Event Bytes Bytes))
  /-- `applyWatchResponse`: the loop over the events. -/
  | events (boundary revision : ℕ) (todo : List (Revisions.Event Bytes Bytes))
      (changes : List ServerChange)
  /-- Before `appliedRevision` is assigned. -/
  | revise (of : Section) (revision : ℕ) (changes : List ServerChange)
  /-- `notifyChanges`: the loop over the changes. -/
  | notify (of : Section) (changes : List ServerChange)
  /-- `notifyListeners`: before the listeners are copied. -/
  | copy (of : Section) (change : ServerChange) (changes : List ServerChange)
  /-- `notifyListeners`: the loop over the listeners. -/
  | call (of : Section) (change : ServerChange) (todo : List ℕ) (changes : List ServerChange)
  /-- `notifyListeners`: in `AddServer`, `ModifyServer` or `RemoveServer` of a listener. -/
  | callback (of : Section) (change : ServerChange) (listener : ℕ) (todo : List ℕ)
      (changes : List ServerChange)
  /-- Before `reconcileMu.Unlock`. -/
  | unlock (of : Section) (result : Except SyncError Unit)
  /-- `Init`: before `loops.Go(sd.watchEtcdChanges)`. -/
  | goWatch
  /-- `watchEtcdChanges`: the condition of the loop. -/
  | watchTop
  /-- `watchEtcdChanges`: before `Watch`. -/
  | openWatch (revision : ℕ)
  /-- `watchEtcdChanges`: the `select` on the watch and the context. -/
  | consume
  /-- `watchEtcdChanges`: the `select` on the timer and the context. -/
  | timer
  /-- `Init`: before the `loops.Go` of the ticker. -/
  | goTicker
  /-- `Init`: the condition of the loop of the ticker. -/
  | tickerTop
  /-- `Init`: the `select` on the ticker and `stopChan`. -/
  | tickerSelect
  /-- `Init`: before `running` is set. -/
  | init
  /-- `Init`: `bootstrap` has failed, before `running` is cleared. -/
  | initFailed
  /-- `Init`: `bootstrap` has failed, before `cancel`. -/
  | initCancel
  | addListener (listener : ℕ)
  | beforeShutdown
  /-- `Shutdown`: before `stopOnce.Do`. -/
  | shutdown
  /-- `Shutdown`: in `stopOnce.Do`, before `running` is cleared. -/
  | stopRunning
  /-- `Shutdown`: in `stopOnce.Do`, before `cancel`. -/
  | stopCancel
  /-- `Shutdown`: in `stopOnce.Do`, before `stopChan` is closed. -/
  | stopClose
  /-- `Shutdown`: before `loops.Wait`. -/
  | wait
  /-- `Shutdown`: before `reconcileMu.Lock`. -/
  | join
  /-- `Shutdown`: before `reconcileMu.Unlock`. -/
  | joined
  deriving DecidableEq

/-- What a step leaves open. -/
inductive Choice where
  /-- The next statement. -/
  | go
  /-- The branch of a `select` on the context, or on `stopChan`. -/
  | done
  /-- What `Get` returns. -/
  | reply (reply : Except Bytes Snapshot)
  /-- The order in which a loop visits a map. -/
  | order (ids : List Bytes)
  /-- A response of the watch. -/
  | response (events : List (Revisions.Event Bytes Bytes))
  /-- The watch is closed, or failed. -/
  | closed
  /-- The branch of a `select` on a ticker or a timer. -/
  | tick
  deriving DecidableEq

/-! ## Steps -/

/-- The state after a statement, and where the goroutine is then; `none` is the end of the
goroutine.  The outer `none` says that the statement blocks. -/
abbrev Result : Type := Option (Shared × Option Point)

namespace Shared

/-- `reconcileMu.Lock`. -/
def lock (s : Shared) (next : Point) : Result :=
  if s.reconcileMu then none else some ({ s with reconcileMu := true, atLock := s.sd }, some next)

/-- A goroutine of `loops` ends. -/
def exit (s : Shared) : Result := some ({ s with loops := s.loops - 1 }, none)

def cancel (s : Shared) : Shared := { s with sd := { s.sd with cancelled := true } }

end Shared

variable (cfg : Config)

/-- One statement of one goroutine. -/
def step (s : Shared) : Point → Choice → Result
  -- syncServersLocked
  | .syncLock caller, .go => s.lock (.get caller)
  | .get caller, .reply (.error text) =>
    some (s, some (.unlock (.sync caller) (.error (.etcd text))))
  | .get caller, .reply (.ok snapshot) => some (s, some (.syncCheck caller snapshot))
  | .syncCheck caller snapshot, .go =>
    if s.sd.cancelled then some (s, some (.unlock (.sync caller) (.error .contextCanceled)))
    else some (s, some (.compare caller snapshot))
  | .compare caller snapshot, .order stores =>
    if snapshot.revision < s.sd.appliedRevision then
      some (s, some (.unlock (.sync caller) (.ok ())))
    else
      let servers := readSnapshot cfg s.sd snapshot.kvs
      if VisitsKeys servers stores then
        some (s, some (.store caller snapshot.revision servers stores []))
      else none
  | .store caller revision servers (id :: todo) changes, .go =>
    let r := storeVisit cfg servers (s.sd, changes) id
    some ({ s with sd := r.1 }, some (.store caller revision servers todo r.2))
  | .store caller revision servers [] changes, .order removes =>
    if VisitsKeys s.sd.serverMapByID removes then
      some (s, some (.remove caller revision servers removes changes))
    else none
  | .remove caller revision servers (id :: todo) changes, .go =>
    let r := removeVisit servers (s.sd, changes) id
    some ({ s with sd := r.1 }, some (.remove caller revision servers todo r.2))
  | .remove caller revision _ [] changes, .go =>
    some (s, some (.revise (.sync caller) revision changes))
  -- applyWatchResponse
  | .responseLock events, .go => s.lock (.responseCheck events)
  | .responseCheck events, .go =>
    if s.sd.cancelled then some (s, some (.unlock .response (.ok ())))
    else some (s, some (.events s.sd.appliedRevision s.sd.appliedRevision events []))
  | .events boundary revision (e :: todo) changes, .go =>
    let b := watchVisit cfg boundary ⟨s.sd, revision, changes⟩ e
    some ({ s with sd := b.sd }, some (.events boundary b.revision todo b.changes))
  | .events _ revision [] changes, .go => some (s, some (.revise .response revision changes))
  | .revise of revision changes, .go =>
    some ({ s with sd := { s.sd with appliedRevision := revision } }, some (.notify of changes))
  -- notifyChanges and notifyListeners
  | .notify of [], .go => some (s, some (.unlock of (.ok ())))
  | .notify of (change :: changes), .go =>
    if change.action = .del ∨ change.server.id ≠ cfg.server.id then
      some ({ s with sd := { s.sd with notified := s.sd.notified ++ [change] } },
        some (.copy of change changes))
    else some (s, some (.notify of changes))
  | .copy of change changes, .go => some (s, some (.call of change s.listeners changes))
  | .call of _ [] changes, .go => some (s, some (.notify of changes))
  | .call of change (l :: todo) changes, .go =>
    some ({ s with called := s.called ++ [(l, change)] },
      some (.callback of change l todo changes))
  | .callback of change _ todo changes, .go => some (s, some (.call of change todo changes))
  | .unlock of result, .go => some (unlocks of result)
  -- watchEtcdChanges
  | .goWatch, .go => some ({ s with loops := s.loops + 1 }, some .watchTop)
  | .watchTop, .go => if s.sd.cancelled then s.exit else some (s, some (.syncLock .watch))
  | .openWatch _, .go => some (s, some .consume)
  | .consume, .response events => some (s, some (.responseLock events))
  | .consume, .closed => some (s, some .timer)
  | .consume, .done => if s.sd.cancelled then some (s, some .timer) else none
  | .timer, .tick => some (s, some .watchTop)
  | .timer, .done => if s.sd.cancelled then s.exit else none
  -- the other loop of Init
  | .goTicker, .go => some ({ s with loops := s.loops + 1 }, some .tickerTop)
  | .tickerTop, .go => if s.running then some (s, some .tickerSelect) else s.exit
  | .tickerSelect, .tick => some (s, some (.syncLock .ticker))
  | .tickerSelect, .done => if s.stopChan then s.exit else none
  | .init, .go => some ({ s with running := true }, none)
  | .initFailed, .go => some ({ s with running := false }, some .initCancel)
  | .initCancel, .go => some (s.cancel, none)
  | .addListener l, .go => some ({ s with listeners := s.listeners ++ [l] }, none)
  | .beforeShutdown, .go => some ({ s with listeners := [] }, none)
  -- Shutdown
  | .shutdown, .go =>
    match s.stopOnce with
    | .fresh => some ({ s with stopOnce := .running }, some .stopRunning)
    | .running => none
    | .done => some (s, some .wait)
  | .stopRunning, .go => some ({ s with running := false }, some .stopCancel)
  | .stopCancel, .go => some (s.cancel, some .stopClose)
  | .stopClose, .go => some ({ s with stopChan := true, stopOnce := .done }, some .wait)
  | .wait, .go => if s.loops = 0 then some (s, some .join) else none
  | .join, .go => s.lock .joined
  | .joined, .go => some ({ s with reconcileMu := false, shutdowns := s.shutdowns + 1 }, none)
  | _, _ => none
where
  /-- `reconcileMu.Unlock`, and where its caller goes on. -/
  unlocks (of : Section) (result : Except SyncError Unit) : Shared × Option Point :=
    let s := { s with reconcileMu := false }
    match of, result with
    | .sync .external, result => ({ s with results := s.results ++ [result] }, none)
    | .sync .ticker, _ => (s, some .tickerTop)
    | .sync .watch, .ok _ => (s, some (.openWatch s.sd.appliedRevision))
    | .sync .watch, .error _ => (s, some .timer)
    | .response, _ => (s, some .consume)

/-- The goroutines of a service discovery and the calls on it. -/
def lifecycle : Program Shared Point Choice where
  start := {}
  main := 0
  entry
    | .syncLock .external => true
    | .goWatch | .goTicker | .init | .initFailed => true
    | .addListener _ | .beforeShutdown => true
    | .shutdown => true
    | _ => false
  step := step cfg

/-! ## What a step does -/

/-- A goroutine has the lock `reconcileMu`. -/
def Point.locked : Point → Bool
  | .get _ | .syncCheck _ _ | .compare _ _ | .store _ _ _ _ _ | .remove _ _ _ _ _
  | .responseCheck _ | .events _ _ _ _ | .revise _ _ _ | .notify _ _ | .copy _ _ _
  | .call _ _ _ _ | .callback _ _ _ _ _ | .unlock _ _ | .joined => true
  | _ => false

/-- A goroutine has found the context alive, and may change the cache or call a listener. -/
def Point.working : Point → Bool
  | .compare _ _ | .store _ _ _ _ _ | .remove _ _ _ _ _ | .events _ _ _ _ | .revise _ _ _
  | .notify _ _ | .copy _ _ _ | .call _ _ _ _ | .callback _ _ _ _ _ => true
  | _ => false

/-- `Shutdown` has cancelled the context. -/
def Point.stopped : Point → Bool
  | .stopClose | .wait | .join | .joined => true
  | _ => false

/-- The fields that only the critical sections and `Shutdown` assign. -/
structure Same (s s' : Shared) : Prop where
  sd : s'.sd = s.sd
  reconcileMu : s'.reconcileMu = s.reconcileMu
  stopOnce : s'.stopOnce = s.stopOnce
  called : s'.called = s.called
  shutdowns : s'.shutdowns = s.shutdowns
  atLock : s'.atLock = s.atLock

theorem Same.frame (s : Shared) (listeners : List ℕ) (running stopChan : Bool) (loops : ℕ)
    (results : List (Except SyncError Unit)) :
    Same s { s with listeners, running, stopChan, loops, results } :=
  ⟨rfl, rfl, rfl, rfl, rfl, rfl⟩

/-- A goroutine moves from one point to the next. -/
inductive Moves (s : Shared) : Point → Shared → Option Point → Prop
  /-- Outside the critical sections. -/
  | idle {p s' p'} (same : Same s s') (outside : p.locked = false)
      (next : ∀ q, p' = some q → q.locked = false ∧ (q.stopped = true → p.stopped = true)) :
      Moves s p s' p'
  -- `reconcileMu.Lock`
  | lock {p q} (free : s.reconcileMu = false)
      (enters : (∃ caller, p = .syncLock caller ∧ q = .get caller) ∨
        (∃ events, p = .responseLock events ∧ q = .responseCheck events) ∨
        p = .join ∧ q = .joined) :
      Moves s p { s with reconcileMu := true, atLock := s.sd } (some q)
  -- `syncServersLocked`
  | getFailed {caller text} :
      Moves s (.get caller) s (some (.unlock (.sync caller) (.error (.etcd text))))
  | got {caller snapshot} : Moves s (.get caller) s (some (.syncCheck caller snapshot))
  | syncCancelled {caller snapshot} (cancelled : s.sd.cancelled = true) :
      Moves s (.syncCheck caller snapshot) s
        (some (.unlock (.sync caller) (.error .contextCanceled)))
  | syncAlive {caller snapshot} (alive : s.sd.cancelled = false) :
      Moves s (.syncCheck caller snapshot) s (some (.compare caller snapshot))
  | stale {caller snapshot} (stale : snapshot.revision < s.sd.appliedRevision) :
      Moves s (.compare caller snapshot) s (some (.unlock (.sync caller) (.ok ())))
  | read {caller snapshot stores} (fresh : ¬ snapshot.revision < s.sd.appliedRevision)
      (visits : VisitsKeys (readSnapshot cfg s.sd snapshot.kvs) stores) :
      Moves s (.compare caller snapshot) s
        (some (.store caller snapshot.revision (readSnapshot cfg s.sd snapshot.kvs) stores []))
  | store {caller revision servers id todo changes} :
      Moves s (.store caller revision servers (id :: todo) changes)
        { s with sd := (storeVisit cfg servers (s.sd, changes) id).1 }
        (some (.store caller revision servers todo (storeVisit cfg servers (s.sd, changes) id).2))
  | stored {caller revision servers removes changes}
      (visits : VisitsKeys s.sd.serverMapByID removes) :
      Moves s (.store caller revision servers [] changes) s
        (some (.remove caller revision servers removes changes))
  | remove {caller revision servers id todo changes} :
      Moves s (.remove caller revision servers (id :: todo) changes)
        { s with sd := (removeVisit servers (s.sd, changes) id).1 }
        (some (.remove caller revision servers todo (removeVisit servers (s.sd, changes) id).2))
  | removed {caller revision servers changes} :
      Moves s (.remove caller revision servers [] changes) s
        (some (.revise (.sync caller) revision changes))
  -- `applyWatchResponse`
  | responseCancelled {events} (cancelled : s.sd.cancelled = true) :
      Moves s (.responseCheck events) s (some (.unlock .response (.ok ())))
  | responseAlive {events} (alive : s.sd.cancelled = false) :
      Moves s (.responseCheck events) s
        (some (.events s.sd.appliedRevision s.sd.appliedRevision events []))
  | event {boundary revision e todo changes} :
      Moves s (.events boundary revision (e :: todo) changes)
        { s with sd := (watchVisit cfg boundary ⟨s.sd, revision, changes⟩ e).sd }
        (some (.events boundary (watchVisit cfg boundary ⟨s.sd, revision, changes⟩ e).revision todo
          (watchVisit cfg boundary ⟨s.sd, revision, changes⟩ e).changes))
  | eventsDone {boundary revision changes} :
      Moves s (.events boundary revision [] changes) s (some (.revise .response revision changes))
  -- the revision and the listeners
  | revise {of revision changes} :
      Moves s (.revise of revision changes)
        { s with sd := { s.sd with appliedRevision := revision } } (some (.notify of changes))
  | notified {of} : Moves s (.notify of []) s (some (.unlock of (.ok ())))
  | tell {of change changes}
      (notifiable : change.action = .del ∨ change.server.id ≠ cfg.server.id) :
      Moves s (.notify of (change :: changes))
        { s with sd := { s.sd with notified := s.sd.notified ++ [change] } }
        (some (.copy of change changes))
  | skip {of change changes} (own : ¬ (change.action = .del ∨ change.server.id ≠ cfg.server.id)) :
      Moves s (.notify of (change :: changes)) s (some (.notify of changes))
  | copy {of change changes} :
      Moves s (.copy of change changes) s (some (.call of change s.listeners changes))
  | told {of change changes} : Moves s (.call of change [] changes) s (some (.notify of changes))
  | call {of change l todo changes} :
      Moves s (.call of change (l :: todo) changes)
        { s with called := s.called ++ [(l, change)] } (some (.callback of change l todo changes))
  | callback {of change l todo changes} :
      Moves s (.callback of change l todo changes) s (some (.call of change todo changes))
  | unlock {of result s' p'} (same : Same { s with reconcileMu := false } s')
      (next : ∀ q, p' = some q → q.locked = false ∧ q.stopped = false) :
      Moves s (.unlock of result) s' p'
  -- `Shutdown`
  | stopFirst (fresh : s.stopOnce = .fresh) :
      Moves s .shutdown { s with stopOnce := .running } (some .stopRunning)
  | stopAgain (done : s.stopOnce = .done) : Moves s .shutdown s (some .wait)
  | cancel {p p'} (cancels : p = .stopCancel ∧ p' = some .stopClose ∨ p = .initCancel ∧ p' = none) :
      Moves s p s.cancel p'
  | stopClose :
      Moves s .stopClose { s with stopChan := true, stopOnce := .done } (some .wait)
  | joined :
      Moves s .joined { s with reconcileMu := false, shutdowns := s.shutdowns + 1 } none

variable {cfg} {s s' : Shared} {p : Point} {p' : Option Point} {choice : Choice}

theorem Shared.lock_eq_some {next : Point} (h : s.lock next = some (s', p')) :
    s.reconcileMu = false ∧ s' = { s with reconcileMu := true, atLock := s.sd } ∧
      p' = some next := by
  unfold Shared.lock at h
  split at h
  · cases h
  · next free =>
    cases h
    exact ⟨eq_false_of_ne_true free, rfl, rfl⟩

theorem Moves.idle_to {q : Point} (same : Same s s') (outside : p.locked = false)
    (next : q.locked = false ∧ (q.stopped = true → p.stopped = true)) :
    Moves cfg s p s' (some q) :=
  .idle same outside fun q' h => by
    obtain rfl := some.inj h
    exact next

theorem Moves.idle_end (same : Same s s') (outside : p.locked = false) :
    Moves cfg s p s' none :=
  .idle same outside fun _ h => by cases h

theorem Moves.exit (h : s.exit = some (s', p')) (outside : p.locked = false) :
    Moves cfg s p s' p' := by
  cases h
  exact .idle_end (.frame ..) outside

theorem unlocks_moves {of : Section} {result : Except SyncError Unit}
    (h : step.unlocks s of result = (s', p')) : Moves cfg s (.unlock of result) s' p' := by
  have hnext {q : Point} (hq : q.locked = false ∧ q.stopped = false) :
      ∀ q', some q = some q' → q'.locked = false ∧ q'.stopped = false := by
    rintro _ ⟨⟩
    exact hq
  cases of with
  | response => cases h; exact .unlock (.frame ..) (hnext ⟨rfl, rfl⟩)
  | sync caller =>
    cases caller with
    | external => cases h; exact .unlock (.frame ..) fun _ h => by cases h
    | ticker => cases h; exact .unlock (.frame ..) (hnext ⟨rfl, rfl⟩)
    | watch => cases result <;> (cases h; exact .unlock (.frame ..) (hnext ⟨rfl, rfl⟩))

/-- **What a step does.** -/
theorem step_moves (h : step cfg s p choice = some (s', p')) : Moves cfg s p s' p' := by
  cases p with
  -- the critical sections
  | syncLock caller =>
    cases choice <;> try cases h
    obtain ⟨free, rfl, rfl⟩ := Shared.lock_eq_some h
    exact .lock free (.inl ⟨caller, rfl, rfl⟩)
  | responseLock events =>
    cases choice <;> try cases h
    obtain ⟨free, rfl, rfl⟩ := Shared.lock_eq_some h
    exact .lock free (.inr (.inl ⟨events, rfl, rfl⟩))
  | join =>
    cases choice <;> try cases h
    obtain ⟨free, rfl, rfl⟩ := Shared.lock_eq_some h
    exact .lock free (.inr (.inr ⟨rfl, rfl⟩))
  | get =>
    cases choice with
    | reply reply =>
      cases reply <;> cases h
      · exact .getFailed
      · exact .got
    | _ => cases h
  | syncCheck =>
    cases choice <;> try cases h
    simp only [step] at h
    split at h <;> cases h
    · next cancelled => exact .syncCancelled cancelled
    · next alive => exact .syncAlive (eq_false_of_ne_true alive)
  | responseCheck =>
    cases choice <;> try cases h
    simp only [step] at h
    split at h <;> cases h
    · next cancelled => exact .responseCancelled cancelled
    · next alive => exact .responseAlive (eq_false_of_ne_true alive)
  | compare =>
    cases choice <;> try cases h
    simp only [step] at h
    split at h
    · next stale =>
      cases h
      exact .stale stale
    · next fresh =>
      obtain ⟨visits, ⟨⟩⟩ := ite_none_right_eq_some.mp h
      exact .read fresh visits
  | store caller revision servers todo =>
    cases todo <;> cases choice <;> try cases h
    · obtain ⟨visits, ⟨⟩⟩ := ite_none_right_eq_some.mp h
      exact .stored visits
    · exact .store
  | remove caller revision servers todo =>
    cases todo <;> cases choice <;> cases h
    · exact .removed
    · exact .remove
  | events boundary revision todo =>
    cases todo <;> cases choice <;> cases h
    · exact .eventsDone
    · exact .event
  | notify of changes =>
    cases changes <;> cases choice <;> try cases h
    · exact .notified
    · simp only [step] at h
      split at h <;> cases h
      · next notifiable => exact .tell notifiable
      · next own => exact .skip own
  | call of change todo =>
    cases todo <;> cases choice <;> cases h
    · exact .told
    · exact .call
  | revise =>
    cases choice <;> cases h
    exact .revise
  | copy =>
    cases choice <;> cases h
    exact .copy
  | callback =>
    cases choice <;> cases h
    exact .callback
  | unlock =>
    cases choice <;> try cases h
    exact unlocks_moves (some.inj h)
  -- the loops
  | goWatch | openWatch | goTicker | initFailed | stopRunning =>
    cases choice <;> cases h
    exact .idle_to (.frame ..) rfl ⟨rfl, fun h => h⟩
  | init | addListener | beforeShutdown =>
    cases choice <;> cases h
    exact .idle_end (.frame ..) rfl
  | watchTop =>
    cases choice <;> try cases h
    simp only [step] at h
    split at h
    · exact .exit h rfl
    · cases h
      exact .idle_to (.frame ..) rfl ⟨rfl, fun h => h⟩
  | tickerTop =>
    cases choice <;> try cases h
    simp only [step] at h
    split at h
    · cases h
      exact .idle_to (.frame ..) rfl ⟨rfl, fun h => h⟩
    · exact .exit h rfl
  | consume =>
    cases choice <;> try cases h
    · obtain ⟨-, ⟨⟩⟩ := ite_none_right_eq_some.mp h
      exact .idle_to (.frame ..) rfl ⟨rfl, fun h => h⟩
    · exact .idle_to (.frame ..) rfl ⟨rfl, fun h => h⟩
    · exact .idle_to (.frame ..) rfl ⟨rfl, fun h => h⟩
  | timer | tickerSelect =>
    cases choice <;> try cases h
    · exact .exit (ite_none_right_eq_some.mp h).2 rfl
    · exact .idle_to (.frame ..) rfl ⟨rfl, fun h => h⟩
  -- `Shutdown`
  | shutdown =>
    cases choice <;> try cases h
    simp only [step] at h
    split at h <;> cases h
    · next fresh => exact .stopFirst fresh
    · next done => exact .stopAgain done
  | initCancel =>
    cases choice <;> cases h
    exact .cancel (.inr ⟨rfl, rfl⟩)
  | stopCancel =>
    cases choice <;> cases h
    exact .cancel (.inl ⟨rfl, rfl⟩)
  | stopClose =>
    cases choice <;> cases h
    exact .stopClose
  | wait =>
    cases choice <;> try cases h
    obtain ⟨-, ⟨⟩⟩ := ite_none_right_eq_some.mp h
    exact .idle_to (.frame ..) rfl ⟨rfl, fun h => h⟩
  | joined =>
    cases choice <;> cases h
    exact .joined

/-! ## The lock -/

variable {c : Threads.Config Shared Point} {rest : Multiset Point}

theorem Point.locked_of_working (h : p.working = true) : p.locked = true := by
  cases p <;> first | rfl | cases h

/-- A goroutine in a critical section has the mutex, and gives it up when it leaves. -/
theorem Moves.lock_conserved (h : Moves cfg s p s' p')
    (held : p.locked = true → s.reconcileMu = true) :
    s'.reconcileMu.toNat + p.locked.toNat
      = s.reconcileMu.toNat + p'.elim 0 fun q => q.locked.toNat := by
  cases h with
  | idle same outside next =>
    rw [same.reconcileMu, outside]
    cases p' with
    | none => rfl
    | some q =>
      change _ = _ + q.locked.toNat
      rw [(next q rfl).1]
  | lock free enters =>
    rw [free]
    rcases enters with ⟨caller, rfl, rfl⟩ | ⟨events, rfl, rfl⟩ | ⟨rfl, rfl⟩ <;> rfl
  | unlock same next =>
    rw [same.reconcileMu, held rfl]
    cases p' with
    | none => rfl
    | some q =>
      change _ = _ + q.locked.toNat
      rw [(next q rfl).1]
      rfl
  | cancel cancels =>
    rcases cancels with ⟨rfl, rfl⟩ | ⟨rfl, rfl⟩ <;> rfl
  | joined => rw [held rfl]; rfl
  | _ => rfl

/-- **Mutual exclusion**: `reconcileMu` is a lock. -/
theorem reconcileMu_mutex : (lifecycle cfg).Mutex Shared.reconcileMu Point.locked where
  start := rfl
  main p hp := by cases hp
  call p hentry := by
    cases p with
    | syncLock | goWatch | goTicker | init | initFailed | addListener | beforeShutdown
    | shutdown => rfl
    | _ => cases hentry
  step _ _ _ _ _ hstep hlocked := (step_moves hstep).lock_conserved hlocked

/-! ## The context -/

theorem Moves.cancelled (h : Moves cfg s p s' p') (hs : s.sd.cancelled = true) :
    s'.sd.cancelled = true := by
  cases h with
  | idle same | unlock same => rw [same.sd]; exact hs
  | store => exact (storeVisit_keeps _ _ _ _).trans hs
  | remove => exact (removeVisit_keeps _ _ _ _).trans hs
  | event => exact (watchVisit_keeps _ _ _).trans hs
  | cancel => rfl
  | _ => exact hs

theorem Moves.working {q : Point} (h : Moves cfg s p s' (some q)) (hq : q.working = true) :
    p.working = true ∨ p.locked = true ∧ s.sd.cancelled = false := by
  have houtside (hlocked : q.locked = false) :
      p.working = true ∨ p.locked = true ∧ s.sd.cancelled = false := by
    rw [Point.locked_of_working hq] at hlocked
    cases hlocked
  cases h with
  | idle same outside next | unlock same next => exact houtside (next q rfl).1
  | lock free enters =>
    rcases enters with ⟨caller, rfl, rfl⟩ | ⟨events, rfl, rfl⟩ | ⟨rfl, rfl⟩ <;> cases hq
  | syncAlive alive | responseAlive alive => exact .inr ⟨rfl, alive⟩
  | cancel cancels =>
    rcases cancels with ⟨rfl, hq'⟩ | ⟨rfl, hq'⟩
    · cases hq'; cases hq
    · cases hq'
  | getFailed | got | syncCancelled | responseCancelled | stopFirst | stopAgain | stopClose =>
    cases hq
  | _ => exact .inl rfl

end Pitaya.Cluster.Lifecycle
