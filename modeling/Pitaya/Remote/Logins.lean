import Pitaya.Foundations.Threads
import Pitaya.Session.Session

/-!
# Logins on several frontends

The sessions of all users on any number of frontends of one type.  A login is recorded in three
places: `Bind` writes the cluster store through the callback of `Sys` (`remote/sys.go`), registers
the session, and puts the binding in etcd through the callback of `ETCDBindingStorage`
(`modules/binding_storage.go`); the close callbacks of both undo it.  The callback of `Sys` also
notifies all frontends (`SessionBoundFork`), and `UniqueSession.OnUserBind` of
`modules/unique_session.go` kicks the session that is registered there.

* `Shared` — the sessions, which ones are registered, the notifications on their way, the leases,
  and the two stores.
* `Point` — the calls of `Bind`, of `Kick` and `Close`, and of `OnUserBind`, the agents that close
  by themselves, and the leases.
* `exec`, `next` — what a statement writes, and where the call goes on; `step` is both, and `logins`
  are the interleavings.
* `twoFrontends`, `binds`, `kicks`, `closes` — two frontends, and the events of undisturbed calls.

The stores do what they are asked to, except that `Hmset` may fail, and a binding is only put with a
lease that is alive.  The teardown in `agentImpl.Close` is entered in one step: it happens once.
`Sys` registers its callbacks before the modules do.
-/

namespace Pitaya.Logins

open Transition Threads Function

variable {F : Type} [DecidableEq F]

structure Setup (F : Type) where
  serverID : F → Bytes
  injective : Injective serverID
  ip : F → ℕ → Bytes

/-! ## State -/

/-- A session.  `chDie` is closed once its agent is torn down. -/
structure Login where
  uid : Bytes := []
  online : Bool := true
  encodedData : Bytes := []
  chDie : Bool := false
  closeMutex : Bool := false
  deriving DecidableEq

/-- `BindMsg`, on its way to a frontend. -/
structure Notification (F : Type) where
  uid : Bytes
  fid : F
  target : F
  deriving DecidableEq

/-- The key of a user's binding: the server it names and the lease it was put with. -/
structure Binding (F : Type) where
  frontendID : Bytes
  lease : F × ℕ
  deriving DecidableEq

/-- Everything: of a frontend its sessions by id, the one that `sessionsByUID` has for a user, and
the lease of its bindings; of a user the record in the cluster store and the binding, and the
sessions whose binding was put, latest first. -/
structure Shared (F : Type) where
  login : F × ℕ → Login := fun _ => {}
  sessionsByUID : F × Bytes → Option ℕ := fun _ => none
  leaseID : F → ℕ := fun _ => 0
  leased : F → Bool := fun _ => true
  /-- How often a notification is on its way. -/
  inFlight : Notification F → ℕ := fun _ => 0
  store : Bytes → Finmap fun _ : Bytes => Bytes := fun _ => ∅
  binding : Bytes → Option (Binding F) := fun _ => none
  bound : Bytes → List (F × ℕ) := fun _ => []

namespace Shared

/-- Change a session. -/
def modifyLogin (s : Shared F) (x : F × ℕ) (change : Login → Login) : Shared F :=
  { s with login := update s.login x (change (s.login x)) }

/-- The binding a frontend puts. -/
def bindingOf (S : Setup F) (s : Shared F) (f : F) : Binding F := ⟨S.serverID f, f, s.leaseID f⟩

end Shared

/-! ## Program points -/

/-- A call of `Bind`. -/
structure Bind (F : Type) where
  f : F
  sid : ℕ
  uid : Bytes
  deriving DecidableEq

/-- Where a call of `Bind` is. -/
inductive BindPoint where
  /-- Before the checks. -/
  | check
  /-- Before the uid and the data are assigned. -/
  | assign
  /-- The callbacks before that of `Sys`. -/
  | earlier
  /-- `Sys`: before `GetSessionByUID`. -/
  | getOld
  /-- `Sys`: `InitialFromCluster` and `SetData`. -/
  | initial
  /-- `FlushFrontendData`: before the fields are read. -/
  | flush
  /-- `FlushFrontendData`: before `Hmset`. -/
  | hmset (uid : Bytes) (online : Bool) (encodedData : Bytes)
  /-- `Sys`: before `Fork`. -/
  | fork
  /-- The callbacks after that of `Sys`. -/
  | later
  /-- Before the uid is taken back. -/
  | unbind
  /-- Before `sessionsByUID.Load`. -/
  | load
  /-- Before `sessionsByUID.Store`. -/
  | store
  /-- `PutBinding`: before the uid is read. -/
  | putBinding
  /-- `PutBinding`: before `Put`. -/
  | put (uid : Bytes)
  deriving DecidableEq

/-- Who waits for `Kick` or `Close`: nobody, `OnUserBind`, the callback of `Sys` in a `Bind`, or the
end of `Bind`. -/
inductive Caller (F : Type) where
  | nobody
  | onUserBind (n : Notification F)
  | sys (b : Bind F)
  | bind (b : Bind F)
  deriving DecidableEq

/-- A call of `Kick` or `Close`. -/
structure Close (F : Type) where
  f : F
  sid : ℕ
  reason : CloseReason
  caller : Caller F
  deriving DecidableEq

/-- Where a call of `Kick` or `Close` is. -/
inductive ClosePoint where
  /-- `Kick`: before the packet. -/
  | kick
  /-- `Kick`: before the session goes offline. -/
  | kicked
  /-- `Close`: before `sessionsByUID.Delete`. -/
  | close
  /-- `Close`: before the session goes offline. -/
  | offline
  /-- `Close`: before the registered session is compared. -/
  | compare
  /-- `agentImpl.Close`: before the lock. -/
  | enter
  /-- `Sys`: the close callback. -/
  | callback
  /-- `FlushOnline`: before `Hset`. -/
  | hset (uid : Bytes) (online : Bool)
  /-- `ETCDBindingStorage`: the close callback, for a reason other than a rebind. -/
  | removeBinding
  /-- `removeBinding`: before `Delete`. -/
  | delete (uid : Bytes)
  /-- `agentImpl.Close`: before the lock is given back. -/
  | unlock
  deriving DecidableEq

/-- Where a call is. -/
inductive Point (F : Type) where
  | bind (b : Bind F) (place : BindPoint)
  | close (k : Close F) (place : ClosePoint)
  /-- `SessionBoundFork`: before the notification arrives. -/
  | deliver (n : Notification F)
  /-- `OnUserBind`: before `GetSessionByUID`. -/
  | onUserBind (n : Notification F)
  /-- The lease runs out. -/
  | lose (f : F)
  | bootstrapLease (f : F)
  deriving DecidableEq

/-- How a statement goes on. -/
inductive Choice where
  | go
  | fail
  /-- The session has this data then. -/
  | data (encodedData : Bytes)
  deriving DecidableEq

/-- The session of a call. -/
def Bind.session (b : Bind F) : F × ℕ := (b.f, b.sid)

@[inherit_doc Bind.session]
def Close.session (k : Close F) : F × ℕ := (k.f, k.sid)

def Bind.goes (b : Bind F) (place : BindPoint) : Option (Point F) := some (.bind b place)

def Close.goes (k : Close F) (place : ClosePoint) : Option (Point F) := some (.close k place)

/-- Where the caller goes on. -/
def Caller.next : Caller F → Option (Point F)
  | .sys b => b.goes .initial
  | .bind b => b.goes .store
  | _ => none

/-- Where the caller goes on if there is an error; that of `Close` is dropped. -/
def Caller.failed : Caller F → Option (Point F)
  | .sys b => b.goes .unbind
  | .bind b => b.goes .store
  | _ => none

attribute [grind =] Bind.goes Close.goes Caller.next.eq_def Caller.failed.eq_def

/-! ## Statements -/

/-- The fields of `FlushFrontendData`. -/
def fields (S : Setup F) (x : F × ℕ) (online : Bool) (encodedData : Bytes) : List (Bytes × Bytes) :=
  ({ frontendID := S.serverID x.1, frontendSessionID := x.2, online := online, ip := S.ip x.1 x.2,
     encodedData := encodedData } : Session Empty).frontendFields

def hmset (store : Finmap fun _ : Bytes => Bytes) (entries : List (Bytes × Bytes)) :
    Finmap fun _ : Bytes => Bytes :=
  entries.foldl (fun store e => store.insert e.1 e.2) store

/-- The flag of `FlushOnline`. -/
def flag (online : Bool) : Bytes := ({ online := online } : Session Empty).onlineFlag

/-- What one statement of one call writes. -/
def exec (S : Setup F) (s : Shared F) : Point F → Choice → Shared F
  | .bind b .assign, .data encodedData =>
    s.modifyLogin b.session fun l => { l with uid := b.uid, encodedData }
  | .bind b .assign, _ => s.modifyLogin b.session fun l => { l with uid := b.uid }
  | .bind b .initial, .data encodedData => s.modifyLogin b.session fun l => { l with encodedData }
  | .bind b (.hmset uid online encodedData), .go =>
    { s with
      store := update s.store uid (hmset (s.store uid) (fields S b.session online encodedData)) }
  | .bind b .fork, _ =>
    { s with
      inFlight := fun n =>
        if n.uid = (s.login b.session).uid ∧ n.fid = b.f then s.inFlight n + 1 else s.inFlight n }
  | .bind b .unbind, _ => s.modifyLogin b.session fun l => { l with uid := [] }
  | .bind b .store, _ =>
    { s with sessionsByUID := update s.sessionsByUID (b.f, b.uid) (some b.sid) }
  | .bind b (.put uid), _ =>
    { s with
      binding := update s.binding uid (some (s.bindingOf S b.f))
      bound := update s.bound uid (b.session :: s.bound uid) }
  | .close k .kicked, _ | .close k .offline, _ =>
    s.modifyLogin k.session fun l => { l with online := false }
  | .close k .close, _ =>
    let uid := (s.login k.session).uid
    { s with
      sessionsByUID :=
        if uid = [] then s.sessionsByUID else update s.sessionsByUID (k.f, uid) none }
  | .close k .compare, _ =>
    let uid := (s.login k.session).uid
    { s with
      sessionsByUID :=
        if s.sessionsByUID (k.f, uid) = some k.sid then update s.sessionsByUID (k.f, uid) none
        else s.sessionsByUID }
  | .close k .enter, _ =>
    s.modifyLogin k.session fun l =>
      if l.chDie then l else { l with chDie := true, closeMutex := true }
  | .close _ (.hset uid online), _ =>
    { s with
      store := update s.store uid ((s.store uid).insert Session.fieldKeyOnline (flag online)) }
  | .close _ (.delete uid), _ => { s with binding := update s.binding uid none }
  | .close k .unlock, _ => s.modifyLogin k.session fun l => { l with closeMutex := false }
  | .deliver n, _ => { s with inFlight := update s.inFlight n (s.inFlight n - 1) }
  | .lose f, _ =>
    { s with
      leased := update s.leased f false
      binding := fun uid => (s.binding uid).filter fun b => b.lease ≠ (f, s.leaseID f) }
  | .bootstrapLease f, _ =>
    { s with leaseID := update s.leaseID f (s.leaseID f + 1), leased := update s.leased f true }
  | _, _ => s

/-- Where the call goes on after the statement, if it can run. -/
def next (s : Shared F) : Point F → Choice → Option (Option (Point F))
  | .bind b .check, .go =>
    let bound := (s.login b.session).uid
    some (if b.uid = [] ∨ (bound ≠ [] ∧ bound ≠ b.uid) then none else b.goes .assign)
  | .bind _ .assign, .fail => some none
  | .bind b .assign, _ => some (b.goes .earlier)
  | .bind b .earlier, .go => some (b.goes .getOld)
  | .bind b .earlier, .fail => some (b.goes .unbind)
  | .bind b .getOld, .go =>
    match s.sessionsByUID (b.f, (s.login b.session).uid) with
    | none => some (b.goes .initial)
    | some old => some (Close.goes ⟨b.f, old, .kickRebind, .sys b⟩ .kick)
  | .bind b .initial, .data _ => some (b.goes .flush)
  | .bind b .initial, .fail => some (b.goes .unbind)
  | .bind b .flush, .go =>
    let l := s.login b.session
    some (if l.uid = [] then b.goes .unbind else b.goes (.hmset l.uid l.online l.encodedData))
  | .bind b (.hmset ..), .go => some (b.goes .fork)
  | .bind b (.hmset ..), .fail => some (b.goes .unbind)
  | .bind b .fork, .go => some (b.goes .later)
  | .bind b .later, .go => some (b.goes .load)
  | .bind b .later, .fail => some (b.goes .unbind)
  | .bind _ .unbind, .go => some none
  | .bind b .load, .go =>
    match s.sessionsByUID (b.f, b.uid) with
    | none => some (b.goes .store)
    | some old => some (Close.goes ⟨b.f, old, .kickRebind, .bind b⟩ .close)
  | .bind b .store, .go => some (b.goes .putBinding)
  | .bind b .putBinding, .go => some (b.goes (.put (s.login b.session).uid))
  | .bind b (.put _), .go => if s.leased b.f then some none else none
  | .close k .kick, .go => some (k.goes .kicked)
  | .close k .kick, .fail => some k.caller.failed
  | .close k .kicked, .go | .close k .compare, .go => some (k.goes .enter)
  | .close k .close, .go => some (k.goes .offline)
  | .close k .offline, .go => some (k.goes .compare)
  | .close k .enter, .go =>
    if (s.login k.session).closeMutex then none
    else some (if (s.login k.session).chDie then k.caller.failed else k.goes .callback)
  | .close k .callback, .go =>
    let l := s.login k.session
    some (k.goes (if k.reason = .kickRebind then .unlock
      else if l.uid = [] then .removeBinding else .hset l.uid l.online))
  | .close k (.hset ..), .go => some (k.goes .removeBinding)
  | .close k .removeBinding, .go =>
    let uid := (s.login k.session).uid
    some (k.goes (if uid = [] then .unlock else .delete uid))
  | .close k (.delete _), .go => some (k.goes .unlock)
  | .close k .unlock, .go => some k.caller.next
  -- the connection reports an error when it is closed
  | .close k .unlock, .fail => some k.caller.failed
  | .deliver n, .go => if s.inFlight n = 0 then none else some (some (.onUserBind n))
  | .onUserBind n, .go =>
    if n.target = n.fid then some none
    else
      match s.sessionsByUID (n.target, n.uid) with
      | none => some none
      | some old => some (Close.goes ⟨n.target, old, .kickRebind, .onUserBind n⟩ .kick)
  | .lose f, .go => if s.leased f then some none else none
  | .bootstrapLease f, .go => if s.leased f then none else some none
  | _, _ => none

/-- One statement of one call. -/
def step (S : Setup F) (s : Shared F) (p : Point F) (choice : Choice) :
    Option (Shared F × Option (Point F)) :=
  (next s p choice).map fun p' => (exec S s p choice, p')

/-- `Bind`, `Kick` and `Close` are called at any time and for any reason, an agent closes by
itself for none, and notifications arrive. -/
def logins (S : Setup F) : Program (Shared F) (Point F) Choice where
  start := {}
  main := 0
  entry
    | .bind _ .check => true
    | .close k .kick | .close k .close => k.caller = .nobody
    | .close k .enter => k.caller = .nobody ∧ k.reason = .normal
    | .deliver _ | .lose _ | .bootstrapLease _ => true
    | _ => false
  step := step S

/-! ## What is written of a session -/

namespace Point

/-- The statement takes the session offline. -/
def takesOffline (x : F × ℕ) : Point F → Bool
  | .close k .kicked | .close k .offline => k.session = x
  | _ => false

/-- The statement tears the agent of the session down, unless that has been done. -/
def tearsDown (x : F × ℕ) : Point F → Bool
  | .close k .enter => k.session = x
  | _ => false

/-- The statement assigns the uid of the session. -/
def renames (x : F × ℕ) : Point F → Bool
  | .bind b .assign | .bind b .unbind => b.session = x
  | _ => false

end Point

variable {S : Setup F} {s s' : Shared F} {p q : Point F} {p' : Option (Point F)} {choice : Choice}
  {x : F × ℕ}

theorem step_eq_some : (logins S).step s p choice = some (s', p') ↔
    next s p choice = some p' ∧ exec S s p choice = s' := by
  simp only [logins, step, Option.map_eq_some_iff, Prod.mk.injEq]
  constructor
  · rintro ⟨r, hr, rfl, rfl⟩
    exact ⟨hr, rfl⟩
  · rintro ⟨hnext, rfl⟩
    exact ⟨p', hnext, rfl, rfl⟩

open Point Shared in
/-- **What a statement does to a session.** -/
theorem login_exec :
    ((exec S s p choice).login x).online = ((s.login x).online && !p.takesOffline x) ∧
      ((exec S s p choice).login x).chDie = ((s.login x).chDie || p.tearsDown x) ∧
      (p.renames x = false → ((exec S s p choice).login x).uid = (s.login x).uid) := by
  cases p with
  | bind b place =>
    by_cases hx : x = b.session
    · subst hx
      cases place <;> cases choice <;> simp [exec, modifyLogin, takesOffline, tearsDown, renames]
    · cases place <;> cases choice <;>
        simp [exec, modifyLogin, takesOffline, tearsDown, update_of_ne hx]
  | close k place =>
    by_cases hx : x = k.session
    · subst hx
      cases place <;> simp [exec, modifyLogin, takesOffline, tearsDown, apply_ite Login.online,
        apply_ite Login.chDie, apply_ite Login.uid]
    · cases place <;>
        simp [exec, modifyLogin, takesOffline, tearsDown, update_of_ne hx, Ne.symm hx]
  | _ => simp [exec, takesOffline, tearsDown]

/-! ## Where a call goes on -/

namespace Point

/-- A call that goes on to tear the agent of the session down. -/
def heading (x : F × ℕ) : Point F → Bool
  | .close k .compare | .close k .enter => k.session = x
  | _ => false

/-- A call that tears the agent of the session down. -/
def tearing (x : F × ℕ) : Point F → Bool
  | .close k .callback | .close k (.hset ..) | .close k .removeBinding | .close k (.delete _)
  | .close k .unlock => k.session = x
  | _ => false

end Point

/-- A session that goes offline is torn down next, and who was to do so does it or still is. -/
theorem heading_next (h : next s p choice = some p')
    (hp : p.takesOffline x = true ∨ p.heading x = true) :
    p.tearsDown x = true ∨ ∃ q, p' = some q ∧ q.heading x = true := by
  cases p with
  | close k place =>
    cases place with
    | kicked | offline | compare =>
      cases choice <;> cases h
      simp_all [Point.heading, Close.goes, Point.takesOffline]
    | _ => simp_all [Point.heading, Point.takesOffline, Point.tearsDown]
  | _ => simp [Point.heading, Point.takesOffline] at hp

theorem tearing_next (h : next s p choice = some (some q)) (hq : q.tearing x = true) :
    p.tearing x = true ∨ p.tearsDown x = true := by
  unfold next at h
  split at h
  all_goals grind [Point.tearing, Point.tearsDown]

theorem flushing_next {b : Bind F} {uid encodedData : Bytes} {online : Bool}
    (h : next s p choice = some (some (.bind b (.hmset uid online encodedData)))) :
    p = .bind b .flush ∧ (s.login b.session).online = online := by
  unfold next at h
  split at h
  all_goals grind

/-! ## Calls that are not disturbed -/

def twoFrontends : Setup Bool where
  serverID f := if f then [66] else [65]
  injective := by decide
  ip _ _ := []

/-- User "1" on a frontend. -/
def login (f : Bool) : Bind Bool := ⟨f, 1, [49]⟩

/-- `Bind`, until it has read the fields to flush. -/
def bindsUntil (f : Bool) : Run (Point Bool) Choice :=
  .call (.bind (login f) .check) ::
    steps .go ([.check, .assign, .earlier, .getOld].map (.bind (login f))) ++
    [.run (.bind (login f) .initial) (.data []), .run (.bind (login f) .flush) .go]

/-- `Bind`, from the notification on. -/
def bindsAfter (f : Bool) : Run (Point Bool) Choice :=
  steps .go ([.fork, .later, .load, .store, .putBinding, .put [49]].map (.bind (login f)))

/-- A `Bind` that finds no other session on its frontend. -/
def binds (f : Bool) : Run (Point Bool) Choice :=
  bindsUntil f ++ .run (.bind (login f) (.hmset [49] true [])) .go :: bindsAfter f

/-- The notification of a frontend arrives. -/
def hears (fid target : Bool) : Run (Point Bool) Choice :=
  .call (.deliver ⟨[49], fid, target⟩) ::
    steps .go [.deliver ⟨[49], fid, target⟩, .onUserBind ⟨[49], fid, target⟩]

/-- `OnUserBind` kicks the session. -/
def kicks (fid target : Bool) : Run (Point Bool) Choice :=
  steps .go ([.kick, .kicked, .enter, .callback, .unlock].map
    (.close ⟨target, 1, .kickRebind, .onUserBind ⟨[49], fid, target⟩⟩))

/-- The connection of the session ends, and the close callback has read the flag. -/
def closes (f : Bool) : Run (Point Bool) Choice :=
  .call (.close ⟨f, 1, .normal, .nobody⟩ .close) ::
    steps .go ([.close, .offline, .compare, .enter, .callback].map
      (.close ⟨f, 1, .normal, .nobody⟩))

/-- The close callbacks write the flag and remove the binding. -/
def closed (f : Bool) : Run (Point Bool) Choice :=
  steps .go ([.hset [49] false, .removeBinding, .delete [49], .unlock].map
    (.close ⟨f, 1, .normal, .nobody⟩))

end Pitaya.Logins
