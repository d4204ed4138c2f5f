import Mathlib.Logic.Function.Basic
import Pitaya.Foundations.Transition
import Pitaya.Session.Overlay

/-!
# The session pool

`session/session.go`, the pool of one server process and the session operations
that work on its tables, with the bind and close callbacks of `remote/sys.go`.

* `Pool` — `sessionPoolImpl`.  Sessions live in a heap under their ids, so that
  the same session can be reached from `sessionsByUID`, from `sessionsByID` and
  from its connection.
* `close`, `kick`, `bind` — the session methods.  `bind` is split where the source
  is: `bindPrepare` runs up to the bind callbacks, `register` is the branch of a
  frontend session.
* `pool` — all operations as a transition system, in any order and number.

Replies of the network and of the cluster store are arguments.
-/

namespace Pitaya

open Transition Option

/-- The server process a pool belongs to. -/
structure Server (V : Type) where
  codec : Codec V
  frontend : Bool := true
  id : Bytes := []

/-- What leaves the process. -/
inductive Effect where
  /-- `Hmset` on the cluster store. -/
  | hmset (key : Bytes) (fields : List (Bytes × Bytes))
  /-- `Hset` on the cluster store. -/
  | hset (key field value : Bytes)
  /-- `Fork` of `SessionBoundForkRoute` to the servers of the own type. -/
  | forkBound (uid fid : Bytes) (sid : ℕ)
  /-- `NotifyAll` of `SessionBoundRoute`. -/
  | notifyBound (uid fid : Bytes) (sid : ℕ)
  /-- `NotifyAll` of `SessionClosedRoute`. -/
  | notifyClosed (uid : Bytes)
  deriving DecidableEq, Repr

/-- `sessionPoolImpl`.  `sessionsByID` maps an id to the session of that id and is
given by its keys; `sid` is the last id of `sessionIDService`. -/
structure Pool (V : Type) where
  session : ℕ → Session V := fun _ => {}
  sid : ℕ := 0
  sessionsByUID : Finmap fun _ : Bytes => ℕ := ∅
  sessionsByID : Finset ℕ := ∅
  sessionCount : ℤ := 0
  userCount : ℤ := 0
  effects : List Effect := []

/-- Replies while an entity is closed: of the connection, and of the store to
`FlushOnline`. -/
structure CloseReplies where
  conn : Option Bytes := none
  hset : Option Bytes := none
  deriving DecidableEq, Repr

/-- Replies while a session is kicked: to the kick packet, or to the remote call
that stands for it, and to closing the entity. -/
structure KickReplies where
  write : Option Bytes := none
  close : CloseReplies := {}
  deriving DecidableEq, Repr

/-- Replies to the bind callback of `Sys`. -/
structure SysReplies where
  kick : KickReplies := {}
  hgetall : Session.HgetallReply := .noRows
  hmset : Option Bytes := none
  deriving DecidableEq, Repr

/-- A registered bind callback: the one of `Sys`, or another one (such as the
subscriptions of the NATS server).  `Bind` passes it the session: it may read it, write
its data and its backends, and fail.  It is assumed not to bind, kick or close a session
itself. -/
inductive BindCallback (V : Type) where
  | sys (replies : SysReplies)
  | other (act : Session V → Overlay V × Option Bytes)

/-- Replies to one call of `Bind`: the bind callbacks in order, the `Close` of the
rebind branch, and for sessions of another server's connection the call of that
server and the store. -/
structure BindReplies (V : Type) where
  callbacks : List (BindCallback V) := [.sys {}]
  close : CloseReplies := {}
  bindInFront : Option Bytes := none
  hgetall : Session.HgetallReply := .noRows

namespace Pool

variable {V : Type} (server : Server V)

variable (p : Pool V) (id : ℕ)

/-- Assign a session in the heap. -/
def set (s : Session V) : Pool V :=
  { p with session := Function.update p.session id s }

/-- Add to the record of what left the process. -/
def emit (effects : List Effect) : Pool V :=
  { p with effects := p.effects ++ effects }

def getSessionByUID (uid : Bytes) : Option ℕ := p.sessionsByUID.lookup uid

def getSessionByID : Option ℕ :=
  if id ∈ p.sessionsByID then some id else none

/-! ## Creating sessions -/

/-- `NewSession`: a session cached under the uid, or a new one; only sessions of
a frontend connection enter the tables here. -/
def newSession (entity : Entity) (frontend : Bool) (uid : Option Bytes) :
    Pool V × ℕ :=
  match uid.bind p.getSessionByUID with
  | some id => (p, id)
  | none =>
    let id := p.sid + 1
    let s : Session V := { entity := entity, isFrontend := frontend }
    let s := match uid with
      | some uid => s.setUID uid
      | none => s
    let p := { p with sid := id }.set id s
    if frontend then
      ({ p with
          sessionsByID := insert id p.sessionsByID
          sessionCount := p.sessionCount + 1 }, id)
    else (p, id)

/-! ## Closing and kicking -/

variable (reason : CloseReason) (replies : CloseReplies)

/-- The `OnSessionClose` callback of `Sys`. -/
def onSessionClose :
    Pool V :=
  let s := p.session id
  if ¬ server.frontend then p
  else if reason = CloseReason.kickRebind then p
  else if s.uid = [] then p.emit [.notifyClosed s.uid]
  else
    match replies.hset with
    | some _ => p
    | none =>
      p.emit [.hset s.clusterStorageKey Session.fieldKeyOnline s.onlineFlag,
        .notifyClosed s.uid]

/-- `entity.Close`.  Only an agent does anything, and the teardown runs the close
callbacks. -/
def closeEntity :
    Pool V × Option SessionError :=
  match (p.session id).entity with
  | .agent a =>
    let (a', err) := a.close reason replies.conn
    let p := p.set id { p.session id with entity := .agent a' }
    let p := if a.chDie = a'.chDie then p else p.onSessionClose server id reason replies
    (p, err.map .agent)
  | _ => (p, none)

/-- `entity.Kick`. -/
def kickEntity (write : Option Bytes) :
    Pool V × Option SessionError :=
  match (p.session id).entity with
  | .agent a =>
    let (a, err) := a.kick reason write
    (p.set id { p.session id with entity := .agent a }, err.map .agent)
  | .remote =>
    if (p.session id).uid = [] then (p, some .noUIDBind) else (p, write.map .call)
  | .cluster => (p, none)

/-- `sessionImpl.Kick`: the tables stay as they are; the connection's read loop
closes the session later. -/
def kick (replies : KickReplies) :
    Pool V × Option SessionError :=
  match p.kickEntity id reason replies.write with
  | (p, some e) => (p, some e)
  | (p, none) =>
    (p.set id { p.session id with online := false }).closeEntity server id reason replies.close

/-- The first table update of `sessionImpl.Close` and `RemoveSessionLocal`: the
entry of the uid goes without a look at whose it is. -/
def deleteUID : Pool V :=
  if (p.session id).uid.length > 0 then
    { p with
      sessionsByUID := p.sessionsByUID.erase (p.session id).uid
      userCount := p.userCount - 1 }
  else p

/-- The table updates of `sessionImpl.Close`, in the order of the source.  The last
one deletes the entry of the uid if it is still there and the session's own. -/
def unregister : Pool V :=
  let uid := (p.session id).uid
  let p := { p with sessionCount := p.sessionCount - 1 }.deleteUID id
  let p := p.set id { p.session id with online := false }
  let p := { p with sessionsByID := p.sessionsByID.erase id }
  if p.sessionsByUID.lookup uid = some id then
    { p with sessionsByUID := p.sessionsByUID.erase uid }
  else p

/-- `sessionImpl.Close`. -/
def close : Pool V :=
  ((p.unregister id).closeEntity server id reason replies).1

/-- The function `CloseAll` ranges over `sessionsByID` with. -/
def closeAllVisit : Pool V :=
  if (p.session id).hasRequestsInFlight then p
  else p.close server id CloseReason.normal replies

/-! ## Binding -/

def flushFrontendData (hmset : Option Bytes) :
    Pool V × Option SessionError :=
  let s := p.session id
  if s.uid = [] then (p, some .illegalUID)
  else
    match hmset with
    | some e => (p, some (.store e))
    | none => (p.emit [.hmset s.clusterStorageKey s.frontendFields], none)

/-- The `OnSessionBind` callback of `Sys`, after the kick of the old session. -/
def sysBindData (replies : SysReplies) : Pool V × Option SessionError :=
  let custData := (p.session id).getData
  match (p.session id).initialFromCluster server.codec replies.hgetall with
  | (s, some e) => (p.set id s, some e)
  | (s, none) =>
    match if custData.size > 0 then s.setData server.codec (some custData) else (s, none) with
    | (s, some e) => (p.set id s, some e)
    | (s, none) =>
      match (p.set id s).flushFrontendData id replies.hmset with
      | (p, some e) => (p, some e)
      | (p, none) =>
        -- failures of the two broadcasts are only logged
        (p.emit [.forkBound s.uid server.id id, .notifyBound s.uid server.id id], none)

/-- The `OnSessionBind` callback of `Sys`. -/
def sysOnSessionBind (replies : SysReplies) :
    Pool V × Option SessionError :=
  if ¬ server.frontend then (p, none)
  else
    match p.getSessionByUID (p.session id).uid with
    | none => p.sysBindData server id replies
    | some oldSession =>
      match p.kick server oldSession CloseReason.kickRebind replies.kick with
      | (p, some e) => (p, some e)
      | (p, none) => p.sysBindData server id replies

/-- A call of a bind callback. -/
def runCallback : BindCallback V → Pool V × Option SessionError
  | .sys replies => p.sysOnSessionBind server id replies
  | .other act =>
    let (written, err) := act (p.session id)
    (p.set id (written.layOver (p.session id)), err.map .call)

/-- The loop over `sessionBindCallbacks`. -/
def runCallbacks (p : Pool V) (id : ℕ) : List (BindCallback V) → Pool V × Option SessionError
  | [] => (p, none)
  | callback :: callbacks =>
    match p.runCallback server id callback with
    | (p, some e) => (p, some e)
    | (p, none) => p.runCallbacks id callbacks

/-- Undo the assignment of the uid. -/
def clearUID : Pool V :=
  p.set id { p.session id with uid := [], uidInt := 0 }

/-- `Bind` up to and including the bind callbacks. -/
def bindPrepare (uid : Bytes) (custSessData : StringMap V)
    (replies : BindReplies V) : Pool V × Option SessionError :=
  let s := p.session id
  if uid = [] then (p, some .illegalUID)
  else if s.uid ≠ [] ∧ s.uid ≠ uid then (p, some (.sessionAlreadyBound uid))
  else
    let s := s.setUID uid
    match if custSessData.len > 0 then s.setData server.codec custSessData else (s, none) with
    | (s, some e) => (p.set id s, some (.forUID e uid))
    | (s, none) =>
      match (p.set id s).runCallbacks server id replies.callbacks with
      | (p, some e) => (p.clearUID id, some e)
      | (p, none) => (p, none)

/-- The branch of `Bind` on a frontend: close a session that still holds the uid,
then take it. -/
def register (uid : Bytes) (replies : CloseReplies) : Pool V :=
  let p :=
    match p.sessionsByUID.lookup uid with
    | some old => p.close server old CloseReason.kickRebind replies
    | none => p
  { p with
    sessionsByUID := p.sessionsByUID.insert uid id
    userCount := p.userCount + 1 }

/-- The branch of `Bind` elsewhere: ask the frontend, then read the record it has
written. -/
def bindElsewhere (replies : BindReplies V) : Pool V × Option SessionError :=
  match replies.bindInFront with
  | some e => (p.clearUID id, some (.call e))
  | none =>
    let (s, err) := (p.session id).obtainFromCluster server.codec replies.hgetall
    (p.set id s, err)

/-- `sessionImpl.Bind`.  The after-bind callbacks cannot fail it. -/
def bind (p : Pool V) (id : ℕ) (uid : Bytes) (custSessData : StringMap V)
    (replies : BindReplies V) : Pool V × Option SessionError :=
  match p.bindPrepare server id uid custSessData replies with
  | (p, some e) => (p, some e)
  | (p, none) =>
    if (p.session id).isFrontend then (p.register server id uid replies.close, none)
    else p.bindElsewhere server id replies

/-! ## Sessions of stateful backends -/

def storeSessionLocal : Pool V × Option SessionError :=
  let uid := (p.session id).uid
  if uid.length ≤ 0 then (p, some .emptyUID)
  else
    let p :=
      { p with
        sessionsByUID := p.sessionsByUID.insert uid id
        userCount := p.userCount + 1 }
    if id ∈ p.sessionsByID then (p, none)
    else
      ({ p with
          sessionsByID := insert id p.sessionsByID
          sessionCount := p.sessionCount + 1 }, none)

def removeSessionLocal : Pool V :=
  let p := p.deleteUID id
  if id ∉ p.sessionsByID then p
  else
    { p with
      sessionCount := p.sessionCount - 1
      sessionsByID := p.sessionsByID.erase id }

/-! ## Runs -/

/-- The operations on a pool.  `close` stands for every caller of
`sessionImpl.Close` outside `Bind` and `CloseAll`, first of all the deferred call
of `HandlerService.Handle`. -/
inductive Op (V : Type) where
  | newSession (entity : Entity) (frontend : Bool) (uid : Option Bytes)
  | bind (id : ℕ) (uid : Bytes) (custSessData : StringMap V) (replies : BindReplies V)
  | kick (id : ℕ) (reason : CloseReason) (replies : KickReplies)
  | close (id : ℕ) (reason : CloseReason) (replies : CloseReplies)
  | closeAllVisit (id : ℕ) (replies : CloseReplies)
  | setRequestInFlight (id : ℕ) (reqID reqData : Bytes) (inFlight : Bool)
  | storeSessionLocal (id : ℕ)
  | removeSessionLocal (id : ℕ)

def setRequestInFlight (reqID reqData : Bytes) (inFlight : Bool) :
    Pool V :=
  let s := p.session id
  p.set id
    { s with
      requestsInFlight :=
        if inFlight then s.requestsInFlight.insert reqID reqData
        else s.requestsInFlight.erase reqID }

/-- The pool after an operation. -/
def apply : Op V → Pool V
  | .newSession entity frontend uid => (p.newSession entity frontend uid).1
  | .bind id uid custSessData replies => (p.bind server id uid custSessData replies).1
  | .kick id reason replies => (p.kick server id reason replies).1
  | .close id reason replies => p.close server id reason replies
  | .closeAllVisit id replies => p.closeAllVisit server id replies
  | .setRequestInFlight id reqID reqData inFlight =>
    p.setRequestInFlight id reqID reqData inFlight
  | .storeSessionLocal id => (p.storeSessionLocal id).1
  | .removeSessionLocal id => p.removeSessionLocal id

/-- The session an operation is called on. -/
def Op.target : Op V → Option ℕ
  | .newSession _ _ _ => none
  | .bind id _ _ _ => some id
  | .kick id _ _ => some id
  | .close id _ _ => some id
  | .closeAllVisit id _ => some id
  | .setRequestInFlight id _ _ _ => some id
  | .storeSessionLocal id => some id
  | .removeSessionLocal id => some id

/-- The session has been created. -/
def Created : Prop := 1 ≤ id ∧ id ≤ p.sid

instance (p : Pool V) (id : ℕ) : Decidable (p.Created id) :=
  inferInstanceAs (Decidable (_ ∧ _))

/-- One operation, on a session that exists. -/
def step (op : Op V) : Option (Pool V) :=
  match op.target with
  | none => some (p.apply server op)
  | some id => if p.Created id then some (p.apply server op) else none

/-- A pool and everything that can be done to it, from `NewSessionPool` on. -/
def pool : System (Pool V) (Op V) where
  start := {}
  step p op := p.step server op

variable {server} in
theorem step_eq_some {p p' : Pool V} {op : Op V} (h : p.step server op = some p') :
    p' = p.apply server op ∧ ∀ id, op.target = some id → p.Created id := by
  unfold step at h
  split at h
  · next htarget =>
    refine ⟨(some.inj h).symm, fun id hid => ?_⟩
    rw [htarget] at hid
    cases hid
  · next id htarget =>
    split at h
    · next hcreated =>
      refine ⟨(some.inj h).symm, fun id' hid => ?_⟩
      rw [htarget] at hid
      obtain rfl := some.inj hid
      exact hcreated
    · cases h

/-! ## What the operations leave alone -/

/-- The tables and counters agree. -/
structure SameTables (p p' : Pool V) : Prop where
  sid : p'.sid = p.sid
  sessionsByUID : p'.sessionsByUID = p.sessionsByUID
  sessionsByID : p'.sessionsByID = p.sessionsByID
  sessionCount : p'.sessionCount = p.sessionCount
  userCount : p'.userCount = p.userCount

/-- The tables agree, and so do the uids of the sessions other than `except`. -/
structure Quiet (except : Option ℕ) (p p' : Pool V) : Prop where
  tables : SameTables p p'
  uid : ∀ id, some id ≠ except → (p'.session id).uid = (p.session id).uid
  isFrontend : ∀ id, (p'.session id).isFrontend = (p.session id).isFrontend

theorem SameTables.refl (p : Pool V) : SameTables p p := ⟨rfl, rfl, rfl, rfl, rfl⟩

theorem SameTables.trans {p p' p'' : Pool V} (h : SameTables p p') (h' : SameTables p' p'') :
    SameTables p p'' :=
  ⟨h'.sid.trans h.sid, h'.sessionsByUID.trans h.sessionsByUID,
    h'.sessionsByID.trans h.sessionsByID, h'.sessionCount.trans h.sessionCount,
    h'.userCount.trans h.userCount⟩

namespace Quiet

variable {except : Option ℕ}

theorem refl (p : Pool V) : Quiet except p p := ⟨.refl p, fun _ _ => rfl, fun _ => rfl⟩

theorem trans {p p' p'' : Pool V} (h : Quiet except p p') (h' : Quiet except p' p'') :
    Quiet except p p'' :=
  ⟨h.tables.trans h'.tables, fun id hid => (h'.uid id hid).trans (h.uid id hid),
    fun id => (h'.isFrontend id).trans (h.isFrontend id)⟩

theorem weaken {p p' : Pool V} (h : Quiet none p p') : Quiet except p p' :=
  ⟨h.tables, fun id _ => h.uid id (some_ne_none id), h.isFrontend⟩

end Quiet

variable (p : Pool V) (id : ℕ) (reason : CloseReason)

@[simp] theorem set_session_self (s : Session V) : (p.set id s).session id = s := by
  simp only [set, Function.update_self]

theorem set_session_of_ne {id id' : ℕ} (h : id' ≠ id) (s : Session V) :
    (p.set id s).session id' = p.session id' := by
  simp only [set, Function.update_of_ne h]

theorem set_quiet {id : ℕ} {s : Session V} (h : Session.SameIdentity (p.session id) s) :
    Quiet none p (p.set id s) := by
  refine ⟨⟨rfl, rfl, rfl, rfl, rfl⟩, fun id' _ => ?_, fun id' => ?_⟩
  · by_cases hid : id' = id
    · rw [hid, set_session_self, h.uid]
    · rw [set_session_of_ne p hid]
  · by_cases hid : id' = id
    · rw [hid, set_session_self, h.isFrontend]
    · rw [set_session_of_ne p hid]

theorem set_quiet_except {id : ℕ} {s : Session V} (h : s.isFrontend = (p.session id).isFrontend) :
    Quiet (some id) p (p.set id s) := by
  refine ⟨⟨rfl, rfl, rfl, rfl, rfl⟩, fun id' hid => ?_, fun id' => ?_⟩
  · rw [set_session_of_ne p fun heq => hid (congrArg some heq)]
  · by_cases hid : id' = id
    · rw [hid, set_session_self, h]
    · rw [set_session_of_ne p hid]

theorem emit_quiet (effects : List Effect) : Quiet none p (p.emit effects) :=
  ⟨⟨rfl, rfl, rfl, rfl, rfl⟩, fun _ _ => rfl, fun _ => rfl⟩

theorem onSessionClose_quiet (replies : CloseReplies) :
    Quiet none p (p.onSessionClose server id reason replies) := by
  unfold onSessionClose
  dsimp only
  split
  · exact .refl p
  split
  · exact .refl p
  split
  · exact emit_quiet p _
  split
  · exact .refl p
  · exact emit_quiet p _

theorem closeEntity_quiet (replies : CloseReplies) :
    Quiet none p (p.closeEntity server id reason replies).1 := by
  unfold closeEntity
  split
  · next a _ =>
    have hset : Quiet none p (p.set id
        { p.session id with entity := .agent (a.close reason replies.conn).1 }) :=
      set_quiet p ⟨rfl, rfl⟩
    dsimp only
    split
    · exact hset
    · exact hset.trans (onSessionClose_quiet server _ id reason replies)
  · exact .refl p

theorem kickEntity_quiet (write : Option Bytes) :
    Quiet none p (p.kickEntity id reason write).1 := by
  unfold kickEntity
  split
  · exact set_quiet p ⟨rfl, rfl⟩
  · split <;> exact .refl p
  · exact .refl p

theorem kick_quiet (replies : KickReplies) : Quiet none p (p.kick server id reason replies).1 := by
  have hfirst := p.kickEntity_quiet id reason replies.write
  unfold kick
  split
  · next h => rwa [h] at hfirst
  · next q h =>
    rw [h] at hfirst
    have hoffline : Quiet none q (q.set id { q.session id with online := false }) :=
      set_quiet q ⟨rfl, rfl⟩
    exact hfirst.trans (hoffline.trans (closeEntity_quiet server _ id reason replies.close))

theorem flushFrontendData_quiet (hmset : Option Bytes) :
    Quiet none p (p.flushFrontendData id hmset).1 := by
  unfold flushFrontendData
  dsimp only
  split
  · exact .refl p
  split
  · exact .refl p
  · exact emit_quiet p _

theorem sysBindData_quiet (replies : SysReplies) :
    Quiet none p (p.sysBindData server id replies).1 := by
  have hload := (p.session id).initialFromCluster_identity server.codec replies.hgetall
  unfold sysBindData
  dsimp only
  split
  · next h =>
    rw [h] at hload
    exact set_quiet p hload
  · next s h =>
    rw [h] at hload
    have hdata : Session.SameIdentity (p.session id) (if (p.session id).getData.size > 0 then
          s.setData server.codec (some (p.session id).getData) else (s, none)).1 := by
      split
      · exact hload.trans (s.setData_identity server.codec _)
      · exact hload
    split
    · next h =>
      rw [h] at hdata
      exact set_quiet p hdata
    · next s' h =>
      rw [h] at hdata
      have hflush := (p.set id s').flushFrontendData_quiet id replies.hmset
      split
      · next h =>
        rw [h] at hflush
        exact (set_quiet p hdata).trans hflush
      · next h =>
        rw [h] at hflush
        exact (set_quiet p hdata).trans (hflush.trans (emit_quiet _ _))

/-- A relation between pools that the parts of the bind callbacks keep: kicking the session that
has the uid, what `Sys` does after that, and what the other callbacks write. -/
structure KeptByCallbacks (id : ℕ) (R : Pool V → Pool V → Prop) : Prop where
  refl : ∀ p, R p p
  trans : ∀ {p q r}, R p q → R q r → R p r
  kick : ∀ p old replies, p.getSessionByUID (p.session id).uid = some old →
    R p (p.kick server old CloseReason.kickRebind replies).1
  bindData : ∀ p replies, R p (p.sysBindData server id replies).1
  write : ∀ p (written : Overlay V), R p (p.set id (written.layOver (p.session id)))

namespace KeptByCallbacks

variable {server} {id : ℕ} {R : Pool V → Pool V → Prop}

theorem sysOnSessionBind (h : KeptByCallbacks server id R) (p : Pool V) (replies : SysReplies) :
    R p (p.sysOnSessionBind server id replies).1 := by
  unfold Pool.sysOnSessionBind
  split
  · exact h.refl p
  split
  · exact h.bindData p replies
  · next old hold =>
    have hkick := h.kick p old replies.kick hold
    split
    · next heq => rwa [heq] at hkick
    · next heq =>
      rw [heq] at hkick
      exact h.trans hkick (h.bindData _ replies)

/-- **The loop over the bind callbacks** keeps what its parts keep. -/
theorem runCallbacks (h : KeptByCallbacks server id R) (p : Pool V)
    (callbacks : List (BindCallback V)) : R p (p.runCallbacks server id callbacks).1 := by
  induction callbacks generalizing p with
  | nil => exact h.refl p
  | cons callback callbacks ih =>
    have hfirst : R p (p.runCallback server id callback).1 := by
      cases callback with
      | sys replies => exact h.sysOnSessionBind p replies
      | other act => exact h.write p _
    rw [Pool.runCallbacks]
    split
    · next heq => rwa [heq] at hfirst
    · next heq =>
      rw [heq] at hfirst
      exact h.trans hfirst (ih _)

end KeptByCallbacks

variable (p : Pool V) (id : ℕ)

theorem runCallbacks_quiet (callbacks : List (BindCallback V)) :
    Quiet none p (p.runCallbacks server id callbacks).1 :=
  have hquiet : KeptByCallbacks server id (Quiet none) :=
    { refl := .refl
      trans := .trans
      kick := fun p old replies _ => p.kick_quiet server old CloseReason.kickRebind replies
      bindData := fun p replies => p.sysBindData_quiet server id replies
      write := fun p _ => set_quiet p ⟨rfl, rfl⟩ }
  hquiet.runCallbacks p callbacks

/-! ## What closing does to the tables -/

theorem deleteUID_of_nil {p : Pool V} {id : ℕ} (h : (p.session id).uid = []) :
    p.deleteUID id = p := by
  rw [deleteUID, h]
  rfl

theorem deleteUID_of_ne_nil {p : Pool V} {id : ℕ} (h : (p.session id).uid ≠ []) :
    p.deleteUID id =
      { p with
        sessionsByUID := p.sessionsByUID.erase (p.session id).uid
        userCount := p.userCount - 1 } := by
  rw [deleteUID, if_pos (List.length_pos_of_ne_nil h)]

/-- **What `Close` does to the tables**: the entry of the session's uid goes,
whosever it is, and both counters go down.  The second deletion only matters for
an entry of the empty uid. -/
theorem unregister_tables (hempty : [] ∉ p.sessionsByUID) :
    (p.unregister id).sessionsByUID = (p.deleteUID id).sessionsByUID ∧
      (p.unregister id).sessionsByID = p.sessionsByID.erase id ∧
      (p.unregister id).sessionCount = p.sessionCount - 1 ∧
      (p.unregister id).userCount = (p.deleteUID id).userCount ∧
      (p.unregister id).sid = p.sid := by
  by_cases huid : (p.session id).uid = []
  · have hnone : p.sessionsByUID.lookup (p.session id).uid = none :=
      Finmap.lookup_eq_none.mpr (huid ▸ hempty)
    simp [unregister, deleteUID, set, huid, hnone]
  · have hlen : (p.session id).uid.length > 0 := List.length_pos_of_ne_nil huid
    simp [unregister, deleteUID, set, hlen]

theorem close_quiet_unregister (reason : CloseReason) (replies : CloseReplies) :
    Quiet none (p.unregister id) (p.close server id reason replies) :=
  closeEntity_quiet server _ id reason replies

theorem close_sessionsByUID (reason : CloseReason) (replies : CloseReplies)
    (hempty : [] ∉ p.sessionsByUID) :
    (p.close server id reason replies).sessionsByUID = (p.deleteUID id).sessionsByUID :=
  (p.close_quiet_unregister server id reason replies).tables.sessionsByUID.trans
    (p.unregister_tables id hempty).1

/-! ## What binding does to the tables -/

theorem clearUID_quiet : Quiet (some id) p (p.clearUID id) :=
  p.set_quiet_except rfl

/-- Up to the callbacks, `Bind` changes at most the uid of its own session; when
nothing failed that uid is the argument, which is not empty. -/
theorem bindPrepare_spec (uid : Bytes) (custSessData : StringMap V) (replies : BindReplies V) :
    Quiet (some id) p (p.bindPrepare server id uid custSessData replies).1 ∧
      ((p.bindPrepare server id uid custSessData replies).2 = none →
        uid ≠ [] ∧ ((p.bindPrepare server id uid custSessData replies).1.session id).uid =
          uid) := by
  unfold bindPrepare
  dsimp only
  split
  · exact ⟨.refl p, fun h => by cases h⟩
  next huid =>
  split
  · exact ⟨.refl p, fun h => by cases h⟩
  have hdata : Session.SameIdentity ((p.session id).setUID uid) (if custSessData.len > 0 then
        ((p.session id).setUID uid).setData server.codec custSessData
      else ((p.session id).setUID uid, none)).1 := by
    split
    · exact Session.setData_identity server.codec _ _
    · exact .refl _
  split
  · next s e h =>
    rw [h] at hdata
    exact ⟨p.set_quiet_except hdata.isFrontend, fun h => by cases h⟩
  · next s h =>
    rw [h] at hdata
    have hset : Quiet (some id) p (p.set id s) := p.set_quiet_except hdata.isFrontend
    have hcalls := (p.set id s).runCallbacks_quiet server id replies.callbacks
    split
    · next q e h =>
      rw [h] at hcalls
      exact ⟨hset.trans (hcalls.weaken.trans (q.clearUID_quiet id)), fun h => by cases h⟩
    · next q h =>
      rw [h] at hcalls
      refine ⟨hset.trans hcalls.weaken, fun _ => ⟨huid, ?_⟩⟩
      rw [hcalls.uid id (some_ne_none id), set_session_self, hdata.uid]
      rfl

/-- A call of `Bind` that gets to the branch of a frontend session. -/
def Registers (p : Pool V) (id : ℕ) (uid : Bytes) (custSessData : StringMap V)
    (replies : BindReplies V) : Prop :=
  (p.session id).isFrontend = true ∧
    (p.bindPrepare server id uid custSessData replies).2 = none

instance (p : Pool V) (id : ℕ) (uid : Bytes) (custSessData : StringMap V)
    (replies : BindReplies V) : Decidable (p.Registers server id uid custSessData replies) :=
  inferInstanceAs (Decidable (_ ∧ _))

/-- **What a call of `Bind` can do**: change at most its own session, or register
it in a pool that differs from the one before in at most its own session. -/
theorem bind_cases (uid : Bytes) (custSessData : StringMap V) (replies : BindReplies V) :
    (¬ p.Registers server id uid custSessData replies ∧
      Quiet (some id) p (p.bind server id uid custSessData replies).1) ∨
    (p.Registers server id uid custSessData replies ∧
      ∃ q, Quiet (some id) p q ∧ uid ≠ [] ∧ (q.session id).uid = uid ∧
        p.bind server id uid custSessData replies =
          (q.register server id uid replies.close, none)) := by
  obtain ⟨hquiet, hspec⟩ := p.bindPrepare_spec server id uid custSessData replies
  unfold Registers bind
  generalize hprepare : p.bindPrepare server id uid custSessData replies = r at *
  obtain ⟨q, err⟩ := r
  cases err with
  | some => exact Or.inl ⟨fun h => (by cases h.2), hquiet⟩
  | none =>
    obtain ⟨hne, huid⟩ := hspec rfl
    dsimp only
    by_cases hfront : (q.session id).isFrontend = true
    · rw [if_pos hfront]
      exact Or.inr ⟨⟨(hquiet.isFrontend id).symm.trans hfront, rfl⟩, q, hquiet, hne, huid, rfl⟩
    · rw [if_neg hfront]
      refine Or.inl ⟨fun h => hfront ((hquiet.isFrontend id).trans h.1), hquiet.trans ?_⟩
      unfold bindElsewhere
      split
      · exact q.clearUID_quiet id
      · exact q.set_quiet_except
          ((q.session id).obtainFromCluster_identity server.codec replies.hgetall).isFrontend

theorem register_sessionsByUID (uid : Bytes) (replies : CloseReplies)
    (hempty : [] ∉ p.sessionsByUID) :
    (p.register server id uid replies).sessionsByUID =
      match p.getSessionByUID uid with
      | none => p.sessionsByUID.insert uid id
      | some old => (p.deleteUID old).sessionsByUID.insert uid id := by
  unfold register getSessionByUID
  cases p.sessionsByUID.lookup uid with
  | none => rfl
  | some old =>
    dsimp only
    rw [p.close_sessionsByUID server old CloseReason.kickRebind replies hempty]

end Pool

end Pitaya
