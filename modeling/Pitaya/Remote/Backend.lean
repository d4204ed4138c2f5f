import Pitaya.Route
import Pitaya.Session.Remote

/-!
# Binding a session to a backend

`BindBackend` of `session/session.go` with the callback of `remote/sys.go`, over a whole
cluster: the server that starts the binding calls the target, and the target runs the same
method and the same callback.

* `bindBackendSession` — the remote method the callback calls on the target.
* `Reaches` — what a server does on its own: no other pool changes, and it alone sends
  notifications.
* `stored_at_caller` — a binding through another server.

Replies of the network, of the store and of other callbacks are arguments.
-/

namespace Pitaya.Backend

open List Function Pool

/-- A server process of the cluster. -/
structure Site (V : Type) where
  codec : Codec V
  /-- `json.Marshal` of the backends. -/
  marshalBackends : StringMap Bytes → Bytes
  frontend : Bool := false
  typ : Bytes := []
  pool : Pool V := {}

/-- The notifications that tell of a binding. -/
inductive Kind where
  /-- `SendRequestToFrontend` of `SessionBindBackendRoute`. -/
  | frontendSync
  /-- `Fork` of `SessionBoundBackendForkRoute`. -/
  | fork
  /-- `NotifyAll` of `SessionBoundBackendRoute`. -/
  | notifyAll
  deriving DecidableEq, Repr

/-- A notification, with its `BindBackendMsg`. -/
structure Notice where
  kind : Kind
  uid : Bytes
  btype : Bytes
  bid : Bytes
  deriving DecidableEq, Repr

/-- The servers by their ids, and the notifications they have sent. -/
structure Servers (V : Type) where
  site : Bytes → Site V
  sent : List (Bytes × Notice) := []

/-- The errors of a binding. -/
inductive BackendError where
  /-- An error of the session package. -/
  | session (e : SessionError)
  /-- `ErrSessionAlreadyBound`, "%w,uid=%s,bound=%s,target=%s". -/
  | sessionAlreadyBound (uid bound target : Bytes)
  /-- `ErrDeveloperLogicFatal`. -/
  | developerLogicFatal
  /-- `ErrIllegalBindBackendID`. -/
  | illegalBindBackendID
  /-- "frontendID is nil…". -/
  | frontendIDNil
  | route (e : RouteError)
  /-- A call that fails, or another callback. -/
  | call (text : Bytes)
  /-- An assignment to a nil map. -/
  | crash
  deriving DecidableEq, Repr

/-- Replies to what the callback does on a server: to the request to the frontend, to the fork,
and of the store to a rollback. -/
structure Replies where
  sync : Option Bytes := none
  fork : Option Bytes := none
  flush : Option Bytes := none
  deriving DecidableEq, Repr

/-- A registered callback: that of `Sys`, or another one with its result.  `C` is what comes of
the call of the target. -/
inductive Callback (C : Type) where
  | sys (replies : Replies) (call : C)
  | other (result : Option Bytes)

/-- A call of the target: it is not known or not reached; where a request without a server id
is routed to; the callbacks there; and the answer does not arrive. -/
structure Call where
  lost : Option Bytes := none
  routed : Bytes := []
  callbacks : List (Callback Unit) := [.sys {} ()]
  flush : Option Bytes := none
  answer : Option Bytes := none

/-- "sys.bindbackendsession". -/
def sessionBindBackendRoute : Bytes :=
  [115, 121, 115, 46, 98, 105, 110, 100, 98, 97, 99, 107, 101, 110, 100, 115, 101, 115, 115, 105,
    111, 110]

/-- "sys.sessionboundbackendfork". -/
def sessionBoundBackendForkRoute : Bytes :=
  [115, 121, 115, 46, 115, 101, 115, 115, 105, 111, 110, 98, 111, 117, 110, 100, 98, 97, 99, 107,
    101, 110, 100, 102, 111, 114, 107]

variable {V : Type}

namespace Servers

/-- Assign the pool of a server. -/
def setPool (cl : Servers V) (me : Bytes) (p : Pool V) : Servers V :=
  { cl with site := Function.update cl.site me { cl.site me with pool := p } }

/-- Assign a session of a server. -/
def setSession (cl : Servers V) (me : Bytes) (id : ℕ) (s : Session V) : Servers V :=
  cl.setPool me ((cl.site me).pool.set id s)

/-- A session of a server. -/
def session (cl : Servers V) (me : Bytes) (id : ℕ) : Session V := (cl.site me).pool.session id

/-- A server sends a notification. -/
def send (cl : Servers V) (me : Bytes) (n : Notice) : Servers V :=
  { cl with sent := cl.sent ++ [(me, n)] }

/-- The server process the pool belongs to. -/
def server (cl : Servers V) (me : Bytes) : Server V where
  codec := (cl.site me).codec
  frontend := (cl.site me).frontend
  id := me

end Servers

def flushBackendData (cl : Servers V) (me : Bytes) (id : ℕ) (hset : Option Bytes) :
    Servers V × Option BackendError :=
  let s := cl.session me id
  if s.uid = [] then (cl, some (.session .illegalUID))
  else
    match hset with
    | some e => (cl, some (.session (.store e)))
    | none =>
      (cl.setPool me ((cl.site me).pool.emit
        [.hset s.clusterStorageKey Session.fieldKeyBackends
          ((cl.site me).marshalBackends s.backends)]), none)

/-- `rollback` of the callback. -/
def rollback (cl : Servers V) (me : Bytes) (id : ℕ) (svrType : Bytes) (flush : Option Bytes) :
    Servers V :=
  let cl := cl.setSession me id ((cl.session me id).removeBackendID svrType)
  let cl := cl.setPool me ((cl.site me).pool.removeSessionLocal id)
  (flushBackendData cl me id flush).1

/-- The end of the callback: `Fork` and `NotifyAll`, whose failures are only logged. -/
def notifyBound (cl : Servers V) (me uid svrType svrID : Bytes) (fork : Option Bytes) : Servers V :=
  match Route.decode (svrType ++ [46] ++ sessionBoundBackendForkRoute) with
  | .error _ => cl
  | .ok _ =>
    let cl := cl.send me ⟨.fork, uid, svrType, svrID⟩
    match fork with
    | some _ => cl
    | none => cl.send me ⟨.notifyAll, uid, svrType, svrID⟩

/-- The callback after the call of the target: store the session and tell of it. -/
def bindLocal (cl : Servers V) (me : Bytes) (id : ℕ) (svrType svrID : Bytes) (replies : Replies) :
    Servers V × Option BackendError :=
  let s := cl.session me id
  match (cl.site me).pool.getSessionByUID s.uid with
  | some _ => (cl, none)
  | none =>
    match (cl.site me).pool.storeSessionLocal id with
    | (p, some e) => (rollback (cl.setPool me p) me id svrType replies.flush, some (.session e))
    | (p, none) =>
      let cl := cl.setPool me p
      if s.frontendID = [] then
        (rollback cl me id svrType replies.flush, some .frontendIDNil)
      else
        let cl := cl.send me ⟨.frontendSync, s.uid, svrType, svrID⟩
        match replies.sync with
        | some e => (rollback cl me id svrType replies.flush, some (.call e))
        | none => (notifyBound cl me s.uid svrType svrID replies.fork, none)

section

variable {C : Type} (rpc : C → Servers V → Servers V × Option BackendError)

/-- The `OnBindBackend` callback of `Sys`.  After the call of another server it goes on as the
target does. -/
def onBindBackend (cl : Servers V) (me : Bytes) (id : ℕ) (svrType svrID : Bytes)
    (replies : Replies) (call : C) : Servers V × Option BackendError :=
  if (cl.site me).frontend then (cl, some .developerLogicFatal)
  else if me ≠ svrID then
    match Route.decode (svrType ++ [46] ++ sessionBindBackendRoute) with
    | .error e => (cl, some (.route e))
    | .ok _ =>
      match rpc call cl with
      | (cl, some e) => (cl, some e)
      | (cl, none) => bindLocal cl me id svrType svrID replies
  else bindLocal cl me id svrType svrID replies

/-- The loop over `bindBackendCallbacks`. -/
def runCallbacks (cl : Servers V) (me : Bytes) (id : ℕ) (svrType svrID : Bytes) :
    List (Callback C) → Servers V × Option BackendError
  | [] => (cl, none)
  | .other (some e) :: _ => (cl, some (.call e))
  | .other none :: callbacks => runCallbacks cl me id svrType svrID callbacks
  | .sys replies call :: callbacks =>
    match onBindBackend rpc cl me id svrType svrID replies call with
    | (cl, some e) => (cl, some e)
    | (cl, none) => runCallbacks cl me id svrType svrID callbacks

def bindBackend (cl : Servers V) (me : Bytes) (id : ℕ) (svrType svrID : Bytes)
    (callbacks : List (Callback C)) : Servers V × Option BackendError :=
  let s := cl.session me id
  if s.uid = [] then (cl, some (.session .illegalUID))
  else if s.getBackendID svrType ≠ [] then
    (cl, some (.sessionAlreadyBound s.uid (s.getBackendID svrType) svrID))
  else
    match s.setBackendID svrType svrID with
    | .crash => (cl, some .crash)
    | .ok s =>
      match runCallbacks rpc (cl.setSession me id s) me id svrType svrID callbacks with
      | (cl, some e) =>
        (cl.setSession me id ((cl.session me id).removeBackendID svrType), some e)
      | (cl, none) => (cl, none)

end

/-- `BindBackendSession`, for a request with session `ctx`.  The target does not call on, as it
is the target; a crash is an error of the call. -/
def bindBackendSession (cl : Servers V) (me : Bytes) (ctx : ℕ) (uid svrType svrID : Bytes)
    (callbacks : List (Callback Unit)) (flush : Option Bytes) : Servers V × Option BackendError :=
  if (cl.site me).frontend then
    match (cl.site me).pool.getSessionByUID uid with
    | none => (cl, some (.session .sessionNotFound))
    | some id =>
      match (cl.session me id).setBackendID svrType svrID with
      | .crash => (cl, some .crash)
      | .ok s => flushBackendData (cl.setSession me id s) me id flush
  else if svrType ≠ (cl.site me).typ ∨ svrID ≠ me then (cl, some .illegalBindBackendID)
  else
    let bind (id : ℕ) := bindBackend (fun _ cl => (cl, some .illegalBindBackendID)) cl me id
      svrType svrID callbacks
    match (cl.site me).pool.getSessionByUID uid with
    | some id => bind id
    | none =>
      if (cl.session me ctx).uid ≠ uid then (cl, some (.session .sessionNotFound)) else bind ctx

/-- The session in a request, as `buildRequest` makes it.  A map without entries does not
arrive. -/
def protoSession (s : Session V) : ProtoSession where
  id := s.frontendSessionID
  uid := s.uid
  data := s.encodedData
  backends := if s.backends.len = 0 then none else s.backends
  ip := s.ip

/-- The request arrives at a server: its session is set up, and the method runs. -/
def serve (cl : Servers V) (me : Bytes) (sess : ProtoSession) (frontendID svrType svrID : Bytes)
    (call : Call) : Servers V × Option BackendError :=
  match (cl.site me).pool.newRemote (cl.server me) (some sess) frontendID with
  | .crash => (cl, some .crash)
  | .ok (p, .error e) => (cl.setPool me p, some (.session e))
  | .ok (p, .ok ctx) =>
    bindBackendSession (cl.setPool me p) me ctx sess.uid svrType svrID call.callbacks call.flush

/-- The server a request goes to: the one it names, or else the one it is routed to. -/
def target (svrID : Bytes) (call : Call) : Bytes := if svrID = [] then call.routed else svrID

/-- `RPC` of `SessionBindBackendRoute` to the target. -/
def rpc (me : Bytes) (id : ℕ) (svrType svrID : Bytes) (call : Call) (cl : Servers V) :
    Servers V × Option BackendError :=
  match call.lost with
  | some e => (cl, some (.call e))
  | none =>
    let frontendID := if (cl.site me).frontend then me else []
    match serve cl (target svrID call) (protoSession (cl.session me id)) frontendID svrType svrID
        call with
    | (cl, some e) => (cl, some e)
    | (cl, none) => (cl, call.answer.map .call)

/-- `BindBackend` on a server of the cluster. -/
def start (cl : Servers V) (me : Bytes) (id : ℕ) (svrType svrID : Bytes)
    (callbacks : List (Callback Call)) : Servers V × Option BackendError :=
  bindBackend (rpc me id svrType svrID) cl me id svrType svrID callbacks

/-! ## What a server does on its own -/

section

variable {me uid svrType svrID : Bytes} {id : ℕ} {cl cl' cl'' : Servers V}

@[simp] theorem setPool_site (cl : Servers V) (me : Bytes) (p : Pool V) :
    (cl.setPool me p).site me = { cl.site me with pool := p } :=
  update_self ..

@[simp] theorem setPool_session (cl : Servers V) (me : Bytes) (p : Pool V) (id : ℕ) :
    (cl.setPool me p).session me id = p.session id := by
  rw [Servers.session, setPool_site]

@[simp] theorem setSession_session (cl : Servers V) (me : Bytes) (id : ℕ) (s : Session V) :
    (cl.setSession me id s).session me id = s := by
  rw [Servers.setSession, setPool_session]
  exact update_self ..

/-- Only the pool of one server changes, and only that server sends notifications, all of
them such that `P`. -/
structure Reaches (me : Bytes) (P : Notice → Prop) (cl cl' : Servers V) : Prop where
  site : ∀ other, other ≠ me → cl'.site other = cl.site other
  sent : ∃ new, cl'.sent = cl.sent ++ new ∧ ∀ n ∈ new, n.1 = me ∧ P n.2

namespace Reaches

variable {P : Notice → Prop}

theorem refl (cl : Servers V) : Reaches me P cl cl :=
  ⟨fun _ _ => rfl, [], (append_nil _).symm, nofun⟩

theorem trans (h : Reaches me P cl cl') (h' : Reaches me P cl' cl'') : Reaches me P cl cl'' := by
  obtain ⟨new, hsent, hnew⟩ := h.sent
  obtain ⟨new', hsent', hnew'⟩ := h'.sent
  refine ⟨fun other hne => (h'.site other hne).trans (h.site other hne), new ++ new', ?_, ?_⟩
  · rw [hsent', hsent, append_assoc]
  · intro n hn
    exact (mem_append.mp hn).elim (hnew n) (hnew' n)

theorem setPool (cl : Servers V) (p : Pool V) : Reaches me P cl (cl.setPool me p) :=
  ⟨fun _ hne => update_of_ne hne .., [], (append_nil _).symm, nofun⟩

theorem setSession (cl : Servers V) (s : Session V) : Reaches me P cl (cl.setSession me id s) :=
  setPool cl _

theorem send (cl : Servers V) {n : Notice} (hn : P n) : Reaches me P cl (cl.send me n) := by
  refine ⟨fun _ _ => rfl, [(me, n)], rfl, ?_⟩
  rintro _ (_ | ⟨_, ⟨⟩⟩)
  exact ⟨rfl, hn⟩

theorem flushBackendData (cl : Servers V) (hset : Option Bytes) :
    Reaches me P cl (flushBackendData cl me id hset).1 := by
  unfold Backend.flushBackendData
  dsimp only
  split
  · exact refl cl
  split
  · exact refl cl
  · exact setPool cl _

theorem rollback (cl : Servers V) (flush : Option Bytes) :
    Reaches me P cl (rollback cl me id svrType flush) :=
  ((setSession cl _).trans (setPool _ _)).trans (flushBackendData _ flush)

theorem notifyBound (cl : Servers V) (fork : Option Bytes)
    (hP : ∀ kind, P ⟨kind, uid, svrType, svrID⟩) :
    Reaches me P cl (notifyBound cl me uid svrType svrID fork) := by
  unfold Backend.notifyBound
  split
  · exact refl cl
  have hfork : Reaches me P cl (cl.send me _) := send cl (hP .fork)
  split
  · exact hfork
  · exact hfork.trans (send _ (hP .notifyAll))

/-- The callback after the call of the target tells of the user of the session. -/
theorem bindLocal (cl : Servers V) (replies : Replies) (hP : (cl.session me id).frontendID ≠ [] →
      (cl.site me).pool.getSessionByUID (cl.session me id).uid = none →
      ∀ kind, P ⟨kind, (cl.session me id).uid, svrType, svrID⟩) :
    Reaches me P cl (bindLocal cl me id svrType svrID replies).1 := by
  unfold Backend.bindLocal
  dsimp only
  split
  · exact refl cl
  next hnone =>
  split
  · exact (setPool cl _).trans (rollback _ _)
  next p _ =>
  split
  · exact (setPool cl p).trans (rollback _ _)
  next hfrontend =>
  have hP := hP hfrontend hnone
  have hsync := (setPool cl p).trans (send (cl.setPool me p) (hP .frontendSync))
  split
  · exact hsync.trans (rollback _ _)
  · exact hsync.trans (notifyBound _ _ hP)

end Reaches

/-! ## Whose session it is -/

/-- The session belongs to the same user and to the same frontend. -/
structure SameOwner (me : Bytes) (id : ℕ) (cl cl' : Servers V) : Prop where
  uid : (cl'.session me id).uid = (cl.session me id).uid
  frontendID : (cl'.session me id).frontendID = (cl.session me id).frontendID

namespace SameOwner

theorem refl (cl : Servers V) : SameOwner me id cl cl := ⟨rfl, rfl⟩

theorem trans (h : SameOwner me id cl cl') (h' : SameOwner me id cl' cl'') :
    SameOwner me id cl cl'' :=
  ⟨h'.uid.trans h.uid, h'.frontendID.trans h.frontendID⟩

theorem of_eq (h : cl'.session me id = cl.session me id) : SameOwner me id cl cl' := by
  constructor <;> rw [h]

theorem removeBackendID (cl : Servers V) (svrType : Bytes) :
    SameOwner me id cl (cl.setSession me id ((cl.session me id).removeBackendID svrType)) := by
  constructor <;> rw [setSession_session] <;> rfl

end SameOwner

theorem storeSessionLocal_session (p : Pool V) (id : ℕ) :
    (p.storeSessionLocal id).1.session = p.session := by
  unfold storeSessionLocal
  dsimp only
  split
  · rfl
  split <;> rfl

theorem removeSessionLocal_session (p : Pool V) :
    (p.removeSessionLocal id).session = p.session := by
  unfold removeSessionLocal deleteUID
  dsimp only
  split <;> split <;> rfl

theorem storeSessionLocal_cached {p p' : Pool V} (h : p.storeSessionLocal id = (p', none)) :
    p'.getSessionByUID (p.session id).uid = some id := by
  unfold storeSessionLocal at h
  dsimp only at h
  split at h
  · cases h
  split at h <;> cases h <;> exact Finmap.lookup_insert _

theorem flushBackendData_session (cl : Servers V) (hset : Option Bytes) :
    (flushBackendData cl me id hset).1.session me id = cl.session me id := by
  unfold flushBackendData
  dsimp only
  split
  · rfl
  split
  · rfl
  · exact setPool_session ..

theorem rollback_sameOwner (cl : Servers V) (flush : Option Bytes) :
    SameOwner me id cl (rollback cl me id svrType flush) := by
  refine (SameOwner.removeBackendID cl svrType).trans (.of_eq ?_)
  rw [rollback, flushBackendData_session, setPool_session, removeSessionLocal_session]
  rfl

theorem notifyBound_site (cl : Servers V) (fork : Option Bytes) :
    (notifyBound cl me uid svrType svrID fork).site = cl.site := by
  unfold notifyBound
  split
  · rfl
  · cases fork <;> rfl

/-- The callback after the call of the target keeps the owner of the session; if it succeeds the
session of the user is cached. -/
theorem bindLocal_spec (cl : Servers V) (replies : Replies) :
    SameOwner me id cl (bindLocal cl me id svrType svrID replies).1 ∧
      ((bindLocal cl me id svrType svrID replies).2 = none →
        (((bindLocal cl me id svrType svrID replies).1.site me).pool.getSessionByUID
          (cl.session me id).uid).isSome = true) := by
  unfold bindLocal
  dsimp only
  split
  · next hsome => exact ⟨.refl cl, fun _ => by rw [hsome]; rfl⟩
  have hstore (p : Pool V) (e : Option SessionError)
      (hp : (cl.site me).pool.storeSessionLocal id = (p, e)) :
      SameOwner me id cl (cl.setPool me p) := by
    have hsession := storeSessionLocal_session (cl.site me).pool id
    rw [hp] at hsession
    refine .of_eq ?_
    rw [setPool_session, hsession]
    rfl
  split
  · next p e hp => exact ⟨(hstore p _ hp).trans (rollback_sameOwner _ _), nofun⟩
  next p hp =>
  split
  · exact ⟨(hstore p _ hp).trans (rollback_sameOwner _ _), nofun⟩
  have hsend (n : Notice) : SameOwner me id cl ((cl.setPool me p).send me n) :=
    (hstore p _ hp).trans (.of_eq rfl)
  split
  · exact ⟨(hsend _).trans (rollback_sameOwner _ _), nofun⟩
  · refine ⟨(hsend ⟨.frontendSync, (cl.session me id).uid, svrType, svrID⟩).trans (.of_eq ?_),
      fun _ => ?_⟩
    · rw [Servers.session, notifyBound_site]
      rfl
    · rw [notifyBound_site]
      show (((cl.setPool me p).site me).pool.getSessionByUID _).isSome = true
      rw [setPool_site]
      have hcached := storeSessionLocal_cached hp
      change p.getSessionByUID (cl.session me id).uid = _ at hcached
      rw [hcached]
      rfl

/-! ## The target -/

/-- The session tells nobody of the user: it is another user's, the user is cached already, or
there is no frontend to tell. -/
def Mute (cl : Servers V) (me : Bytes) (id : ℕ) (uid : Bytes) : Prop :=
  (cl.session me id).uid ≠ uid ∨ ((cl.site me).pool.getSessionByUID uid).isSome = true ∨
    (cl.session me id).frontendID = []

theorem bindLocal_mute (h : Mute cl me id uid) (replies : Replies) :
    Reaches me (fun n => n.uid ≠ uid) cl (bindLocal cl me id svrType svrID replies).1 ∧
      Mute (bindLocal cl me id svrType svrID replies).1 me id uid := by
  obtain ⟨howner, -⟩ := @bindLocal_spec V me svrType svrID id cl replies
  constructor
  · refine .bindLocal cl replies fun hfrontend hnone _ huid => ?_
    change (cl.session me id).uid = uid at huid
    rw [huid] at hnone
    rcases h with h | h | h
    · exact h huid
    · rw [hnone] at h
      cases h
    · exact hfrontend h
  · by_cases huid : (cl.session me id).uid = uid
    · rcases h with h | h | h
      · exact absurd huid h
      · obtain ⟨cached, hcached⟩ := Option.isSome_iff_exists.mp h
        refine .inr (.inl ?_)
        rw [bindLocal, huid, hcached]
        exact h
      · exact .inr (.inr (howner.frontendID.trans h))
    · exact .inl (howner.uid.symm ▸ huid)

section

variable {C : Type} {rpc : C → Servers V → Servers V × Option BackendError}
  {P : Notice → Prop} {I : Servers V → Prop}

section

variable (hlocal : ∀ cl replies, I cl → Reaches me P cl (bindLocal cl me id svrType me replies).1 ∧
  I (bindLocal cl me id svrType me replies).1)
include hlocal

theorem runCallbacks_reaches (hcl : I cl) (callbacks : List (Callback C)) :
    Reaches me P cl (runCallbacks rpc cl me id svrType me callbacks).1 := by
  induction callbacks generalizing cl with
  | nil => exact .refl cl
  | cons callback callbacks ih =>
    cases callback with
    | other result =>
      cases result with
      | some => exact .refl cl
      | none => exact ih hcl
    | sys replies =>
      obtain ⟨hreaches, hI⟩ := hlocal cl replies hcl
      rw [runCallbacks, onBindBackend, if_neg (not_not.mpr rfl)]
      by_cases hfrontend : (cl.site me).frontend = true
      · rw [if_pos hfrontend]
        exact .refl cl
      · rw [if_neg hfrontend]
        split
        · next heq =>
          rw [heq] at hreaches
          exact hreaches
        · next heq =>
          rw [heq] at hreaches hI
          exact hreaches.trans (ih hI)

theorem bindBackend_reaches
    (hcl : ∀ s, (cl.session me id).setBackendID svrType me = .ok s → I (cl.setSession me id s))
    (callbacks : List (Callback C)) :
    Reaches me P cl (bindBackend rpc cl me id svrType me callbacks).1 := by
  unfold bindBackend
  dsimp only
  split
  · exact .refl cl
  split
  · exact .refl cl
  split
  · exact .refl cl
  · next s hs =>
    have hrun : Reaches me P cl
        (runCallbacks rpc (cl.setSession me id s) me id svrType me callbacks).1 :=
      (Reaches.setSession cl s).trans (runCallbacks_reaches hlocal (hcl s hs) callbacks)
    split
    · next heq =>
      rw [heq] at hrun
      exact hrun.trans (.setSession _ _)
    · next heq =>
      rw [heq] at hrun
      exact hrun

end

end

theorem setBackendID_owner {s s' : Session V} (h : s.setBackendID svrType svrID = .ok s') :
    s'.uid = s.uid ∧ s'.frontendID = s.frontendID := by
  unfold Session.setBackendID at h
  split at h <;> cases h
  exact ⟨rfl, rfl⟩

theorem Mute.setSession (h : Mute cl me id uid) {s : Session V}
    (hs : (cl.session me id).setBackendID svrType svrID = .ok s) :
    Mute (cl.setSession me id s) me id uid := by
  obtain ⟨huid, hfrontend⟩ := setBackendID_owner hs
  unfold Mute at h ⊢
  rw [setSession_session, huid, hfrontend, Servers.setSession, setPool_site]
  exact h

theorem bindBackendSession_reaches {ctx : ℕ}
    (hctx : (cl.site me).frontend = false → (cl.site me).pool.getSessionByUID uid = none →
      (cl.session me ctx).frontendID = [])
    (callbacks : List (Callback Unit)) (flush : Option Bytes) :
    Reaches me (fun n => n.uid ≠ uid) cl
      (bindBackendSession cl me ctx uid svrType svrID callbacks flush).1 := by
  unfold bindBackendSession
  split
  · split
    · exact .refl cl
    split
    · exact .refl cl
    · exact (Reaches.setSession cl _).trans (.flushBackendData _ _)
  next hbackend =>
  split
  · exact .refl cl
  next htarget =>
  obtain ⟨-, hme⟩ := not_or.mp htarget
  obtain rfl := not_not.mp hme
  have hbind (id : ℕ) (hmute : Mute cl svrID id uid) :=
    @bindBackend_reaches V svrID svrType id cl Unit (fun _ cl => (cl, some .illegalBindBackendID))
      (fun n => n.uid ≠ uid) (fun cl => Mute cl svrID id uid)
      (fun cl replies h => bindLocal_mute h replies) (fun s hs => hmute.setSession hs) callbacks
  split
  · next id hcached => exact hbind id (.inr (.inl (by rw [hcached]; rfl)))
  · next hnone =>
    split
    · exact .refl cl
    · exact hbind ctx (.inr (.inr (hctx (Bool.not_eq_true _ ▸ hbackend) hnone)))

/-- **A call of the target** tells nobody of the user. -/
theorem serve_reaches (cl : Servers V) (sess : ProtoSession) (call : Call) :
    Reaches me (fun n => n.uid ≠ sess.uid) cl (serve cl me sess [] svrType svrID call).1 := by
  unfold serve
  split
  · exact .refl cl
  · exact .setPool cl _
  · next p ctx hnew =>
    refine (Reaches.setPool cl p).trans (bindBackendSession_reaches (fun hbackend hnone => ?_) _ _)
    obtain ⟨hcache, hfrontend⟩ := newRemote_ok _ hnew
    rw [setPool_site] at hbackend hnone
    rw [setPool_session]
    refine hfrontend hbackend ?_
    rwa [getSessionByUID, hcache] at hnone

/-! ## The server that starts the binding -/

theorem rpc_reaches (hme : (cl.site me).frontend = false) (call : Call) :
    Reaches (target svrID call) (fun n => n.uid ≠ (cl.session me id).uid) cl
      (rpc me id svrType svrID call cl).1 := by
  unfold rpc
  split
  · exact .refl cl
  have hserve := @serve_reaches V (target svrID call) svrType svrID cl
    (protoSession (cl.session me id)) call
  dsimp only
  rw [hme, if_neg Bool.false_ne_true]
  split
  · next heq =>
    rw [heq] at hserve
    exact hserve
  · next heq =>
    rw [heq] at hserve
    exact hserve

theorem target_ne_of_rpc (hme : (cl.site me).frontend = false) (hne : me ≠ svrID) {call : Call}
    (hok : (rpc me id svrType svrID call cl).2 = none) : target svrID call ≠ me := by
  intro htarget
  have hserve (sess : ProtoSession) (frontendID : Bytes) :
      (serve cl me sess frontendID svrType svrID call).2 ≠ none := by
    unfold serve
    split
    · exact nofun
    · exact nofun
    · unfold bindBackendSession
      rw [setPool_site, if_neg (by simp [hme]), if_pos (.inr (Ne.symm hne))]
      exact nofun
  unfold rpc at hok
  split at hok
  · cases hok
  dsimp only at hok
  rw [htarget] at hok
  split at hok
  · cases hok
  · next heq =>
    exact hserve _ _ (congrArg Prod.snd heq)

/-- What is sent tells of other users, or is sent by the server itself. -/
def Tells (me uid : Bytes) (cl cl' : Servers V) : Prop :=
  ∃ new, cl'.sent = cl.sent ++ new ∧ ∀ n ∈ new, n.1 = me ∨ n.2.uid ≠ uid

theorem Tells.refl (cl : Servers V) : Tells me uid cl cl := ⟨[], (List.append_nil _).symm, nofun⟩

theorem Tells.trans (h : Tells me uid cl cl') (h' : Tells me uid cl' cl'') :
    Tells me uid cl cl'' := by
  obtain ⟨new, hsent, hnew⟩ := h
  obtain ⟨new', hsent', hnew'⟩ := h'
  refine ⟨new ++ new', by rw [hsent', hsent, append_assoc], fun n hn => ?_⟩
  exact (mem_append.mp hn).elim (hnew n) (hnew' n)

theorem Reaches.tells_self {P : Notice → Prop} (h : Reaches me P cl cl') : Tells me uid cl cl' := by
  obtain ⟨new, hsent, hnew⟩ := h.sent
  exact ⟨new, hsent, fun n hn => .inl (hnew n hn).1⟩

theorem Reaches.tells {other : Bytes} (h : Reaches other (fun n => n.uid ≠ uid) cl cl') :
    Tells me uid cl cl' := by
  obtain ⟨new, hsent, hnew⟩ := h.sent
  exact ⟨new, hsent, fun n hn => .inr (hnew n hn).2⟩

/-- The user has a session in the pool. -/
def Cached (cl : Servers V) (me uid : Bytes) : Prop :=
  ((cl.site me).pool.getSessionByUID uid).isSome = true

/-- What the callback does after the call: it may tell of the user; and if it succeeds, the user
is cached. -/
theorem bindLocal_tells {replies : Replies} {e : Option BackendError}
    (h : bindLocal cl me id svrType svrID replies = (cl', e))
    (huid : (cl.session me id).uid = uid) :
    Tells me uid cl cl' ∧ (e = none → (cl'.session me id).uid = uid ∧ Cached cl' me uid) := by
  obtain ⟨howner, hcached⟩ := @bindLocal_spec V me svrType svrID id cl replies
  have hreaches : Reaches me (fun _ => True) cl (bindLocal cl me id svrType svrID replies).1 :=
    .bindLocal cl replies fun _ _ _ => trivial
  rw [h] at howner hreaches
  rw [h, huid] at hcached
  exact ⟨hreaches.tells_self, fun hok => ⟨howner.uid.trans huid, hcached hok⟩⟩

/-- The callback on the server that starts the binding does the same, as the target tells
nobody of the user. -/
theorem onBindBackend_tells {replies : Replies} {call : Call} {e : Option BackendError}
    (h : onBindBackend (rpc me id svrType svrID) cl me id svrType svrID replies call = (cl', e))
    (huid : (cl.session me id).uid = uid) :
    Tells me uid cl cl' ∧ (e = none → (cl'.session me id).uid = uid ∧ Cached cl' me uid) := by
  unfold onBindBackend at h
  split at h
  · cases h
    exact ⟨.refl cl, nofun⟩
  next hbackend =>
  split at h
  · next hne =>
    split at h
    · cases h
      exact ⟨.refl cl, nofun⟩
    have hme := Bool.not_eq_true _ ▸ hbackend
    have hreaches := @rpc_reaches V me svrType svrID id cl hme call
    rw [huid] at hreaches
    split at h
    · next heq =>
      cases h
      rw [heq] at hreaches
      exact ⟨hreaches.tells, nofun⟩
    · next cl₁ heq =>
      have htarget := @target_ne_of_rpc V me svrType svrID id cl hme hne call (by rw [heq])
      rw [heq] at hreaches
      have huid₁ : (cl₁.session me id).uid = uid := by
        rw [Servers.session, hreaches.site me htarget.symm]
        exact huid
      obtain ⟨htells, hok⟩ := bindLocal_tells h huid₁
      exact ⟨hreaches.tells.trans htells, hok⟩
  · exact bindLocal_tells h huid

variable {callbacks : List (Callback Call)}

theorem runCallbacks_tells {e : Option BackendError}
    (h : runCallbacks (rpc me id svrType svrID) cl me id svrType svrID callbacks = (cl', e))
    (huid : (cl.session me id).uid = uid) :
    Tells me uid cl cl' ∧
      (e = none → (Cached cl me uid ∨ ∃ replies call, .sys replies call ∈ callbacks) →
        Cached cl' me uid) := by
  induction callbacks generalizing cl with
  | nil =>
    cases h
    refine ⟨.refl _, ?_⟩
    rintro - (hcached | ⟨_, _, hmem⟩)
    · exact hcached
    · cases hmem
  | cons callback callbacks ih =>
    cases callback with
    | other result =>
      cases result with
      | some =>
        cases h
        exact ⟨.refl _, nofun⟩
      | none =>
        obtain ⟨htells, hcached⟩ := ih h huid
        refine ⟨htells, fun hok hsys => hcached hok (hsys.imp_right ?_)⟩
        rintro ⟨replies, call, hmem⟩
        refine ⟨replies, call, ?_⟩
        simpa using hmem
    | sys =>
      rw [runCallbacks] at h
      split at h
      · next heq =>
        cases h
        exact ⟨(onBindBackend_tells heq huid).1, nofun⟩
      · next cl₁ heq =>
        obtain ⟨htells, hok⟩ := onBindBackend_tells heq huid
        obtain ⟨huid₁, hcached₁⟩ := hok rfl
        obtain ⟨htells₁, hcached⟩ := ih h huid₁
        exact ⟨htells.trans htells₁, fun hok _ => hcached hok (.inl hcached₁)⟩

theorem start_tells {e : Option BackendError}
    (h : start cl me id svrType svrID callbacks = (cl', e)) :
    Tells me (cl.session me id).uid cl cl' ∧
      (e = none → (∃ replies call, .sys replies call ∈ callbacks) →
        Cached cl' me (cl.session me id).uid) := by
  unfold start bindBackend at h
  dsimp only at h
  split at h
  · cases h
    exact ⟨.refl _, nofun⟩
  split at h
  · cases h
    exact ⟨.refl _, nofun⟩
  split at h
  · cases h
    exact ⟨.refl _, nofun⟩
  · next s hs =>
    have huid : ((cl.setSession me id s).session me id).uid = (cl.session me id).uid := by
      rw [setSession_session]
      exact (setBackendID_owner hs).1
    have hset : Tells me (cl.session me id).uid cl (cl.setSession me id s) :=
      @Reaches.tells_self V me _ cl _ (fun _ => True) (.setSession cl s)
    split at h
    · next heq =>
      cases h
      refine ⟨(hset.trans (runCallbacks_tells heq huid).1).trans ?_, nofun⟩
      exact @Reaches.tells_self V me _ _ _ (fun _ => True) (.setSession _ _)
    · next heq =>
      cases h
      obtain ⟨htells, hcached⟩ := runCallbacks_tells heq huid
      exact ⟨hset.trans htells, fun hok hsys => hcached hok (.inr hsys)⟩

/-! ## Where the session is stored -/

/-- A binding leaves every pool but that of the target as it is: none gains an entry of the
user, and if the binding started elsewhere, the tables there are the same and the target has
sent each notification once. -/
structure OnlyAtTarget (cl cl' : Servers V) (me uid svrType svrID : Bytes) : Prop where
  gains : ∀ other, ¬Cached cl other uid → Cached cl' other uid → other = svrID
  tables : me ≠ svrID → (cl'.site me).pool.sessionsByUID = (cl.site me).pool.sessionsByUID ∧
    (cl'.site me).pool.sessionsByID = (cl.site me).pool.sessionsByID
  notices : me ≠ svrID → ∀ kind, cl'.sent.filter (fun n => n.2 = ⟨kind, uid, svrType, svrID⟩)
    = [(svrID, ⟨kind, uid, svrType, svrID⟩)]

/-- **Where a binding stores the session.**  In every cluster and for every `BindBackend` that
succeeds, the session is stored only on the target, which sends the notifications, if and only if
the binding is started on the target; and the server it is started on has a session of the user
in its pool, whether it is the target or not. -/
theorem onlyAtTarget_iff (site : Bytes → Site V) (me svrType svrID : Bytes) (id : ℕ)
    (callbacks : List (Callback Call)) (cl' : Servers V)
    (hok : start { site := site } me id svrType svrID callbacks = (cl', none)) :
    (OnlyAtTarget { site := site } cl' me ((site me).pool.session id).uid svrType svrID ↔
        me = svrID) ∧
      ((∃ replies call, .sys replies call ∈ callbacks) →
        Cached cl' me ((site me).pool.session id).uid) := by
  obtain ⟨⟨new, hsent, hnew⟩, hcached⟩ := start_tells hok
  refine ⟨⟨fun honly => ?_, ?_⟩, hcached rfl⟩
  · -- the target has told nobody of the user
    by_contra hne
    have hfork := honly.notices hne .fork
    have hmem := List.mem_of_mem_filter (hfork ▸ List.mem_singleton_self _)
    rw [hsent] at hmem
    rcases hnew _ hmem with hself | huid
    · exact hne hself.symm
    · exact huid rfl
  · rintro rfl
    have hreaches : Reaches me (fun _ => True) { site := site } cl' := by
      have hstart := @bindBackend_reaches V me svrType id { site := site } Call
        (rpc me id svrType me) (fun _ => True) (fun _ => True)
        (fun cl replies _ => ⟨.bindLocal cl replies fun _ _ _ => trivial, trivial⟩)
        (fun _ _ => trivial) callbacks
      rw [start] at hok
      rw [hok] at hstart
      exact hstart
    refine ⟨fun other hnot hcached => ?_, absurd rfl, absurd rfl⟩
    by_contra hne
    rw [Cached, hreaches.site other hne] at hcached
    exact hnot hcached

end

/-- A session of user "x" that came with a request of frontend "f". -/
def fromFrontend : Session Bytes where
  uid := [120]
  entity := .remote
  isFrontend := false
  frontendID := [102]

/-- The servers of a cluster.  Server "b" is of type "t" and has a session of user "x" in its
pool; the others have one from a request. -/
def servers (me : Bytes) : Site Bytes where
  codec := .strings []
  marshalBackends := (Codec.strings [([116], [97]), ([116], [98])]).bytes
  typ := [116]
  pool :=
    if me = [98] then
      { session := fun _ => fromFrontend
        sid := 1
        sessionsByUID := Finmap.singleton [120] 1
        sessionsByID := {1}
        sessionCount := 1
        userCount := 1 }
    else { session := fun _ => fromFrontend, sid := 1 }

/-- Server "a" binds the session to backend "b": "a" stores it, and sends all notifications. -/
theorem stored_at_caller :
    ∃ cl', start { site := servers } [97] 1 [116] [98] [.sys {} {}] = (cl', none) ∧
      ¬Cached { site := servers } [97] [120] ∧ Cached cl' [97] [120] ∧
      cl'.sent = [([97], ⟨.frontendSync, [120], [116], [98]⟩), ([97], ⟨.fork, [120], [116], [98]⟩),
        ([97], ⟨.notifyAll, [120], [116], [98]⟩)] := by
  refine ⟨_, Prod.ext rfl ?_, ?_, ?_, ?_⟩
  · decide +kernel
  · unfold Cached
    decide +kernel
  · unfold Cached
    decide +kernel
  · decide +kernel

/-- Server "a" binds the session to itself. -/
theorem onlyAtTarget_self :
    ∃ cl', start { site := servers } [97] 1 [116] [97] [.sys {} {}] = (cl', none) ∧
      OnlyAtTarget { site := servers } cl' [97] [120] [116] [97] := by
  have hok : start { site := servers } [97] 1 [116] [97] [.sys {} {}] =
      ((start { site := servers } [97] 1 [116] [97] [.sys {} {}]).1, none) :=
    Prod.ext rfl (by decide +kernel)
  exact ⟨_, hok, (onlyAtTarget_iff servers [97] [116] [97] 1 [.sys {} {}] _ hok).1.mpr rfl⟩

end Pitaya.Backend
