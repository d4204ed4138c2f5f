import Pitaya.Remote.Backend

/-!
# Unbinding a session from a backend

`KickBackend` of `session/session.go` with the callback of `remote/sys.go`, and the remote methods
that tell other servers of a binding and of its end.  The messages name the backend, but what they
remove is the binding of the server type, whichever backend it names by then.

* `kickBackendRemote`, `sessionBoundBackend`, `sessionKickedBackend` — the remote methods.
* `late_kick_erases` — a message about the old backend arrives after the binding to the new one.

What a server sends is not recorded, as any message may arrive at any time.
-/

namespace Pitaya.Backend

open Transition Option

/-- `protos.BindBackendMsg`. -/
structure BindBackendMsg where
  uid : Bytes
  btype : Bytes
  bid : Bytes
  deriving DecidableEq, Repr

/-- What comes of the call of another server by the callback. -/
inductive Called where
  | done
  /-- `ErrServerNotFound`. -/
  | serverNotFound
  | failed (text : Bytes)
  deriving DecidableEq, Repr

/-- Replies to the callback: of the server the session is bound to, of the frontend, and of the
store. -/
structure UnbindReplies where
  rpc : Called := .done
  sync : Option Bytes := none
  flush : Option Bytes := none
  deriving DecidableEq, Repr

/-- A registered callback: that of `Sys`, or another one with its result. -/
inductive KickCallback where
  | sys (replies : UnbindReplies)
  | other (result : Option Bytes)
  deriving DecidableEq, Repr

/-- The errors of unbinding. -/
inductive UnbindError where
  /-- `ErrSessionNotBoundBackend`. -/
  | sessionNotBoundBackend
  | backend (e : BackendError)
  deriving DecidableEq, Repr

/-- "sys.kickbackend". -/
def kickBackendRoute : Bytes :=
  [115, 121, 115, 46, 107, 105, 99, 107, 98, 97, 99, 107, 101, 110, 100]

variable {V : Type}

variable (cl : Servers V) (me : Bytes) (id : ℕ)

/-- `RemoveSessionLocal`, on the server the session was bound to. -/
def removeAtTarget (svrID : Bytes) : Servers V :=
  if me = svrID then cl.setPool me ((cl.site me).pool.removeSessionLocal id) else cl

/-- The end of the callback: the frontend is told, or the store is written in its place; that the
others are told does not fail. -/
def unbindLocal (svrID : Bytes) (reason : CloseReason)
    (replies : UnbindReplies) : Servers V × Option UnbindError :=
  let cl := removeAtTarget cl me id svrID
  if reason = CloseReason.kickRebind then (cl, none)
  else if (cl.session me id).frontendID ≠ [] ∧ replies.sync = none then (cl, none)
  else
    match flushBackendData cl me id replies.flush with
    | (cl, some e) => (cl, some (.backend e))
    | (cl, none) => (cl, none)

/-- The `OnKickBackend` callback of `Sys`. -/
def onKickBackend (svrType svrID : Bytes)
    (reason : CloseReason) (replies : UnbindReplies) : Servers V × Option UnbindError :=
  if (cl.site me).frontend then (cl, some (.backend .developerLogicFatal))
  else if me ≠ svrID then
    match Route.decode (svrType ++ [46] ++ kickBackendRoute) with
    | .error e => (cl, some (.backend (.route e)))
    | .ok _ =>
      match replies.rpc with
      | .done => (cl, none)
      | .failed e => (cl, some (.backend (.call e)))
      -- the server is down, and this one does its part
      | .serverNotFound => unbindLocal cl me id svrID reason replies
  else unbindLocal cl me id svrID reason replies

/-- The loop over `kickBackendCallbacks`.  An error leaves the binding removed. -/
def runKickCallbacks (cl : Servers V) (me : Bytes) (id : ℕ) (svrType svrID : Bytes)
    (reason : CloseReason) : List KickCallback → Servers V × Option UnbindError
  | [] => (cl, none)
  | .other (some e) :: _ => (cl, some (.backend (.call e)))
  | .other none :: callbacks => runKickCallbacks cl me id svrType svrID reason callbacks
  | .sys replies :: callbacks =>
    match onKickBackend cl me id svrType svrID reason replies with
    | (cl, some e) => (cl, some e)
    | (cl, none) => runKickCallbacks cl me id svrType svrID reason callbacks

/-- `sessionImpl.KickBackend`. -/
def kickBackend (svrType : Bytes) (reason : CloseReason)
    (callbacks : List KickCallback) : Servers V × Option UnbindError :=
  let s := cl.session me id
  if s.uid = [] then (cl, some (.backend (.session .illegalUID)))
  else if s.getBackendID svrType = [] then (cl, some .sessionNotBoundBackend)
  else
    runKickCallbacks (cl.setSession me id (s.removeBackendID svrType)) me id svrType
      (s.getBackendID svrType) reason callbacks

variable (msg : BindBackendMsg)

/-- `Sys.KickBackend`. -/
def kickBackendRemote
    (callbacks : List KickCallback) (flush : Option Bytes) : Servers V × Option UnbindError :=
  if (cl.site me).frontend then
    match (cl.site me).pool.getSessionByUID msg.uid with
    | none => (cl, some (.backend (.session .sessionNotFound)))
    | some id =>
      match flushBackendData
          (cl.setSession me id ((cl.session me id).removeBackendID msg.btype)) me id flush with
      | (cl, some e) => (cl, some (.backend e))
      | (cl, none) => (cl, none)
  else if msg.btype ≠ (cl.site me).typ ∨ msg.bid ≠ me then
    (cl, some (.backend .illegalBindBackendID))
  else
    match (cl.site me).pool.getSessionByUID msg.uid with
    | none => (cl, some (.backend (.session .sessionNotFound)))
    | some id => kickBackend cl me id msg.btype CloseReason.normal callbacks

/-- `Sys.SessionBoundBackend`.  A crash of the method is an error of the call. -/
def sessionBoundBackend : Servers V :=
  if (cl.site me).frontend then cl
  else
    match (cl.site me).pool.getSessionByUID msg.uid with
    | none => cl
    | some id =>
      match (cl.session me id).setBackendID msg.btype msg.bid with
      | .crash => cl
      | .ok s => cl.setSession me id s

/-- `Sys.SessionKickedBackend`. -/
def sessionKickedBackend : Servers V :=
  if (cl.site me).frontend then cl
  else
    match (cl.site me).pool.getSessionByUID msg.uid with
    | none => cl
    | some id => cl.setSession me id ((cl.session me id).removeBackendID msg.btype)

/-! ## Deliveries -/

/-- A message that arrives, with what comes of it. -/
inductive Delivery where
  /-- `BindBackendSession`, for a request with the session `ctx`. -/
  | bindBackend (msg : BindBackendMsg) (ctx : ℕ) (callbacks : List (Callback Unit))
      (flush : Option Bytes)
  /-- `SessionBoundBackend`. -/
  | boundBackend (msg : BindBackendMsg)
  | kickBackend (msg : BindBackendMsg) (callbacks : List KickCallback) (flush : Option Bytes)
  /-- `SessionKickedBackend`. -/
  | kickedBackend (msg : BindBackendMsg)

/-- A message arrives at a server. -/
def deliver : Delivery → Servers V
  | .bindBackend msg ctx callbacks flush =>
    (bindBackendSession cl me ctx msg.uid msg.btype msg.bid callbacks flush).1
  | .boundBackend msg => sessionBoundBackend cl me msg
  | .kickBackend msg callbacks flush => (kickBackendRemote cl me msg callbacks flush).1
  | .kickedBackend msg => sessionKickedBackend cl me msg

/-- The messages about bindings, at any servers and in any order. -/
def deliveries (start : Servers V) : System (Servers V) (Bytes × Delivery) where
  start := start
  step cl e := some (deliver cl e.1 e.2)

/-- The message that tells of the end of a binding. -/
def Delivery.kick : Delivery → Option BindBackendMsg
  | .kickBackend msg _ _ => some msg
  | .kickedBackend msg => some msg
  | _ => none

/-- What the store was last told about the bindings. -/
def flushedBackends (p : Pool V) (key : Bytes) : Option Bytes :=
  p.effects.reverse.findSome? fun e =>
    match e with
    | .hset k field value => if k = key ∧ field = Session.fieldKeyBackends then some value else none
    | _ => none

/-- A message about the end of a binding to another backend leaves the binding of the session, and
what the store was told, as they are. -/
def KeepsNewer : Bytes × Delivery → Prop
  | (me, d) =>
    ∀ msg id, d.kick = some msg → (cl.site me).pool.getSessionByUID msg.uid = some id →
      (cl.session me id).getBackendID msg.btype ≠ [] →
      (cl.session me id).getBackendID msg.btype ≠ msg.bid →
        ((deliver cl me d).session me id).getBackendID msg.btype
            = (cl.session me id).getBackendID msg.btype ∧
          flushedBackends ((deliver cl me d).site me).pool (cl.session me id).clusterStorageKey
            = flushedBackends (cl.site me).pool (cl.session me id).clusterStorageKey

/-- The server carries the message out for the session: a frontend the request of a backend, a
backend the notification, and the request if it is meant. -/
def CarriesOut : Delivery → Prop
  | .kickBackend msg _ _ =>
    (cl.site me).frontend = true ∨
      msg.btype = (cl.site me).typ ∧ msg.bid = me ∧ (cl.session me id).uid ≠ []
  | .kickedBackend _ => (cl.site me).frontend = false
  | _ => False

instance (cl : Servers V) (me : Bytes) (id : ℕ) (d : Delivery) :
    Decidable (CarriesOut cl me id d) := by
  cases d <;> unfold CarriesOut <;> infer_instance

/-- The server is bound to the backend the message is about, or to none, if it carries the message
out. -/
def Timely : Bytes × Delivery → Prop
  | (me, d) =>
    match d.kick with
    | none => True
    | some msg =>
      match (cl.site me).pool.getSessionByUID msg.uid with
      | none => True
      | some id =>
        CarriesOut cl me id d →
          (cl.session me id).getBackendID msg.btype = [] ∨
            (cl.session me id).getBackendID msg.btype = msg.bid

instance (cl : Servers V) (e : Bytes × Delivery) : Decidable (Timely cl e) := by
  unfold Timely
  dsimp only
  split
  · infer_instance
  · split <;> infer_instance

/-! ## What the callbacks leave alone -/

section

variable {cl : Servers V} {me svrType svrID : Bytes} {id : ℕ} {reason : CloseReason}

theorem removeAtTarget_session (cl : Servers V) :
    (removeAtTarget cl me id svrID).session me id = cl.session me id := by
  unfold removeAtTarget
  split
  · rw [setPool_session, removeSessionLocal_session]
    rfl
  · rfl

theorem unbindLocal_session (cl : Servers V) (replies : UnbindReplies) :
    (unbindLocal cl me id svrID reason replies).1.session me id = cl.session me id := by
  have hremoved : (removeAtTarget cl me id svrID).session me id = cl.session me id :=
    removeAtTarget_session cl
  unfold unbindLocal
  generalize removeAtTarget cl me id svrID = cl₁ at hremoved ⊢
  have hflush : (flushBackendData cl₁ me id replies.flush).1.session me id = cl₁.session me id :=
    flushBackendData_session cl₁ replies.flush
  dsimp only
  split
  · exact hremoved
  split
  · exact hremoved
  split
  · next heq =>
    rw [heq] at hflush
    exact hflush.trans hremoved
  · next heq =>
    rw [heq] at hflush
    exact hflush.trans hremoved

theorem onKickBackend_session (cl : Servers V) (replies : UnbindReplies) :
    (onKickBackend cl me id svrType svrID reason replies).1.session me id = cl.session me id := by
  unfold onKickBackend
  split
  · rfl
  split
  · split
    · rfl
    split
    · rfl
    · rfl
    · exact unbindLocal_session cl replies
  · exact unbindLocal_session cl replies

theorem runKickCallbacks_session (cl : Servers V) (callbacks : List KickCallback) :
    (runKickCallbacks cl me id svrType svrID reason callbacks).1.session me id
      = cl.session me id := by
  induction callbacks generalizing cl with
  | nil => rfl
  | cons callback callbacks ih =>
    cases callback with
    | other result =>
      cases result with
      | some => rfl
      | none => exact ih cl
    | sys replies =>
      have hfirst : (onKickBackend cl me id svrType svrID reason replies).1.session me id
          = cl.session me id := onKickBackend_session cl replies
      rw [runKickCallbacks]
      split
      · next heq => rwa [heq] at hfirst
      · next heq =>
        rw [heq] at hfirst
        exact (ih _).trans hfirst

theorem getBackendID_removeBackendID (s : Session V) (svrType : Bytes) :
    (s.removeBackendID svrType).getBackendID svrType = [] := by
  unfold Session.getBackendID Session.removeBackendID
  cases s.backends with
  | none => rfl
  | some => simp

end

/-! ## What becomes of a newer binding -/

section

variable {cl : Servers V} {me : Bytes} {id : ℕ} {d : Delivery} {msg : BindBackendMsg}

/-- **A message that is carried out removes the binding**, whichever backend it names. -/
theorem erased_of_carriesOut (hkick : d.kick = some msg)
    (hfound : (cl.site me).pool.getSessionByUID msg.uid = some id)
    (hbound : (cl.session me id).getBackendID msg.btype ≠ []) (hcarries : CarriesOut cl me id d) :
    ((deliver cl me d).session me id).getBackendID msg.btype = [] := by
  have herased : (((cl.setSession me id
      ((cl.session me id).removeBackendID msg.btype))).session me id).getBackendID msg.btype =
        [] := by
    rw [setSession_session]
    exact getBackendID_removeBackendID _ _
  cases d with
  | bindBackend => cases hkick
  | boundBackend => cases hkick
  | kickBackend msg' callbacks flush =>
    obtain rfl := some.inj hkick
    cases hfrontend : (cl.site me).frontend with
    | true =>
      have hflush : (flushBackendData (cl.setSession me id
          ((cl.session me id).removeBackendID msg'.btype)) me id flush).1.session me id = _ :=
        flushBackendData_session _ flush
      simp only [deliver, kickBackendRemote, hfrontend, if_true, hfound]
      split
      · next heq =>
        rw [heq] at hflush
        exact hflush ▸ herased
      · next heq =>
        rw [heq] at hflush
        exact hflush ▸ herased
    | false =>
      rw [CarriesOut, hfrontend] at hcarries
      obtain ⟨htype, hid, huid⟩ := hcarries.resolve_left nofun
      have hmeant : ¬ (msg'.btype ≠ (cl.site me).typ ∨ msg'.bid ≠ me) := by
        rw [not_or, not_not, not_not]
        exact ⟨htype, hid⟩
      simp only [deliver, kickBackendRemote, hfrontend, Bool.false_eq_true, if_false,
        if_neg hmeant, hfound, kickBackend, if_neg huid, if_neg hbound]
      rw [runKickCallbacks_session]
      exact herased
  | kickedBackend =>
    obtain rfl := some.inj hkick
    have hbackend : (cl.site me).frontend = false := hcarries
    simp only [deliver, sessionKickedBackend, hbackend, Bool.false_eq_true, if_false, hfound]
    exact herased

theorem unchanged_of_not_carriesOut (hkick : d.kick = some msg)
    (hfound : (cl.site me).pool.getSessionByUID msg.uid = some id)
    (hcarries : ¬ CarriesOut cl me id d) : deliver cl me d = cl := by
  cases d with
  | bindBackend => cases hkick
  | boundBackend => cases hkick
  | kickBackend =>
    obtain rfl := some.inj hkick
    rw [CarriesOut, not_or] at hcarries
    obtain ⟨hfrontend, hmeant⟩ := hcarries
    simp only [deliver, kickBackendRemote, if_neg hfrontend]
    split
    · rfl
    next htarget =>
    rw [not_or, not_not, not_not] at htarget
    have huid : (cl.session me id).uid = [] := by
      by_contra hne
      exact hmeant ⟨htarget.1, htarget.2, hne⟩
    simp only [hfound, kickBackend, if_pos huid]
  | kickedBackend =>
    have hfrontend : (cl.site me).frontend = true := by simpa [CarriesOut] using hcarries
    simp only [deliver, sessionKickedBackend, if_pos hfrontend]

theorem keepsNewer_step (cl : Servers V) (e : Bytes × Delivery) :
    KeepsNewer cl e ↔ Timely cl e := by
  obtain ⟨me, d⟩ := e
  unfold KeepsNewer Timely
  dsimp only
  cases hkick : d.kick with
  | none => exact iff_of_true nofun trivial
  | some msg =>
    dsimp only
    cases hfound : (cl.site me).pool.getSessionByUID msg.uid with
    | none =>
      refine iff_of_true ?_ trivial
      rintro _ id ⟨⟩ h
      cases hfound.symm.trans h
    | some id =>
      constructor
      · intro h hcarries
        by_contra hother
        rw [not_or] at hother
        have hkept := (h msg id rfl hfound hother.1 hother.2).1
        rw [erased_of_carriesOut hkick hfound hother.1 hcarries] at hkept
        exact hother.1 hkept.symm
      · rintro h _ _ ⟨⟩ hsame hbound hother
        obtain rfl := some.inj (hfound.symm.trans hsame)
        have hcarries : ¬ CarriesOut cl me id d := fun hcarries =>
          (h hcarries).elim hbound hother
        rw [unchanged_of_not_carriesOut hkick hfound hcarries]
        exact ⟨rfl, rfl⟩

/-- **Newer bindings survive** along a run, wherever the messages arrive and in whichever order, if
and only if every server that carries out a message is bound to the backend the message is about,
or to none. -/
theorem keepsNewer_iff (start : Servers V) (events : List (Bytes × Delivery)) :
    (∀ before e after cl, events = before ++ e :: after →
      (deliveries start).run before = some cl → KeepsNewer cl e) ↔
      (deliveries start).Meets Timely events :=
  forall₄_congr fun _ e _ cl => forall₂_congr fun _ _ => keepsNewer_step cl e

end

/-- A frontend "f" and backends of type "t", each with a session of user "x". -/
def cluster (me : Bytes) : Site Bytes where
  codec := .strings []
  marshalBackends := (Codec.strings [([116], [98]), ([116], [99])]).bytes
  frontend := me = [102]
  typ := [116]
  pool :=
    { session := fun _ => { uid := [120], isFrontend := decide (me = [102]), frontendID := [102] }
      sid := 1
      sessionsByUID := Finmap.singleton [120] 1
      sessionsByID := {1}
      sessionCount := 1
      userCount := 1 }

/-- The frontend is told of the bindings to "b" and to "c", and then of the end of the first. -/
def movedLate : List (Bytes × Delivery) :=
  [([102], .bindBackend ⟨[120], [116], [98]⟩ 1 [] none),
    ([102], .bindBackend ⟨[120], [116], [99]⟩ 1 [] none),
    ([102], .kickBackend ⟨[120], [116], [98]⟩ [] none)]

/-- **A late message erases the newer binding**, on the frontend and in the store. -/
theorem late_kick_erases : ∃ cl cl',
    (deliveries { site := cluster }).run (movedLate.take 2) = some cl ∧
      (cl.session [102] 1).getBackendID [116] = [99] ∧
      flushedBackends (cl.site [102]).pool (cl.session [102] 1).clusterStorageKey =
        some [123, 34, 116, 34, 58, 34, 99, 34, 125] ∧
      (deliveries { site := cluster }).run movedLate = some cl' ∧
      (cl'.session [102] 1).getBackendID [116] = [] ∧
      flushedBackends (cl'.site [102]).pool (cl.session [102] 1).clusterStorageKey =
        some [123, 125] := by
  refine ⟨_, _, rfl, ?_, ?_, rfl, ?_, ?_⟩
  · decide +kernel
  · decide +kernel
  · decide +kernel
  · decide +kernel

end Pitaya.Backend
