import Pitaya.Service.Dispatch
import Pitaya.Session.Remote

/-!
# Remote calls

`service/remote.go`: a request of another server is decoded, traced and dispatched to an
interceptor, a remote method or a handler.  Errors become responses with a status.

* `Request`, `Response` — the protobuf messages.
* `getContextFromRequest` — the context in the metadata (`util/util.go`, `context/context.go`).
* `spanInfoFromRequest`, `carrierFromPropagateCtx` — what tracing reads from the context, with
  type assertions that crash (`tracing`).
* `RemoteService.handleRPCUser`, `handleRPCSys`, `processRemoteMessage`, `call` — the dispatch.
* `RemoteService.processRemoteMessage_returns_iff` — where the application's code returns, a
  dispatch crashes in one case only: a `Sys` request without a session on a backend.
-/

namespace Pitaya.Service

open Outcome

/-- `protos.RPCType`. -/
inductive RPCType where
  | sys
  | user
  | other (n : ℤ)
  deriving DecidableEq, Repr

/-- `protos.MsgType`. -/
inductive MsgType where
  | request
  | notify
  | response
  | push
  | other (n : ℤ)
  deriving DecidableEq, Repr

/-- `ConvertProtoToMessageType`. -/
def MsgType.toMessageType : MsgType → Conn.MessageType
  | .notify => Conn.MessageType.notify
  | _ => Conn.MessageType.request

/-- `protos.Msg`. -/
structure Msg where
  id : ℕ := 0
  route : Bytes := []
  data : Bytes := []
  reply : Bytes := []
  typ : MsgType := .request
  deriving DecidableEq

/-- `protos.Request`. -/
structure Request where
  typ : RPCType := .sys
  session : Option ProtoSession := none
  msg : Msg
  frontendID : Bytes := []
  metadata : Bytes := []
  deriving DecidableEq

/-- `protos.Response`. -/
structure Response where
  status : Option Status := none
  data : Bytes := []
  deriving DecidableEq, Repr

/-! ## The context of a request -/

/-- `RequestIDKey`, "request.id". -/
def requestIDKey : Bytes := [114, 101, 113, 117, 101, 115, 116, 46, 105, 100]
/-- `RouteKey`, "req-route". -/
def routeKey : Bytes := [114, 101, 113, 45, 114, 111, 117, 116, 101]
/-- `PeerIDKey`, "peer.id". -/
def peerIDKey : Bytes := [112, 101, 101, 114, 46, 105, 100]
/-- `PeerServiceKey`, "peer.service". -/
def peerServiceKey : Bytes := [112, 101, 101, 114, 46, 115, 101, 114, 118, 105, 99, 101]
/-- `SpanPropagateCtxKey`, "opentracing-span". -/
def spanPropagateCtxKey : Bytes :=
  [111, 112, 101, 110, 116, 114, 97, 99, 105, 110, 103, 45, 115, 112, 97, 110]

/-- `GetContextFromRequest`, with `encoding/json` at the type of the metadata and the next of
`nuid`. -/
def getContextFromRequest (unmarshal : Bytes → Except Bytes (Finmap fun _ : Bytes => Json))
    (next : Bytes) (req : Request) : Except ServiceError Context :=
  if req.metadata = [] then .error .noContextFound
  else
    match unmarshal req.metadata with
    | .error e => .error (.metadata e)
    | .ok propagate =>
      let ctx : Context := { propagate := propagate }
      let ctx :=
        match ctx.getFromPropagateCtx requestIDKey with
        | .str id => if id = [] then ctx.addToPropagateCtx requestIDKey (.str next) else ctx
        | _ => ctx.addToPropagateCtx requestIDKey (.str next)
      .ok (ctx.addToPropagateCtx routeKey (.str req.msg.route))

/-! ## Tracing -/

/-- A type assertion to a string of a value that is not nil. -/
def Json.asText : Json → Outcome Empty Bytes
  | .null => .ok []
  | .str s => .ok s
  | _ => .crash

/-- `SpanInfo`, what comes from the request. -/
structure SpanInfo where
  peerType : Bytes
  peerID : Bytes
  requestID : Bytes
  deriving DecidableEq, Repr

def spanInfoFromRequest (ctx : Context) : Outcome Empty SpanInfo := do
  let peerType ← (ctx.getFromPropagateCtx peerServiceKey).asText
  let peerID ← (ctx.getFromPropagateCtx peerIDKey).asText
  let requestID ← (ctx.getFromPropagateCtx requestIDKey).asText
  .ok ⟨peerType, peerID, requestID⟩

/-- The loop of `CarrierFromPropagateCtx` over an object, with a type assertion to a string of
every value. -/
def carrier : List (Bytes × Option Bytes) → Outcome Empty (List (Bytes × Bytes))
  | [] => .ok []
  | (_, none) :: _ => .crash
  | (key, some value) :: fields => do
      let rest ← carrier fields
      .ok ((key, value) :: rest)

def carrierFromPropagateCtx (ctx : Context) : Outcome Empty (Option (List (Bytes × Bytes))) :=
  match ctx.getFromPropagateCtx spanPropagateCtxKey with
  | .obj fields => do
      let c ← carrier fields
      .ok (some c)
  | _ => .ok none

/-- `RPCStartSpan` on the side of the server: the span is no value the dispatch looks at. -/
def rpcStartSpan (ctx : Context) : Outcome Empty Context := do
  let _ ← carrierFromPropagateCtx ctx
  .ok ctx

/-! ## The remote service -/

/-- The type of the argument of a remote method: whether it is a protobuf message, and
`proto.Unmarshal` at it. -/
structure RemoteType (A : Type) where
  isProto : Bool := true
  unmarshal : Bytes → Except Bytes A

/-- `component.Remote`. -/
structure Remote (A : Type) where
  receiver : A
  hasArgs : Bool := false
  typ : Option (RemoteType A) := none
  method : A → Context → Option (Option A) → MethodResult A
  options : Options A := {}

/-- `RemoteService`, with `apierrors.FromError`, `Error` of an error, and `proto.Marshal` of a
value, none if it is no protobuf message. -/
structure RemoteService (V A : Type) where
  server : Server V
  development : Bool := false
  interceptors : Bytes → Option (Interceptor A) := fun _ => none
  remotes : Bytes → Option (Remote A) := fun _ => none
  handlerPool : HandlerPool A
  remoteHooks : Hooks A := {}
  handlerHooks : Hooks A := {}
  fromError : ServiceError → Status
  errorText : ServiceError → Bytes
  marshal : A → Option (Except Bytes Bytes)

namespace RemoteService

variable {V A : Type} (r : RemoteService V A)

/-- A status that names the route of the request. -/
def routeStatus (code : ℤ) (message route : Bytes) : Status where
  code := code
  message := message
  metadata := [([114, 111, 117, 116, 101], route)]

/-- "cannot decode route". -/
def cannotDecodeRoute : Bytes :=
  [99, 97, 110, 110, 111, 116, 32, 100, 101, 99, 111, 100, 101, 32, 114, 111, 117, 116, 101]
/-- "invalid rpc type". -/
def invalidRPCType : Bytes := [105, 110, 118, 97, 108, 105, 100, 32, 114, 112, 99, 32, 116, 121,
    112, 101]
/-- "route not found". -/
def routeNotFound : Bytes := [114, 111, 117, 116, 101, 32, 110, 111, 116, 32, 102, 111, 117, 110,
    100]
/-- "route not found,ReceiverProvider return nil". -/
def receiverNotFound : Bytes :=
  [114, 111, 117, 116, 101, 32, 110, 111, 116, 32, 102, 111, 117, 110, 100, 44, 82, 101, 99,
    101, 105, 118, 101, 114, 80, 114, 111, 118, 105, 100, 101, 114, 32, 114, 101, 116, 117, 114,
    110, 32, 110, 105, 108]

variable (remote : Remote A)

def unmarshalRemoteArg (payload : Bytes) : Except ServiceError (Option A) :=
  match remote.typ with
  | none => .ok none
  | some typ =>
    if typ.isProto then
      match typ.unmarshal payload with
      | .ok arg => .ok (some arg)
      | .error e => .error (.serializer e)
    else .error .wrongValueType

/-- The data of a response, from what a method has returned. -/
def marshalReturn (ret : Option A) : Outcome Status Bytes :=
  match ret with
  | none => .ok []
  | some ret =>
    match r.marshal ret with
    | none => .error (r.fromError .wrongValueType)
    | some (.error e) => .error (r.fromError (.serializer e))
    | some (.ok b) => .ok b

/-- `handleRPCUser` with an interceptor, after the session is set up. -/
def callInterceptor (interceptor : Interceptor A) (ctx : Context) (rt : Route) (data : Bytes) :
    Outcome Status Bytes := do
  let ret ← (interceptor ctx rt data).mapError r.fromError
  r.marshalReturn ret

/-- The argument of a remote method; its errors are answered with 404. -/
def remoteArg (rt : Route) (data : Bytes) : Outcome Status (Option A) :=
  if remote.hasArgs then
    match unmarshalRemoteArg remote data with
    | .ok arg => .ok arg
    | .error e => .error (routeStatus 404 (r.errorText e) rt.short)
  else .ok none

/-- `handleRPCUser` with a remote method, after the session is set up. -/
def callRemote (receiver : A) (ctx : Context) (rt : Route) (data : Bytes) :
    Outcome Status Bytes := do
  let arg ← r.remoteArg remote rt data
  let (ctx, arg) ←
    (executeBeforePipeline ctx rt arg r.remoteHooks.beforeHandler).mapError r.fromError
  let params := if remote.hasArgs then some arg else none
  let (ret, err) ←
    (remote.options.run r.development ctx fun ctx => remote.method receiver ctx params).lift
  let (ret, err) ← (executeAfterPipeline ctx rt arg ret err r.remoteHooks.afterHandler).lift
  match err with
  | some e => .error (r.fromError e)
  | none => r.marshalReturn ret

variable (p : Pool V)

/-- The response to what the dispatch ends with. -/
def respond (x : Outcome Status Bytes) : Outcome Empty (Pool V × Response) := do
  match ← x.toExcept with
  | .ok data => .ok (p, { data := data })
  | .error status => .ok (p, { status := some status })

variable (ctx : Context) (req : Request)

/-- Set up the session of a request with `NewRemote` and go on with it. -/
def withRemote
    (go : Context → ℕ → Bytes → Outcome Status Bytes) : Outcome Empty (Pool V × Response) := do
  match ← p.newRemote r.server req.session req.frontendID with
  | (p, .error e) => respond p (.error (r.fromError (.session e)))
  | (p, .ok id) => respond p (go ctx id (p.session id).uid)

/-- `handleRPCUser`, where a request may come without a session. -/
def withSession (p : Pool V) (ctx : Context) (req : Request) (go : Context → Outcome Status Bytes) :
    Outcome Empty (Pool V × Response) :=
  if req.session.isNone then respond p (go ctx)
  else r.withRemote p ctx req fun ctx id uid => go (ctx.withSession id uid)

def handleRPCUser (rt : Route) :
    Outcome Empty (Pool V × Response) :=
  match r.interceptors rt.service with
  | some interceptor =>
    r.withSession p ctx req fun ctx => r.callInterceptor interceptor ctx rt req.msg.data
  | none =>
    match r.remotes rt.short with
    | none => respond p (.error (routeStatus 404 routeNotFound rt.short))
    | some remote => do
        match ← remote.options.receiver remote.receiver ctx with
        | none => respond p (.error (routeStatus 404 receiverNotFound rt.short))
        | some receiver =>
          r.withSession p ctx req fun ctx => r.callRemote remote receiver ctx rt req.msg.data

def handleRPCSys (rt : Route) :
    Outcome Empty (Pool V × Response) :=
  r.withRemote p ctx req fun ctx id uid =>
    (r.handlerPool.processHandlerMessage r.development r.handlerHooks ctx rt id uid req.msg.data
      req.msg.typ.toMessageType true).mapError r.fromError

def processRemoteMessage :
    Outcome Empty (Pool V × Response) :=
  match Route.decode req.msg.route with
  | .error _ => respond p (.error (routeStatus 400 cannotDecodeRoute req.msg.route))
  | .ok rt =>
    match req.typ with
    | .sys => r.handleRPCSys p ctx req rt
    | .user => r.handleRPCUser p ctx req rt
    | .other _ => respond p (.error (routeStatus 400 invalidRPCType req.msg.route))

/-- `Call`.  Without a route there is no response. -/
def call :
    Outcome Empty (Pool V × Option Response × Option ServiceError) :=
  match Route.decode req.msg.route with
  | .error e => .ok (p, none, some (.route e))
  | .ok _ => do
      let _ ← spanInfoFromRequest ctx
      let ctx ← rpcStartSpan ctx
      let (p, res) ← r.processRemoteMessage p ctx req
      .ok (p, some res, res.status.map .status)

/-! ## When a dispatch returns -/

/-- The application's code that is not protected by `Pcall` returns, and the logger is not in
development mode. -/
structure Calm : Prop where
  production : r.development = false
  interceptors : ∀ name f, r.interceptors name = some f → ∀ ctx rt data, (f ctx rt data).Returns
  remotes : ∀ name remote, r.remotes name = some remote → remote.options.Calm
  handlerPool : r.handlerPool.Calm
  remoteHooks : r.remoteHooks.Calm
  handlerHooks : r.handlerHooks.Calm

variable {r} {p : Pool V}

theorem respond_returns_iff {x : Outcome Status Bytes} : (respond p x).Returns ↔ x.Returns := by
  cases x <;> exact Iff.rfl

theorem marshalReturn_returns (ret : Option A) : (r.marshalReturn ret).Returns := by
  unfold marshalReturn
  split
  · exact returns_ok _
  split
  · exact returns_error _
  · exact returns_error _
  · exact returns_ok _

theorem callInterceptor_returns {interceptor : Interceptor A}
    (h : ∀ ctx rt data, (interceptor ctx rt data).Returns) (ctx : Context) (rt : Route)
    (data : Bytes) : (r.callInterceptor interceptor ctx rt data).Returns :=
  (returns_mapError.mpr (h ctx rt data)).bind fun ret _ => marshalReturn_returns ret

theorem remoteArg_returns (remote : Remote A) (rt : Route) (data : Bytes) :
    (r.remoteArg remote rt data).Returns := by
  unfold remoteArg
  split
  · split
    · exact returns_ok _
    · exact returns_error _
  · exact returns_ok _

theorem callRemote_returns (hcalm : r.Calm) {remote : Remote A} (hremote : remote.options.Calm)
    (receiver : A) (ctx : Context) (rt : Route) (data : Bytes) :
    (r.callRemote remote receiver ctx rt data).Returns := by
  refine (remoteArg_returns remote rt data).bind fun arg _ => ?_
  refine (returns_mapError.mpr
    (executeBeforePipeline_returns hcalm.remoteHooks.beforeHandler ctx rt arg)).bind
      fun before _ => ?_
  rw [hcalm.production]
  refine (returns_lift.mpr (hremote.run before.1 _)).bind fun result _ => ?_
  refine (returns_lift.mpr (executeAfterPipeline_returns hcalm.remoteHooks.afterHandler
    before.1 rt before.2 result.1 result.2)).bind fun out _ => ?_
  obtain ⟨ret, err⟩ := out
  cases err with
  | some => exact returns_error _
  | none => exact marshalReturn_returns ret

/-- `NewRemote` reads the fields of a session that is not there, except on a frontend. -/
theorem newRemote_returns_iff (server : Server V) (sess : Option ProtoSession)
    (frontendID : Bytes) :
    (p.newRemote server sess frontendID).Returns ↔ server.frontend = true ∨ sess.isSome = true := by
  unfold Pool.newRemote
  split
  · next hfrontend => exact iff_of_true (returns_ok _) (.inl hfrontend)
  next hbackend =>
  cases sess with
  | none => exact iff_of_false not_returns_crash (by simp [hbackend])
  | some =>
    refine iff_of_true ?_ (.inr rfl)
    dsimp only
    split
    · exact returns_ok _
    · split <;> exact returns_ok _

theorem withRemote_returns_iff {ctx : Context} {req : Request}
    {go : Context → ℕ → Bytes → Outcome Status Bytes}
    (hgo : ∀ ctx id uid, (go ctx id uid).Returns) :
    (r.withRemote p ctx req go).Returns ↔ r.server.frontend = true ∨ req.session.isSome = true := by
  rw [← newRemote_returns_iff (p := p) r.server req.session req.frontendID, withRemote]
  cases hnew : p.newRemote r.server req.session req.frontendID with
  | crash => exact Iff.rfl
  | error e => cases e
  | ok result =>
    refine iff_of_true ?_ (returns_ok _)
    obtain ⟨p', session⟩ := result
    cases session with
    | error => exact respond_returns_iff.mpr (returns_error _)
    | ok id => exact respond_returns_iff.mpr (hgo ctx id _)

theorem withSession_returns {ctx : Context} {req : Request}
    {go : Context → Outcome Status Bytes} (hgo : ∀ ctx, (go ctx).Returns) :
    (r.withSession p ctx req go).Returns := by
  unfold withSession
  split
  · exact respond_returns_iff.mpr (hgo ctx)
  · next hsome =>
    refine (withRemote_returns_iff fun ctx id uid => hgo _).mpr (.inr ?_)
    cases hsession : req.session with
    | none =>
      rw [hsession] at hsome
      exact absurd rfl hsome
    | some => rfl

theorem handleRPCUser_returns (hcalm : r.Calm) (ctx : Context) (req : Request) (rt : Route) :
    (r.handleRPCUser p ctx req rt).Returns := by
  unfold handleRPCUser
  split
  · next f hf =>
    exact withSession_returns fun ctx =>
      callInterceptor_returns (hcalm.interceptors _ f hf) ctx rt req.msg.data
  split
  · exact respond_returns_iff.mpr (returns_error _)
  · next remote hremote =>
    have hoptions := hcalm.remotes _ remote hremote
    refine (hoptions.receiver remote.receiver ctx).bind fun rec _ => ?_
    cases rec with
    | none => exact respond_returns_iff.mpr (returns_error _)
    | some receiver =>
      exact withSession_returns fun ctx => callRemote_returns hcalm hoptions receiver ctx rt _

/-- **The dispatch of a request**, where the application's code returns. -/
theorem processRemoteMessage_returns_iff (hcalm : r.Calm) {ctx : Context} {req : Request}
    {rt : Route} (hroute : Route.decode req.msg.route = .ok rt) :
    (r.processRemoteMessage p ctx req).Returns ↔
      (req.typ = .sys → r.server.frontend = true ∨ req.session.isSome = true) := by
  unfold processRemoteMessage
  rw [hroute]
  dsimp only
  split
  · next hsys =>
    rw [handleRPCSys, forall_prop_of_true hsys]
    refine withRemote_returns_iff fun ctx id uid => returns_mapError.mpr ?_
    rw [hcalm.production]
    exact HandlerPool.processHandlerMessage_returns hcalm.handlerPool hcalm.handlerHooks ..
  · next huser =>
    refine iff_of_true (handleRPCUser_returns hcalm ctx req rt) fun hsys => ?_
    cases huser.symm.trans hsys
  · next n hother =>
    refine iff_of_true (respond_returns_iff.mpr (returns_error _)) fun hsys => ?_
    cases hother.symm.trans hsys

end RemoteService

/-! ## When tracing returns -/

/-- The metadata tracing reads are strings where there are any. -/
structure Context.Traceable (ctx : Context) : Prop where
  peerService : (ctx.getFromPropagateCtx peerServiceKey).asText.Returns
  peerID : (ctx.getFromPropagateCtx peerIDKey).asText.Returns
  span : ∀ fields, ctx.getFromPropagateCtx spanPropagateCtxKey = .obj fields →
    ∀ field ∈ fields, field.2.isSome = true

theorem carrier_returns_iff (fields : List (Bytes × Option Bytes)) :
    (carrier fields).Returns ↔ ∀ field ∈ fields, field.2.isSome = true := by
  induction fields with
  | nil => exact iff_of_true (returns_ok _) nofun
  | cons field fields ih =>
    obtain ⟨key, value⟩ := field
    rw [List.forall_mem_cons, ← ih]
    cases value with
    | none => exact iff_of_false not_returns_crash (by simp)
    | some =>
      rw [carrier, and_iff_right (by rfl)]
      exact returns_map_iff _

theorem getContextFromRequest_requestID
    {unmarshal : Bytes → Except Bytes (Finmap fun _ : Bytes => Json)} {next : Bytes} {req : Request}
    {ctx : Context} (h : getContextFromRequest unmarshal next req = .ok ctx) :
    (ctx.getFromPropagateCtx requestIDKey).asText.Returns := by
  have hkey (ctx : Context) (val : Json) :
      (ctx.addToPropagateCtx routeKey val).getFromPropagateCtx requestIDKey
        = ctx.getFromPropagateCtx requestIDKey := by
    have hne : requestIDKey ≠ routeKey := by decide
    rw [Context.addToPropagateCtx, Context.getFromPropagateCtx, Finmap.lookup_insert_of_ne _ hne]
    rfl
  have hnext (ctx : Context) (id : Bytes) :
      (ctx.addToPropagateCtx requestIDKey (.str id)).getFromPropagateCtx requestIDKey =
        .str id := by
    rw [Context.addToPropagateCtx, Context.getFromPropagateCtx, Finmap.lookup_insert]
    rfl
  unfold getContextFromRequest at h
  split at h
  · cases h
  split at h
  · cases h
  · cases h
    rw [hkey]
    split
    · next id hid =>
      split
      · rw [hnext]
        exact returns_ok _
      · rw [hid]
        exact returns_ok _
    · rw [hnext]
      exact returns_ok _

/-- **Tracing returns** if the metadata it reads are strings. -/
theorem tracing_returns_iff {ctx : Context}
    (hrequestID : (ctx.getFromPropagateCtx requestIDKey).asText.Returns) :
    ((spanInfoFromRequest ctx).Returns ∧ (rpcStartSpan ctx).Returns) ↔ ctx.Traceable := by
  have hspan : (rpcStartSpan ctx).Returns ↔
      ∀ fields, ctx.getFromPropagateCtx spanPropagateCtxKey = .obj fields →
        ∀ field ∈ fields, field.2.isSome = true := by
    have hcarrier : (rpcStartSpan ctx).Returns ↔ (carrierFromPropagateCtx ctx).Returns :=
      returns_map_iff _
    rw [hcarrier, carrierFromPropagateCtx]
    split
    · next fields hfields =>
      rw [hfields]
      refine (returns_map_iff _).trans ((carrier_returns_iff fields).trans ?_)
      refine ⟨?_, fun h => h fields rfl⟩
      rintro h _ ⟨⟩
      exact h
    · next hother => exact iff_of_true (returns_ok _) fun fields h => absurd h (hother fields)
  have hinfo : (spanInfoFromRequest ctx).Returns ↔
      (ctx.getFromPropagateCtx peerServiceKey).asText.Returns ∧
        (ctx.getFromPropagateCtx peerIDKey).asText.Returns := by
    constructor
    · intro h
      obtain ⟨peerType, hpeerType, h⟩ := returns_bind_iff.mp h
      obtain ⟨peerID, hpeerID, -⟩ := returns_bind_iff.mp h
      rw [hpeerType, hpeerID]
      exact ⟨returns_ok _, returns_ok _⟩
    · rintro ⟨hpeerType, hpeerID⟩
      exact hpeerType.bind fun _ _ => hpeerID.bind fun _ _ => hrequestID.bind fun _ _ =>
        returns_ok _
  rw [hinfo, hspan]
  exact ⟨fun ⟨⟨hservice, hid⟩, hspan⟩ => ⟨hservice, hid, hspan⟩,
    fun h => ⟨⟨h.peerService, h.peerID⟩, h.span⟩⟩

namespace RemoteService

variable {V A : Type} {r : RemoteService V A} {p : Pool V} {ctx : Context} {req : Request}

/-- A call with a route gives a response, if tracing and the dispatch return. -/
theorem call_returns_iff {rt : Route} (hroute : Route.decode req.msg.route = .ok rt) :
    (∃ p' res err, r.call p ctx req = .ok (p', some res, err)) ↔
      ((spanInfoFromRequest ctx).Returns ∧ (rpcStartSpan ctx).Returns) ∧
        (r.processRemoteMessage p ctx req).Returns := by
  rw [call, hroute, rpcStartSpan]
  dsimp only
  cases spanInfoFromRequest ctx with
  | error e => cases e
  | crash => simp
  | ok =>
    cases carrierFromPropagateCtx ctx with
    | error e => cases e
    | crash => simp
    | ok =>
      simp only [ok_bind, returns_ok, true_and]
      cases r.processRemoteMessage p ctx req with
      | error e => cases e
      | crash => simp
      | ok result =>
        refine iff_of_true ?_ (returns_ok _)
        exact ⟨result.1, result.2, result.2.status.map .status, rfl⟩

theorem call_some {rt : Route} (hroute : Route.decode req.msg.route = .ok rt) {p' : Pool V}
    {res : Option Response} {err : Option ServiceError}
    (h : r.call p ctx req = .ok (p', res, err)) : ∃ res', res = some res' := by
  rw [call, hroute] at h
  obtain ⟨info, -, h⟩ := bind_eq_ok h
  obtain ⟨ctx', -, h⟩ := bind_eq_ok h
  obtain ⟨result, -, ⟨⟩⟩ := bind_eq_ok h
  exact ⟨result.2, rfl⟩

end RemoteService

end Pitaya.Service
