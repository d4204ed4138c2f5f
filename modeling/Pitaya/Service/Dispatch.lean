import Pitaya.Conn.Message
import Pitaya.Route
import Pitaya.Session.Session

/-!
# Dispatching a message to a method

`service/handler_pool.go` and `service/util.go` with `pipeline/pipeline.go` and `Pcall` of
`util/util.go`: from a decoded route to the bytes a method returns.

The application's code is a parameter, and so are the serializers.  A method may panic, and
`pcall` turns that into an error; the other functions of the application — interceptors, hooks,
providers — are called without such protection, and a panic there crashes the call.

* `HandlerPool.processHandlerMessage` — `ProcessHandlerMessage`.
* `Calm` — the unprotected functions return; then so does the dispatch
  (`HandlerPool.processHandlerMessage_returns`).
-/

namespace Pitaya.Service

open Outcome List

/-! ## Contexts and errors -/

/-- A value of the metadata of a request, as far as the code looks into it: null, a string, an
object, of whose fields some hold strings, or anything else. -/
inductive Json where
  | null
  | str (s : Bytes)
  | obj (fields : List (Bytes × Option Bytes))
  | other
  deriving DecidableEq, Repr

/-- The values of a context: those that are propagated, and the session. -/
structure Context where
  propagate : Finmap fun _ : Bytes => Json := ∅
  session : Option ℕ := none

/-- `UserIdCtxKey`, "userId". -/
def userIdCtxKey : Bytes := [117, 115, 101, 114, 73, 100]

def Context.addToPropagateCtx (ctx : Context) (key : Bytes) (val : Json) : Context :=
  { ctx with propagate := ctx.propagate.insert key val }

/-- `GetFromPropagateCtx`, null if there is none. -/
def Context.getFromPropagateCtx (ctx : Context) (key : Bytes) : Json :=
  (ctx.propagate.lookup key).getD .null

/-- `context.WithValue` of the session and `CtxWithDefaultLogger` with its uid. -/
def Context.withSession (ctx : Context) (id : ℕ) (uid : Bytes) : Context :=
  let ctx := { ctx with session := some id }
  if uid ≠ [] then ctx.addToPropagateCtx userIdCtxKey (.str uid) else ctx

/-- `apierrors.Status`. -/
structure Status where
  code : ℤ
  reason : Bytes := []
  message : Bytes
  metadata : List (Bytes × Bytes) := []
  deriving DecidableEq, Repr

/-- The errors of a remote call. -/
inductive ServiceError where
  | route (e : RouteError)
  /-- `ErrNoContextFound`. -/
  | noContextFound
  /-- The metadata are no JSON object. -/
  | metadata (text : Bytes)
  /-- `ErrWrongValueType`. -/
  | wrongValueType
  /-- `ErrReplyShouldBeNotNull`. -/
  | replyShouldBeNotNull
  /-- `NotFound` "process handle message error", without a handler or a receiver. -/
  | handlerNotFound
  /-- `BadRequest` "process handle message error". -/
  | badRequest (text : Bytes)
  | session (e : SessionError)
  /-- An error of a serializer. -/
  | serializer (text : Bytes)
  /-- A method has panicked. -/
  | panicked (text : Bytes)
  /-- An error of the application's code. -/
  | application (text : Bytes)
  /-- `apierrors.FromStatus`. -/
  | status (s : Status)
  deriving DecidableEq, Repr

/-! ## The application's code -/

variable {A : Type}

/-- What a method does: panic, or return nothing, or return a value and an error, which may be
nil. -/
inductive MethodResult (A : Type) where
  | panics (text : Bytes)
  | nothing
  | results (ret : Option A) (err : Option ServiceError)

/-- `Pcall`.  In development mode the logger panics when it reports a panic. -/
def pcall (development : Bool) : MethodResult A → Outcome Empty (Option A × Option ServiceError)
  | .panics text => if development then .crash else .ok (none, some (.panicked text))
  | .nothing => .ok (none, none)
  | .results _ (some e) => .ok (none, some e)
  | .results (some a) none => .ok (some a, none)
  | .results none none => .ok (none, some .replyShouldBeNotNull)

/-- `InterceptorFun`. -/
abbrev Interceptor (A : Type) : Type := Context → Route → Bytes → Outcome ServiceError (Option A)

/-- `HandlerTempl`. -/
abbrev BeforeHook (A : Type) : Type :=
  Context → Route → Option A → Outcome ServiceError (Context × Option A)

/-- `AfterHandlerTempl`. -/
abbrev AfterHook (A : Type) : Type :=
  Context → Route → Option A → Option A → Option ServiceError →
    Outcome Empty (Option A × Option ServiceError)

structure Hooks (A : Type) where
  beforeHandler : List (BeforeHook A) := []
  afterHandler : List (AfterHook A) := []

def executeBeforePipeline (ctx : Context) (rt : Route) (res : Option A) :
    List (BeforeHook A) → Outcome ServiceError (Context × Option A)
  | [] => .ok (ctx, res)
  | h :: handlers => do
      let (ctx, res) ← h ctx rt res
      executeBeforePipeline ctx rt res handlers

/-- `ExecuteAfterPipeline`: every hook runs, with the result of the one before it. -/
def executeAfterPipeline (ctx : Context) (rt : Route) (arg ret : Option A)
    (err : Option ServiceError) :
    List (AfterHook A) → Outcome Empty (Option A × Option ServiceError)
  | [] => .ok (ret, err)
  | h :: handlers => do
      let (ret, err) ← h ctx rt arg ret err
      executeAfterPipeline ctx rt arg ret err handlers

/-- The options of a component.  A `taskGoProvider` runs the task it is given with a context, or
only calls `final`; else the dispatch does not go on, which counts as a crash. -/
structure Options (A : Type) where
  receiverProvider : Option (Context → Outcome Empty (Option A)) := none
  taskGoProvider : Option (Context → Outcome Empty (Option Context)) := none

namespace Options

/-- The receiver of the method. -/
def receiver (opts : Options A) (own : A) (ctx : Context) : Outcome Empty (Option A) :=
  match opts.receiverProvider with
  | some provider => provider ctx
  | none => .ok (some own)

/-- Call the method, on a goroutine of the application if it provides one. -/
def run (opts : Options A) (development : Bool) (ctx : Context)
    (method : Context → MethodResult A) : Outcome Empty (Option A × Option ServiceError) :=
  match opts.taskGoProvider with
  | none => pcall development (method ctx)
  | some provider => do
      match ← provider ctx with
      | some ctx => pcall development (method ctx)
      | none => .ok (none, none)

end Options

/-! ## Handlers -/

/-- `component.Handler`.  `unmarshal` is the serializer at the type of the argument, none if
there is no argument. -/
structure Handler (A : Type) where
  receiver : A
  isRawArg : Bool := false
  unmarshal : Option (Bytes → Except Bytes A) := none
  method : A → Context → Option A → MethodResult A
  options : Options A := {}

/-- `HandlerPool`, with the serializer: `raw` is a byte slice as a value, `marshal` is
`SerializeOrRaw`, `errorPayload` is `GetErrorPayload`. -/
structure HandlerPool (A : Type) where
  handlers : Bytes → Option (Handler A) := fun _ => none
  interceptors : Bytes → Option (Interceptor A) := fun _ => none
  raw : Bytes → A
  marshal : Option A → Except Bytes Bytes
  errorPayload : ServiceError → Except Bytes Bytes

namespace HandlerPool

variable (h : HandlerPool A)

def unmarshalHandlerArg (handler : Handler A) (payload : Bytes) :
    Outcome ServiceError (Option A) :=
  if handler.isRawArg then .ok (some (h.raw payload))
  else
    match handler.unmarshal with
    | none => .ok none
    | some unmarshal =>
      match unmarshal payload with
      | .ok arg => .ok (some arg)
      | .error e => .error (.badRequest e)

def serializeReturn (ret : Option A) : Outcome ServiceError Bytes :=
  match h.marshal ret with
  | .ok res => .ok res
  | .error e =>
    match h.errorPayload (.serializer e) with
    | .ok res => .ok res
    | .error e => .error (.serializer e)

/-- "ack". -/
def ack : Bytes := [97, 99, 107]

/-- What a remote notification is answered with. -/
def answer (msgType : Conn.MessageType) (remote : Bool) (resp : Option A) : Option A :=
  if remote && msgType == Conn.MessageType.notify then some (h.raw ack) else resp

/-- `ProcessHandlerMessage` after the lookup of the handler, up to `serializeReturn`. -/
def handlerReturn (handler : Handler A) (development : Bool) (hooks : Hooks A) (ctx : Context)
    (rt : Route) (data : Bytes) (msgType : Conn.MessageType) (remote : Bool) :
    Outcome ServiceError (Option A) := do
  let arg ← h.unmarshalHandlerArg handler data
  let (ctx, arg) ← executeBeforePipeline ctx rt arg hooks.beforeHandler
  match ← (handler.options.receiver handler.receiver ctx).lift with
  | none => .error .handlerNotFound
  | some receiver =>
    let (resp, err) ←
      (handler.options.run development ctx fun ctx => handler.method receiver ctx arg).lift
    let (resp, err) ← (executeAfterPipeline ctx rt arg (h.answer msgType remote resp) err
      hooks.afterHandler).lift
    match err with
    | some e => .error e
    | none => .ok resp

/-- `ProcessHandlerMessage`, up to `serializeReturn`. -/
def messageReturn (development : Bool) (hooks : Hooks A) (ctx : Context) (rt : Route)
    (session : ℕ) (uid data : Bytes) (msgType : Conn.MessageType) (remote : Bool) :
    Outcome ServiceError (Option A) :=
  let ctx := ctx.withSession session uid
  match h.interceptors rt.service with
  | some interceptor => do
      let resp ← interceptor ctx rt data
      .ok (h.answer msgType remote resp)
  | none =>
    match h.handlers rt.short with
    | none => .error .handlerNotFound
    | some handler => h.handlerReturn handler development hooks ctx rt data msgType remote

def processHandlerMessage (development : Bool) (hooks : Hooks A) (ctx : Context) (rt : Route)
    (session : ℕ) (uid data : Bytes) (msgType : Conn.MessageType) (remote : Bool) :
    Outcome ServiceError Bytes :=
  h.messageReturn development hooks ctx rt session uid data msgType remote >>= h.serializeReturn

end HandlerPool

/-! ## Code that returns -/

/-- The hooks return. -/
structure Hooks.Calm (hooks : Hooks A) : Prop where
  beforeHandler : ∀ h ∈ hooks.beforeHandler, ∀ ctx rt res, (h ctx rt res).Returns
  afterHandler : ∀ h ∈ hooks.afterHandler, ∀ ctx rt arg ret err, (h ctx rt arg ret err).Returns

/-- The providers of a component return. -/
structure Options.Calm (opts : Options A) : Prop where
  receiverProvider : ∀ f, opts.receiverProvider = some f → ∀ ctx, (f ctx).Returns
  taskGoProvider : ∀ f, opts.taskGoProvider = some f → ∀ ctx, (f ctx).Returns

/-- The interceptors and the providers of all handlers return. -/
structure HandlerPool.Calm (h : HandlerPool A) : Prop where
  interceptors : ∀ name f, h.interceptors name = some f → ∀ ctx rt data, (f ctx rt data).Returns
  handlers : ∀ name handler, h.handlers name = some handler → handler.options.Calm

theorem pcall_returns (r : MethodResult A) : (pcall false r).Returns := by
  cases r with
  | panics | nothing => exact returns_ok _
  | results ret err => cases ret <;> cases err <;> exact returns_ok _

theorem executeBeforePipeline_returns {handlers : List (BeforeHook A)}
    (hcalm : ∀ h ∈ handlers, ∀ ctx rt res, (h ctx rt res).Returns) (ctx : Context) (rt : Route)
    (res : Option A) : (executeBeforePipeline ctx rt res handlers).Returns := by
  induction handlers generalizing ctx res with
  | nil => exact returns_ok _
  | cons h handlers ih =>
    have hrest := ih fun h' hh' => hcalm h' (mem_cons_of_mem h hh')
    exact (hcalm h mem_cons_self ctx rt res).bind fun r _ => hrest r.1 r.2

theorem executeAfterPipeline_returns {handlers : List (AfterHook A)}
    (hcalm : ∀ h ∈ handlers, ∀ ctx rt arg ret err, (h ctx rt arg ret err).Returns) (ctx : Context)
    (rt : Route) (arg ret : Option A) (err : Option ServiceError) :
    (executeAfterPipeline ctx rt arg ret err handlers).Returns := by
  induction handlers generalizing ret err with
  | nil => exact returns_ok _
  | cons h handlers ih =>
    have hrest := ih fun h' hh' => hcalm h' (mem_cons_of_mem h hh')
    exact (hcalm h mem_cons_self ctx rt arg ret err).bind fun r _ => hrest r.1 r.2

namespace Options.Calm

variable {opts : Options A}

theorem receiver (hcalm : opts.Calm) (own : A) (ctx : Context) :
    (opts.receiver own ctx).Returns := by
  unfold Options.receiver
  split
  · next f hf => exact hcalm.receiverProvider f hf ctx
  · exact returns_ok _

theorem run (hcalm : opts.Calm) (ctx : Context) (method : Context → MethodResult A) :
    (opts.run false ctx method).Returns := by
  unfold Options.run
  split
  · exact pcall_returns _
  · next f hf =>
    refine (hcalm.taskGoProvider f hf ctx).bind fun r _ => ?_
    cases r with
    | some => exact pcall_returns _
    | none => exact returns_ok _

end Options.Calm

namespace HandlerPool

variable {h : HandlerPool A}

theorem serializeReturn_returns (ret : Option A) : (h.serializeReturn ret).Returns := by
  unfold serializeReturn
  split
  · exact returns_ok _
  split
  · exact returns_ok _
  · exact returns_error _

theorem unmarshalHandlerArg_returns (handler : Handler A) (payload : Bytes) :
    (h.unmarshalHandlerArg handler payload).Returns := by
  unfold unmarshalHandlerArg
  split
  · exact returns_ok _
  split
  · exact returns_ok _
  split
  · exact returns_ok _
  · exact returns_error _

/-- **The dispatch of a message returns** if the application's unprotected code does. -/
theorem processHandlerMessage_returns (hcalm : h.Calm) {hooks : Hooks A} (hhooks : hooks.Calm)
    (ctx : Context) (rt : Route) (session : ℕ) (uid data : Bytes) (msgType : Conn.MessageType)
    (remote : Bool) :
    (h.processHandlerMessage false hooks ctx rt session uid data msgType remote).Returns := by
  refine Returns.bind ?_ fun ret _ => serializeReturn_returns ret
  unfold messageReturn
  split
  · next f hf =>
    exact (hcalm.interceptors _ f hf _ rt data).bind fun r _ => returns_ok _
  split
  · exact returns_error _
  · next handler hhandler =>
    have hoptions := hcalm.handlers _ handler hhandler
    refine (unmarshalHandlerArg_returns handler data).bind fun arg _ => ?_
    refine (executeBeforePipeline_returns hhooks.beforeHandler _ rt arg).bind fun r _ => ?_
    refine (returns_lift.mpr (hoptions.receiver handler.receiver r.1)).bind fun rec _ => ?_
    cases rec with
    | none => exact returns_error _
    | some =>
      refine (returns_lift.mpr (hoptions.run r.1 _)).bind fun resp _ => ?_
      refine (returns_lift.mpr
        (executeAfterPipeline_returns hhooks.afterHandler r.1 rt r.2 _ resp.2)).bind fun out _ => ?_
      obtain ⟨ret, err⟩ := out
      cases err with
      | some => exact returns_error _
      | none => exact returns_ok _

end HandlerPool

end Pitaya.Service
