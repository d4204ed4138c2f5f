import Pitaya.Service.Remote

/-!
# Answering requests over NATS

`cluster/nats_rpc_server.go`: `processMessages` takes a request from the channel, makes a context
of its metadata, calls the remote service on a goroutine of its own, and publishes the response.
-/

namespace Pitaya.Cluster

open Service Outcome

/-- `NatsRPCServer`, with `encoding/json` at the type of the metadata, `nuid`, and
`proto.Marshal` of a response. -/
structure NatsRPCServer (V A : Type) where
  pitayaServer : RemoteService V A
  unmarshal : Bytes → Except Bytes (Finmap fun _ : Bytes => Json)
  next : Bytes
  marshal : Response → Except Bytes Bytes

namespace NatsRPCServer

variable {V A : Type} (ns : NatsRPCServer V A)

/-- `marshalResponse`.  A response that is nil marshals to nothing, and reading its status
crashes. -/
def marshalResponse : Option Response → Outcome Empty Bytes
  | none => .crash
  | some res =>
    match ns.marshal res with
    | .ok p => .ok p
    | .error e =>
      match ns.marshal { status := some (ns.pitayaServer.fromError (.serializer e)) } with
      | .ok p => .ok p
      | .error _ => .ok []

/-- Marshal and `Publish`, unless the request is a notification. -/
def reply (req : Request) (res : Option Response) : Outcome Empty (List (Bytes × Bytes)) :=
  if req.msg.typ ≠ .notify then do
    let p ← ns.marshalResponse res
    .ok [(req.msg.reply, p)]
  else .ok []

/-- The body of the loop of `processMessages` with the task it submits: the pool afterwards, and
what is published on which subject.  Publishing comes last, so nothing is published if it
crashes. -/
def processMessage (p : Pool V) (req : Request) :
    Outcome Empty (Pool V × List (Bytes × Bytes)) :=
  match getContextFromRequest ns.unmarshal ns.next req with
  | .error e => do
      let published ← ns.reply req (some { status := some (ns.pitayaServer.fromError e) })
      .ok (p, published)
  | .ok ctx => do
      let (p, res, _) ← ns.pitayaServer.call p ctx req
      let published ← ns.reply req res
      .ok (p, published)

variable {ns}

theorem marshalResponse_returns (res : Response) : (ns.marshalResponse (some res)).Returns := by
  unfold marshalResponse
  dsimp only
  split
  · exact returns_ok _
  split <;> exact returns_ok _

/-- One response is published, on the reply subject of the request. -/
def Answers (ns : NatsRPCServer V A) (req : Request) :
    Outcome Empty (Pool V × List (Bytes × Bytes)) → Prop
  | .ok (_, published) => ∃ res payload, ns.marshalResponse (some res) = .ok payload ∧
      published = [(req.msg.reply, payload)]
  | _ => False

variable {p : Pool V} {req : Request}

section

variable (htype : req.msg.typ ≠ .notify)
include htype

theorem reply_some (res : Response) :
    ∃ payload, ns.marshalResponse (some res) = .ok payload ∧
      ns.reply req (some res) = .ok [(req.msg.reply, payload)] := by
  rw [reply, if_pos htype]
  cases hmarshal : ns.marshalResponse (some res) with
  | ok payload => exact ⟨payload, rfl, rfl⟩
  | error e => cases e
  | crash =>
    have hreturns := @marshalResponse_returns V A ns res
    rw [hmarshal] at hreturns
    cases hreturns

theorem reply_none : ns.reply req none = .crash := by
  rw [reply, if_pos htype]
  rfl

theorem answers_iff_returns :
    ns.Answers req (ns.processMessage p req) ↔ (ns.processMessage p req).Returns := by
  unfold processMessage
  split
  · next e _ =>
    obtain ⟨payload, hpayload, hreply⟩ :=
      reply_some htype { status := some (ns.pitayaServer.fromError e) }
    rw [hreply]
    exact iff_of_true ⟨_, payload, hpayload, rfl⟩ (returns_ok _)
  · next ctx _ =>
    cases ns.pitayaServer.call p ctx req with
    | crash => exact Iff.rfl
    | error e => cases e
    | ok result =>
      obtain ⟨p', res, err⟩ := result
      simp only [ok_bind]
      cases res with
      | none =>
        rw [reply_none htype]
        exact Iff.rfl
      | some res =>
        obtain ⟨payload, hpayload, hreply⟩ := reply_some htype res
        rw [hreply]
        exact iff_of_true ⟨res, payload, hpayload, rfl⟩ (returns_ok _)

theorem processMessage_returns_iff :
    (ns.processMessage p req).Returns ↔
      ∀ ctx, getContextFromRequest ns.unmarshal ns.next req = .ok ctx →
        (∃ rt, Route.decode req.msg.route = .ok rt) ∧ ctx.Traceable ∧
          (ns.pitayaServer.processRemoteMessage p ctx req).Returns := by
  unfold processMessage
  split
  · next e herror =>
    obtain ⟨payload, -, hreply⟩ :=
      reply_some htype { status := some (ns.pitayaServer.fromError e) }
    rw [hreply]
    refine iff_of_true (returns_ok _) fun ctx hctx => ?_
    cases herror.symm.trans hctx
  · next ctx hctx =>
    have hall (P : Context → Prop) : (∀ ctx', (.ok ctx : Except ServiceError Context) = .ok ctx' →
        P ctx') ↔ P ctx := ⟨fun h => h ctx rfl, fun h _ heq => Except.ok.inj heq ▸ h⟩
    rw [hctx, hall, ← tracing_returns_iff (getContextFromRequest_requestID hctx)]
    cases hroute : Route.decode req.msg.route with
    | error e =>
      have hcall : ns.pitayaServer.call p ctx req = .ok (p, none, some (.route e)) := by
        rw [RemoteService.call, hroute]
      rw [hcall]
      simp only [ok_bind, reply_none htype]
      refine iff_of_false not_returns_crash ?_
      rintro ⟨⟨rt, hrt⟩, -⟩
      cases hrt
    | ok rt =>
      rw [and_iff_right ⟨rt, rfl⟩, ← RemoteService.call_returns_iff hroute, returns_bind_iff]
      constructor
      · rintro ⟨⟨p', res, err⟩, hcall, -⟩
        obtain ⟨res, rfl⟩ := RemoteService.call_some hroute hcall
        exact ⟨p', res, err, hcall⟩
      · rintro ⟨p', res, err, hcall⟩
        obtain ⟨payload, -, hreply⟩ := @reply_some V A ns req htype res
        refine ⟨(p', some res, err), hcall, ?_⟩
        simp only [hreply, ok_bind]
        exact returns_ok _

end

/-- The request can be answered, as far as the application's code returns: its context cannot be
made; or its route can be decoded, the metadata that tracing reads are strings, and a `Sys` request
has a session, unless the server is a frontend. -/
def Answerable (ns : NatsRPCServer V A) (req : Request) : Prop :=
  ∀ ctx, getContextFromRequest ns.unmarshal ns.next req = .ok ctx →
    (∃ rt, Route.decode req.msg.route = .ok rt) ∧ ctx.Traceable ∧
      (req.typ = .sys → ns.pitayaServer.server.frontend = true ∨ req.session.isSome = true)

/-- **Answers to requests.**  For every server and every request that is no notification: exactly
one response is published, on the reply subject, if and only if the handling does not crash, and
nothing is published otherwise.  It does not crash if and only if the context cannot be made, or
the route can be decoded, the metadata that tracing reads are strings and the dispatch returns;
where the application's code returns, that is `Answerable`. -/
theorem request_answered_iff (ns : NatsRPCServer V A) (p : Pool V) (req : Request)
    (htype : req.msg.typ ≠ .notify) :
    (ns.Answers req (ns.processMessage p req) ↔ ns.processMessage p req ≠ .crash) ∧
      (ns.Answers req (ns.processMessage p req) ↔
        ∀ ctx, getContextFromRequest ns.unmarshal ns.next req = .ok ctx →
          (∃ rt, Route.decode req.msg.route = .ok rt) ∧ ctx.Traceable ∧
            (ns.pitayaServer.processRemoteMessage p ctx req).Returns) ∧
      (ns.pitayaServer.Calm → (ns.Answers req (ns.processMessage p req) ↔ ns.Answerable req)) := by
  rw [answers_iff_returns htype]
  refine ⟨?_, processMessage_returns_iff htype, fun hcalm => ?_⟩
  · exact not_iff_not.mp (Outcome.not_returns_iff.trans not_not.symm)
  · rw [processMessage_returns_iff htype]
    refine forall_congr' fun ctx => imp_congr_right fun _ => ?_
    constructor
    · rintro ⟨⟨rt, hroute⟩, htrace, hreturns⟩
      exact ⟨⟨rt, hroute⟩, htrace,
        (RemoteService.processRemoteMessage_returns_iff hcalm hroute).mp hreturns⟩
    · rintro ⟨⟨rt, hroute⟩, htrace, hsession⟩
      exact ⟨⟨rt, hroute⟩, htrace,
        (RemoteService.processRemoteMessage_returns_iff hcalm hroute).mpr hsession⟩

variable (propagate : Finmap fun _ : Bytes => Json)

/-- A backend without handlers, where the metadata of a request decode to `propagate`. -/
def bare : NatsRPCServer Bytes Bytes where
  pitayaServer :=
    { server :=
        { codec := .strings []
          frontend := false }
      handlerPool :=
        { raw := id, marshal := fun ret => .ok (ret.getD []), errorPayload := fun _ => .ok [] }
      fromError := fun _ => { code := 500, message := [] }
      errorText := fun _ => []
      marshal := fun b => some (.ok b) }
  unmarshal := fun _ => .ok propagate
  next := [49]
  marshal := fun res => .ok res.data

theorem bare_calm : (bare propagate).pitayaServer.Calm :=
  ⟨rfl, nofun, nofun, ⟨nofun, nofun⟩, ⟨nofun, nofun⟩, ⟨nofun, nofun⟩⟩

/-- A user request for route "a.b" or another one, to be answered on "r". -/
def userRequest (route : Bytes) : Request where
  typ := .user
  msg := { route := route, reply := [114] }
  metadata := [123, 125]

/-- A request with an empty route is not answered; nor is one whose peer id is no string, nor a
`Sys` request without a session. -/
theorem unanswered :
    (bare ∅).processMessage {} (userRequest []) = .crash ∧
      (bare (Finmap.singleton peerIDKey .other)).processMessage {} (userRequest [97, 46, 98])
        = .crash ∧
      (bare ∅).processMessage {} { userRequest [97, 46, 98] with typ := .sys } = .crash := by
  refine ⟨Outcome.not_returns_iff.mp ?_, Outcome.not_returns_iff.mp ?_,
    Outcome.not_returns_iff.mp ?_⟩ <;> decide +kernel

/-- A request with a route and metadata can be answered, and is. -/
theorem request_answered_bare :
    (bare ∅).Answerable (userRequest [97, 46, 98]) ∧
      (bare ∅).Answers (userRequest [97, 46, 98])
        ((bare ∅).processMessage {} (userRequest [97, 46, 98])) := by
  have hanswerable : (bare ∅).Answerable (userRequest [97, 46, 98]) := by
    intro ctx hctx
    obtain rfl := Except.ok.inj hctx
    have hroute : Route.decode [97, 46, 98] = .ok ⟨[], [97], [98]⟩ := by decide +kernel
    refine ⟨⟨_, hroute⟩, ⟨by decide +kernel, by decide +kernel, fun fields hspan => ?_⟩, nofun⟩
    exact absurd hspan (ne_of_eq_of_ne (b := Json.null) (by decide +kernel) nofun)
  exact ⟨hanswerable, ((request_answered_iff (bare ∅) {} (userRequest [97, 46, 98])
    (by decide)).2.2 (bare_calm ∅)).mpr hanswerable⟩

end NatsRPCServer

end Pitaya.Cluster
