import Pitaya.Service.Sending

/-!
# Error payloads and error flags

Payloads made by `GetErrorPayload` come from three places: an error that is answered
(`AnswerWithError`), a result of a handler that cannot be serialized (`serializeReturn` of
`service/util.go`), and a value that cannot be serialized when it is sent
(`getMessageFromPendingMessage` of `agent/agent.go`).  The error flag of the message is chosen by
the caller of `send`, who does not know of the last two.

* `Origin`, `Frame`, `Outbox` — an agent whose queued messages are recorded with the origin of
  their payload.
* `Outbox.send`, `push`, `responseMID`, `answerWithError`, `localProcess`, `remoteProcess` — the
  calls; `localProcess_agent` and its like say that without the record they are those of
  `Requests`.
* `Call` — either of them.
* `Honest` — what a call queues with an error payload has the flag, and what it queues without the
  flag is its own value.
* `Call.unflagged` — the error payload that a call would send without the flag.
* `Explained` — where a queued message may come from; every one of them does (`explained_run`).
* `unflagged_error` — the result of a handler that cannot be serialized.
-/

namespace Pitaya.Service

open Conn Outcome List Frontend

variable {A : Type}

/-! ## Payloads with their origin -/

/-- Where a payload comes from: it is the serialization of a value, or `GetErrorPayload` of an
error. -/
inductive Origin where
  | own
  | errorPayload (e : ServiceError)
  deriving DecidableEq, Repr

/-- A message with the origin of its payload. -/
structure Frame where
  message : Message
  origin : Origin
  deriving DecidableEq, Repr

/-- An agent, and the messages that have been queued. -/
structure Outbox where
  agent : Agent
  frames : List Frame := []
  deriving DecidableEq, Repr

/-- `serializeReturn`, with the origin of the bytes. -/
def HandlerPool.taggedReturn (h : HandlerPool A) (ret : Option A) :
    Outcome ServiceError (Bytes × Origin) :=
  match h.marshal ret with
  | .ok res => .ok (res, .own)
  | .error e =>
    match h.errorPayload (.serializer e) with
    | .ok res => .ok (res, .errorPayload (.serializer e))
    | .error e => .error (.serializer e)

namespace Frontend

variable (S : Frontend A)

/-- What the handler of a message returns. -/
def handlerReturn (ctx : Context) (r : Route) (msg : Message) : Outcome ServiceError (Option A) :=
  S.pool.messageReturn S.development S.hooks ctx r S.session S.uid msg.data msg.typ false

/-- `getMessageFromPendingMessage`, for a payload of the given origin. -/
def frameOf (pm : PendingMessage A) (origin : Origin) : Except Bytes Frame :=
  match S.serializeOrRaw pm.payload with
  | .ok payload => .ok ⟨pm.message payload, origin⟩
  | .error e =>
    match S.pool.errorPayload (.serializer e) with
    | .ok payload => .ok ⟨pm.message payload, .errorPayload (.serializer e)⟩
    | .error e => .error e

/-- `send` of a message. -/
def enqueue (o : Outbox) (f : Frame) : Outbox × Option SendError :=
  match S.packetEncodeMessage f.message with
  | .error e => (o, some e)
  | .ok p =>
    (if o.agent.chDie && S.dieFirst then o
      else ⟨{ o.agent with chSend := o.agent.chSend ++ [p] }, o.frames ++ [f]⟩, none)

end Frontend

namespace Outbox

variable (S : Frontend A)

def send (o : Outbox) (pm : PendingMessage A) (origin : Origin) : Outbox × Option PendingError :=
  match S.frameOf pm origin with
  | .error e => (o, some (.payload e))
  | .ok f => ((S.enqueue o f).1, (S.enqueue o f).2.map .send)

def push (o : Outbox) (route : Bytes) (v : Payload A) : Outbox × Option PendingError :=
  if o.agent.status = .closed then (o, some (.send .brokenPipe))
  else o.send S { typ := .push, route := route, payload := v } .own

def responseMID (o : Outbox) (mid : UInt64) (v : Payload A) (origin : Origin) (isError : Bool) :
    Outbox × Option PendingError :=
  if o.agent.status = .closed then (o, some (.send .brokenPipe))
  else if mid ≤ 0 then
    if !isError then (o, some (.send .sessionOnNotify))
    else
      o.send S
        { typ := .push, route := serverInternalErrorToClientRoute, payload := v, err := true }
        origin
  else o.send S { typ := .response, mid := mid, payload := v, err := isError } origin

def answerWithError (o : Outbox) (mid : UInt64) (err : ServiceError) : Outbox :=
  match S.pool.errorPayload err with
  | .error _ => o
  | .ok p => (o.responseMID S mid (.raw p) (.errorPayload err) true).1

def localProcess (ctx : Context) (o : Outbox) (r : Route) (msg : Message) : Outcome Empty Outbox :=
  let mid := if msg.typ = .request then msg.id else 0
  match S.handlerReturn ctx r msg >>= S.pool.taggedReturn with
  | .crash => .crash
  | .error e => .ok (o.answerWithError S mid e)
  | .ok (ret, origin) =>
    .ok (if msg.typ ≠ .notify then (o.responseMID S mid (.raw ret) origin false).1 else o)

/-- The error of `send` as `GetErrorPayload` is given it. -/
def serviceError : PendingError → ServiceError
  | .payload text => .serializer text
  | .send e => S.sendError e

/-- `remoteProcess`, with what the call returns. -/
def remoteProcess (o : Outbox) (msg : Message) (res : Outcome ServiceError (Bytes × Origin)) :
    Outcome Empty Outbox :=
  match res with
  | .crash => .crash
  | .error e =>
    .ok (if msg.typ = .request ∨ msg.typ = .notify then o.answerWithError S msg.id e else o)
  | .ok (data, origin) =>
    if msg.typ = .request then
      match o.responseMID S msg.id (.raw data) origin false with
      | (o, none) => .ok o
      | (o, some e) => .ok (o.answerWithError S msg.id (serviceError S e))
    else .ok o

end Outbox

/-! ## Without the origins -/

section

variable (S : Frontend A) (o : Outbox)

theorem taggedReturn_fst (h : HandlerPool A) (ret : Option A) :
    (h.taggedReturn ret >>= fun r => pure r.1) = h.serializeReturn ret := by
  unfold HandlerPool.taggedReturn HandlerPool.serializeReturn
  cases h.marshal ret with
  | ok => rfl
  | error e =>
    dsimp only
    cases h.errorPayload (.serializer e) <;> rfl

theorem frameOf_message (pm : PendingMessage A) (origin : Origin) :
    (S.frameOf pm origin).map Frame.message = S.getMessageFromPendingMessage pm := by
  unfold frameOf getMessageFromPendingMessage
  cases S.serializeOrRaw pm.payload with
  | ok => rfl
  | error e =>
    dsimp only
    cases S.pool.errorPayload (.serializer e) <;> rfl

theorem enqueue_agent (f : Frame) :
    (S.enqueue o f).1.agent = (S.send o.agent f.message).1 ∧
      (S.enqueue o f).2 = (S.send o.agent f.message).2 := by
  unfold enqueue send
  cases S.packetEncodeMessage f.message with
  | error => exact ⟨rfl, rfl⟩
  | ok =>
    refine ⟨?_, rfl⟩
    dsimp only
    split <;> rfl

theorem send_agent {pm : PendingMessage A} {v : Bytes} (hraw : pm.payload = .raw v)
    (origin : Origin) :
    (o.send S pm origin).1.agent = (S.send o.agent (pm.message v)).1 ∧
      (o.send S pm origin).2 = (S.send o.agent (pm.message v)).2.map PendingError.send := by
  have hframe : S.frameOf pm origin = .ok ⟨pm.message v, origin⟩ := by
    rw [frameOf, hraw]
    rfl
  obtain ⟨hagent, herror⟩ := enqueue_agent S o ⟨pm.message v, origin⟩
  rw [Outbox.send, hframe]
  exact ⟨hagent, congrArg (Option.map PendingError.send) herror⟩

theorem responseMID_agent (mid : UInt64) (v : Bytes) (origin : Origin) (isError : Bool) :
    (o.responseMID S mid (.raw v) origin isError).1.agent =
        (S.responseMID o.agent mid v isError).1 ∧
      (o.responseMID S mid (.raw v) origin isError).2 =
        (S.responseMID o.agent mid v isError).2.map PendingError.send := by
  unfold Outbox.responseMID responseMID
  split
  · exact ⟨rfl, rfl⟩
  split
  · split
    · exact ⟨rfl, rfl⟩
    · exact send_agent S o rfl origin
  · exact send_agent S o rfl origin

theorem answerWithError_agent (mid : UInt64) (err : ServiceError) :
    (o.answerWithError S mid err).agent = S.answerWithError o.agent mid err := by
  unfold Outbox.answerWithError answerWithError
  cases S.pool.errorPayload err with
  | error => rfl
  | ok p => exact (responseMID_agent S o mid p _ true).1

/-- **`localProcess`** is that of `Requests`. -/
theorem localProcess_agent (ctx : Context) (r : Route) (msg : Message) :
    (Outbox.localProcess S ctx o r msg >>= fun o => pure o.agent) =
      S.localProcess ctx o.agent r msg := by
  have hhandle : S.handle ctx r msg =
      ((S.handlerReturn ctx r msg >>= S.pool.taggedReturn) >>= fun r => pure r.1) := by
    rw [handle, HandlerPool.processHandlerMessage, bind_bind]
    refine bind_congr fun ret => ?_
    exact (taggedReturn_fst S.pool ret).symm
  unfold Outbox.localProcess localProcess
  rw [hhandle]
  cases S.handlerReturn ctx r msg >>= S.pool.taggedReturn with
  | crash => rfl
  | error e => exact congrArg ok (answerWithError_agent S o _ e)
  | ok ret =>
    refine congrArg ok ?_
    split
    · exact (responseMID_agent S o _ ret.1 ret.2 false).1
    · rfl

/-- **`remoteProcess`** is that of `Requests`. -/
theorem remoteProcess_agent (msg : Message) (res : Outcome ServiceError (Bytes × Origin)) :
    (Outbox.remoteProcess S o msg res >>= fun o => pure o.agent) =
      S.remoteProcess o.agent msg (res >>= fun r => pure r.1) := by
  cases res with
  | crash => rfl
  | error e =>
    refine congrArg ok ?_
    split
    · exact answerWithError_agent S o _ e
    · rfl
  | ok res =>
    obtain ⟨data, origin⟩ := res
    simp only [Outbox.remoteProcess, remoteProcess, ok_bind, pure_eq_ok]
    split
    · obtain ⟨hagent, herror⟩ := responseMID_agent S o msg.id data origin false
      generalize o.responseMID S msg.id (.raw data) origin false = r at hagent herror
      generalize S.responseMID o.agent msg.id data false = r' at hagent herror
      obtain ⟨o', err⟩ := r
      obtain ⟨a', err'⟩ := r'
      obtain rfl : err = err'.map .send := herror
      obtain rfl : o'.agent = a' := hagent
      cases err' with
      | none => rfl
      | some => exact congrArg ok (answerWithError_agent S o' _ _)
    · rfl

end

/-! ## Calls -/

/-- A call that may queue messages.  The result of a remote call is what the handler of another
server returns, serialized there. -/
inductive Call (A : Type) where
  | push (route : Bytes) (v : Payload A)
  | responseMID (mid : UInt64) (v : Payload A) (isError : Bool)
  | answerWithError (mid : UInt64) (err : ServiceError)
  | localProcess (ctx : Context) (r : Route) (msg : Message)
  | remoteProcess (pool : HandlerPool A) (msg : Message) (ret : Outcome ServiceError (Option A))

namespace Call

variable (S : Frontend A)

/-- The call, with an empty record. -/
def run (a : Agent) : Call A → Outcome Empty Outbox
  | .push route v => .ok (Outbox.push S { agent := a } route v).1
  | .responseMID mid v isError => .ok (Outbox.responseMID S { agent := a } mid v .own isError).1
  | .answerWithError mid err => .ok (Outbox.answerWithError S { agent := a } mid err)
  | .localProcess ctx r msg => Outbox.localProcess S ctx { agent := a } r msg
  | .remoteProcess pool msg ret =>
    Outbox.remoteProcess S { agent := a } msg (ret >>= pool.taggedReturn)

/-- The serialization of the value the call is to send, if there is one. -/
def serialized : Call A → Option (Except Bytes Bytes)
  | .push _ v => some (S.serializeOrRaw v)
  | .responseMID _ v _ => some (S.serializeOrRaw v)
  | .answerWithError _ _ => none
  | .localProcess ctx r msg =>
    match S.handlerReturn ctx r msg with
    | .ok ret => some (S.pool.marshal ret)
    | _ => none
  | .remoteProcess pool _ ret =>
    match ret with
    | .ok ret => some (pool.marshal ret)
    | _ => none

/-- A response without the flag. -/
def response (mid : UInt64) (data : Bytes) : Message :=
  { typ := .response, id := mid, data := data }

/-- The error payload for a value that cannot be serialized. -/
def refusal (h : HandlerPool A) : Except Bytes Bytes → Option Bytes
  | .ok _ => none
  | .error e => (h.errorPayload (.serializer e)).toOption

/-- The message with an error payload in place of the call's own value that is sent without the
flag.  There is none if the value can be serialized or the error cannot, if the caller has set the
flag, and if the message is answered to nobody: a notification, or a request without an id. -/
def unflagged : Call A → Option Message
  | .push route v => (refusal S.pool (S.serializeOrRaw v)).map fun data =>
    { typ := .push, route := route, data := data }
  | .responseMID mid v isError =>
    if isError ∨ mid ≤ 0 then none else (refusal S.pool (S.serializeOrRaw v)).map (response mid)
  | .answerWithError _ _ => none
  | .localProcess ctx r msg =>
    if msg.typ ≠ .request ∨ msg.id ≤ 0 then none
    else match S.handlerReturn ctx r msg with
      | .ok ret => (refusal S.pool (S.pool.marshal ret)).map (response msg.id)
      | _ => none
  | .remoteProcess pool msg ret =>
    if msg.typ ≠ .request ∨ msg.id ≤ 0 then none
    else match ret with
      | .ok ret => (refusal pool (pool.marshal ret)).map (response msg.id)
      | _ => none

end Call

namespace Frontend

variable (S : Frontend A)

/-- The agent takes the message: it is not closed and the message can be encoded; a dead agent may
drop it. -/
def Takes (a : Agent) (m : Message) : Prop :=
  a.status ≠ .closed ∧ (a.chDie && S.dieFirst) = false ∧ ∃ p, S.packetEncodeMessage m = .ok p

/-- The encoded message has its error flag set. -/
def Flagged (m : Message) : Prop :=
  ∃ flag rest, (Message.encode S.zlib S.dataCompression S.dictionary m).1 = .ok (flag :: rest) ∧
    flag &&& Message.errorMask = Message.errorMask

/-- Of the messages a call queues, those with an error payload have the flag, and those without the
flag have the serialization of the call's own value. -/
structure Honest (a : Agent) (call : Call A) : Prop where
  flagged : ∀ o, call.run S a = .ok o → ∀ f ∈ o.frames, ∀ e, f.origin = .errorPayload e →
    S.Flagged f.message
  own : ∀ o, call.run S a = .ok o → ∀ f ∈ o.frames, ¬ S.Flagged f.message →
    f.origin = .own ∧ call.serialized S = some (.ok f.message.data)

/-- How a call comes to queue a message: it has the call's own value, or it is an error that is
flagged, or one that is not. -/
structure Explained (a : Agent) (call : Call A) (f : Frame) : Prop where
  encoded : ∃ p, S.packetEncodeMessage f.message = .ok p
  payload : (f.origin = .own ∧ call.serialized S = some (.ok f.message.data)) ∨
    f.message.err = true ∨ call.unflagged S = some f.message ∧ S.Takes a f.message

end Frontend

/-! ## Where messages come from -/

section

variable {S : Frontend A} {o : Outbox}

theorem mem_enqueue {f g : Frame} (hg : g ∈ (S.enqueue o f).1.frames) :
    g ∈ o.frames ∨ g = f ∧ (o.agent.chDie && S.dieFirst) = false ∧
      ∃ p, S.packetEncodeMessage f.message = .ok p := by
  unfold enqueue at hg
  split at hg
  · exact .inl hg
  next p hp =>
  split at hg
  · exact .inl hg
  next hkept =>
  refine (mem_append.mp hg).imp_right fun h => ⟨mem_singleton.mp h, ?_, p, hp⟩
  exact Bool.eq_false_iff.mpr hkept

/-- What a pending message becomes: it has the payload it was given, or one for the failure to
serialize it. -/
theorem frameOf_cases {pm : PendingMessage A} {origin : Origin} {f : Frame}
    (hf : S.frameOf pm origin = .ok f) :
    (∃ data, S.serializeOrRaw pm.payload = .ok data ∧ f = ⟨pm.message data, origin⟩) ∨
      ∃ e data, S.serializeOrRaw pm.payload = .error e ∧
        Call.refusal S.pool (.error e) = some data ∧
        f = ⟨pm.message data, .errorPayload (.serializer e)⟩ := by
  unfold frameOf at hf
  split at hf
  · next payload hpayload => exact .inl ⟨payload, hpayload, (Except.ok.inj hf).symm⟩
  next e he =>
  split at hf
  · next data hdata =>
    refine .inr ⟨e, data, he, ?_, (Except.ok.inj hf).symm⟩
    rw [Call.refusal, hdata]
    rfl
  · cases hf

theorem mem_send {pm : PendingMessage A} {origin : Origin} {g : Frame}
    (hg : g ∈ (o.send S pm origin).1.frames) :
    g ∈ o.frames ∨ S.frameOf pm origin = .ok g ∧ (o.agent.chDie && S.dieFirst) = false ∧
      ∃ p, S.packetEncodeMessage g.message = .ok p := by
  unfold Outbox.send at hg
  split at hg
  · exact .inl hg
  next f hf =>
  obtain hmem | ⟨rfl, hkept⟩ := mem_enqueue hg
  · exact .inl hmem
  · exact .inr ⟨hf, hkept⟩

/-- A response is queued with the flag that the caller has set; without one it answers a request,
on an agent that is not closed. -/
theorem mem_responseMID {mid : UInt64} {v : Payload A} {origin : Origin} {isError : Bool}
    {g : Frame} (hg : g ∈ (o.responseMID S mid v origin isError).1.frames) :
    g ∈ o.frames ∨ (∃ p, S.packetEncodeMessage g.message = .ok p) ∧
      (isError = true ∧ g.message.err = true ∨ isError = false ∧ ¬ mid ≤ 0 ∧
        S.Takes o.agent g.message ∧
        S.frameOf { typ := .response, mid := mid, payload := v } origin = .ok g) := by
  have herr {pm : PendingMessage A} (hf : S.frameOf pm origin = .ok g) :
      g.message.err = pm.err := by
    obtain ⟨data, -, rfl⟩ | ⟨e, data, -, -, rfl⟩ := frameOf_cases hf <;> rfl
  unfold Outbox.responseMID at hg
  split at hg
  · exact .inl hg
  next hopen =>
  split at hg
  · cases isError with
    | false => exact .inl hg
    | true => exact (mem_send hg).imp_right fun ⟨hf, _, hp⟩ => ⟨hp, .inl ⟨rfl, herr hf⟩⟩
  next hmid =>
  refine (mem_send hg).imp_right fun ⟨hf, hkept, hp⟩ => ⟨hp, ?_⟩
  cases isError with
  | false => exact .inr ⟨rfl, hmid, ⟨hopen, hkept, hp⟩, hf⟩
  | true => exact .inl ⟨rfl, herr hf⟩

theorem mem_answerWithError {mid : UInt64} {err : ServiceError} {g : Frame}
    (hg : g ∈ (o.answerWithError S mid err).frames) :
    g ∈ o.frames ∨ (∃ p, S.packetEncodeMessage g.message = .ok p) ∧ g.message.err = true := by
  unfold Outbox.answerWithError at hg
  split at hg
  · exact .inl hg
  · obtain hmem | ⟨hp, ⟨-, herr⟩ | ⟨⟨⟩, -⟩⟩ := mem_responseMID hg
    · exact .inl hmem
    · exact .inr ⟨hp, herr⟩

/-- What is returned serialized is the value, or tells that it could not be. -/
theorem taggedReturn_cases {h : HandlerPool A} {x : Outcome ServiceError (Option A)} {data : Bytes}
    {origin : Origin} (hret : (x >>= h.taggedReturn) = .ok (data, origin)) :
    ∃ ret, x = .ok ret ∧ ((origin = .own ∧ h.marshal ret = .ok data) ∨
      Call.refusal h (h.marshal ret) = some data) := by
  obtain ⟨ret, hx, htagged⟩ := bind_eq_ok hret
  refine ⟨ret, hx, ?_⟩
  unfold HandlerPool.taggedReturn at htagged
  split at htagged
  · next res hres =>
    obtain ⟨rfl, rfl⟩ := Prod.mk.inj (ok.inj htagged)
    exact .inl ⟨rfl, hres⟩
  next e he =>
  split at htagged
  · next res hres =>
    obtain ⟨rfl, -⟩ := Prod.mk.inj (ok.inj htagged)
    rw [he, Call.refusal, hres]
    exact .inr rfl
  · cases htagged

variable {a : Agent} {call : Call A} {f : Frame}

variable {h : HandlerPool A}

/-- The value that a handler has returned, sent without the flag. -/
theorem explained_returned {x : Outcome ServiceError (Option A)} {data : Bytes}
    {origin : Origin} {mid : UInt64} (hret : (x >>= h.taggedReturn) = .ok (data, origin))
    (hserialized : ∀ ret, x = .ok ret → call.serialized S = some (h.marshal ret))
    (hunflagged : ∀ ret, x = .ok ret → ¬ mid ≤ 0 →
      call.unflagged S = (Call.refusal h (h.marshal ret)).map (Call.response mid))
    (hf : f ∈ (Outbox.responseMID S { agent := a } mid (.raw data) origin false).1.frames) :
    S.Explained a call f := by
  obtain ⟨ret, hx, hdata⟩ := taggedReturn_cases hret
  obtain hmem | ⟨hp, ⟨⟨⟩, -⟩ | ⟨-, hmid, htakes, hframe⟩⟩ := mem_responseMID hf
  · exact absurd hmem not_mem_nil
  obtain rfl := Except.ok.inj hframe
  refine ⟨hp, hdata.imp ?_ fun hrefused => .inr ⟨?_, htakes⟩⟩
  · rintro ⟨rfl, hmarshal⟩
    exact ⟨rfl, by rw [hserialized ret hx, hmarshal]; rfl⟩
  · rw [hunflagged ret hx hmid, hrefused]
    rfl

/-- An error answered, with nothing else in the record that is not explained. -/
theorem explained_answer {mid : UInt64} {err : ServiceError}
    (hold : f ∈ o.frames → S.Explained a call f) (hf : f ∈ (o.answerWithError S mid err).frames) :
    S.Explained a call f := by
  obtain hmem | ⟨hp, herr⟩ := mem_answerWithError hf
  · exact hold hmem
  · exact ⟨hp, .inr (.inl herr)⟩

/-- The call's own value, sent without the flag. -/
theorem explained_own {pm : PendingMessage A} (htakes : S.Takes a f.message)
    (hserialized : call.serialized S = some (S.serializeOrRaw pm.payload))
    (hunflagged : call.unflagged S =
      (Call.refusal S.pool (S.serializeOrRaw pm.payload)).map pm.message)
    (hf : S.frameOf pm .own = .ok f) : S.Explained a call f := by
  obtain ⟨data, hdata, rfl⟩ | ⟨e, data, he, hrefused, rfl⟩ := frameOf_cases hf
  · exact ⟨htakes.2.2, .inl ⟨rfl, by rw [hserialized, hdata]; rfl⟩⟩
  · refine ⟨htakes.2.2, .inr (.inr ⟨?_, htakes⟩)⟩
    rw [hunflagged, he, hrefused]
    rfl

theorem explained_remoteProcess {pool : HandlerPool A} {msg : Message}
    {ret : Outcome ServiceError (Option A)}
    (hrun : (Call.remoteProcess pool msg ret).run S a = .ok o)
    (hf : f ∈ o.frames) : S.Explained a (.remoteProcess pool msg ret) f := by
  have hnone (hmem : f ∈ ({ agent := a } : Outbox).frames) :
      S.Explained a (.remoteProcess pool msg ret) f := absurd hmem not_mem_nil
  dsimp only [Call.run, Outbox.remoteProcess] at hrun
  split at hrun
  · cases hrun
  · obtain rfl := ok.inj hrun
    split at hf
    · exact explained_answer hnone hf
    · exact hnone hf
  next data origin hret =>
  split at hrun
  · next hrequest =>
    have hreturned (hf : f ∈
        (Outbox.responseMID S { agent := a } msg.id (.raw data) origin false).1.frames) :
        S.Explained a (.remoteProcess pool msg ret) f := by
      refine explained_returned hret ?_ ?_ hf
      · rintro v rfl
        rfl
      · rintro v rfl hmid
        exact if_neg (not_or.mpr ⟨not_not.mpr hrequest, hmid⟩)
    generalize Outbox.responseMID S { agent := a } msg.id (.raw data) origin false = r
      at hrun hreturned
    -- an error of the response is answered, after whatever the response has queued
    obtain ⟨o', _ | e⟩ := r
    · obtain rfl := ok.inj hrun
      exact hreturned hf
    · obtain rfl := ok.inj hrun
      exact explained_answer hreturned hf
  · obtain rfl := ok.inj hrun
    exact hnone hf

/-- **Every message a call queues is explained.** -/
theorem explained_run (hrun : call.run S a = .ok o) (hf : f ∈ o.frames) : S.Explained a call f := by
  have hnone (hmem : f ∈ ({ agent := a } : Outbox).frames) : S.Explained a call f :=
    absurd hmem not_mem_nil
  cases call with
  | push =>
    obtain rfl := ok.inj hrun
    unfold Outbox.push at hf
    split at hf
    · exact hnone hf
    next hopen =>
    obtain hmem | ⟨hframe, hkept, hp⟩ := mem_send hf
    · exact hnone hmem
    · exact explained_own ⟨hopen, hkept, hp⟩ rfl rfl hframe
  | responseMID mid v isError =>
    obtain rfl := ok.inj hrun
    obtain hmem | ⟨hp, ⟨-, herr⟩ | ⟨rfl, hmid, htakes, hframe⟩⟩ := mem_responseMID hf
    · exact hnone hmem
    · exact ⟨hp, .inr (.inl herr)⟩
    · refine explained_own htakes rfl ?_ hframe
      exact if_neg (not_or.mpr ⟨Bool.false_ne_true, hmid⟩)
  | answerWithError =>
    obtain rfl := ok.inj hrun
    exact explained_answer hnone hf
  | localProcess ctx r msg =>
    unfold Call.run Outbox.localProcess at hrun
    dsimp only at hrun
    split at hrun
    · cases hrun
    · obtain rfl := ok.inj hrun
      exact explained_answer hnone hf
    · next ret origin hret =>
      obtain rfl := ok.inj hrun
      split at hf
      · refine explained_returned hret (fun ret hx => ?_) (fun ret hx hmid => ?_) hf
        · rw [Call.serialized, hx]
        · -- only a request has an id to answer to
          by_cases hrequest : msg.typ = .request
          · rw [if_pos hrequest] at hmid ⊢
            rw [Call.unflagged, if_neg (not_or.mpr ⟨not_not.mpr hrequest, hmid⟩), hx]
          · rw [if_neg hrequest] at hmid
            exact absurd (UInt64.le_refl 0) hmid
      · exact hnone hf
  | remoteProcess => exact explained_remoteProcess hrun hf

/-! ## Error payloads without the flag -/

/-- What an agent takes is queued. -/
theorem enqueue_takes (htakes : S.Takes a f.message) :
    (S.enqueue { agent := a } f).1.frames = [f] ∧ (S.enqueue { agent := a } f).2 = none := by
  obtain ⟨-, hkept, p, hp⟩ := htakes
  rw [enqueue, hp]
  dsimp only
  rw [hkept]
  exact ⟨rfl, rfl⟩

theorem responseMID_takes {mid : UInt64} {v : Payload A} {origin : Origin}
    (htakes : S.Takes a f.message) (hmid : ¬ mid ≤ 0)
    (hf : S.frameOf { typ := .response, mid := mid, payload := v } origin = .ok f) :
    (Outbox.responseMID S { agent := a } mid v origin false).1.frames = [f] ∧
      (Outbox.responseMID S { agent := a } mid v origin false).2 = none := by
  obtain ⟨hframes, hnone⟩ := enqueue_takes htakes
  rw [Outbox.responseMID, if_neg htakes.1, if_neg hmid, Outbox.send, hf]
  exact ⟨hframes, congrArg (Option.map PendingError.send) hnone⟩

theorem refusal_eq_some {x : Except Bytes Bytes} {data : Bytes}
    (hrefused : Call.refusal h x = some data) :
    ∃ e, x = .error e ∧ h.errorPayload (.serializer e) = .ok data := by
  cases x with
  | ok => cases hrefused
  | error e =>
    refine ⟨e, rfl, ?_⟩
    rw [Call.refusal] at hrefused
    cases hpayload : h.errorPayload (.serializer e) <;> rw [hpayload] at hrefused
    · cases hrefused
    · exact congrArg _ (Option.some.inj hrefused)

theorem frameOf_refused (pm : PendingMessage A) {data : Bytes}
    (hrefused : Call.refusal S.pool (S.serializeOrRaw pm.payload) = some data) :
    ∃ e, S.frameOf pm .own = .ok ⟨pm.message data, .errorPayload e⟩ := by
  obtain ⟨e, he, hpayload⟩ := refusal_eq_some hrefused
  refine ⟨.serializer e, ?_⟩
  rw [frameOf, he]
  dsimp only
  rw [hpayload]

theorem taggedReturn_refused {ret : Option A} {data : Bytes}
    (hrefused : Call.refusal h (h.marshal ret) = some data) :
    ∃ e, h.taggedReturn ret = .ok (data, .errorPayload e) := by
  obtain ⟨e, he, hpayload⟩ := refusal_eq_some hrefused
  refine ⟨.serializer e, ?_⟩
  rw [HandlerPool.taggedReturn, he]
  dsimp only
  rw [hpayload]

/-- **The message without the flag is queued** if the agent takes it. -/
theorem unflagged_queued {m : Message} (hm : call.unflagged S = some m) (htakes : S.Takes a m) :
    m.err = false ∧ ∃ o e, call.run S a = .ok o ∧ (⟨m, .errorPayload e⟩ : Frame) ∈ o.frames := by
  cases call with
  | push route v =>
    obtain ⟨data, hrefused, rfl⟩ := Option.map_eq_some_iff.mp hm
    obtain ⟨e, hf⟩ := frameOf_refused { typ := .push, route := route, payload := v } hrefused
    refine ⟨rfl, _, e, rfl, ?_⟩
    obtain ⟨hframes, -⟩ := enqueue_takes (f := ⟨_, .errorPayload e⟩) htakes
    rw [Outbox.push, if_neg htakes.1, Outbox.send, hf]
    exact hframes ▸ mem_singleton_self _
  | responseMID mid v isError =>
    obtain ⟨hcond, hm⟩ := Option.ite_none_left_eq_some.mp hm
    obtain ⟨hflag, hmid⟩ := not_or.mp hcond
    obtain ⟨data, hrefused, rfl⟩ := Option.map_eq_some_iff.mp hm
    obtain rfl := Bool.eq_false_iff.mpr hflag
    obtain ⟨e, hf⟩ := frameOf_refused { typ := .response, mid := mid, payload := v } hrefused
    refine ⟨rfl, _, e, rfl, ?_⟩
    exact (responseMID_takes (f := ⟨_, .errorPayload e⟩) htakes hmid hf).1 ▸ mem_singleton_self _
  | answerWithError => cases hm
  | localProcess ctx r msg =>
    obtain ⟨hcond, hm⟩ := Option.ite_none_left_eq_some.mp hm
    obtain ⟨hrequest, hmid⟩ := not_or.mp hcond
    rw [not_not] at hrequest
    split at hm
    · next ret hret =>
      obtain ⟨data, hrefused, rfl⟩ := Option.map_eq_some_iff.mp hm
      obtain ⟨e, htagged⟩ := taggedReturn_refused hrefused
      obtain ⟨hframes, -⟩ := responseMID_takes (f := ⟨_, .errorPayload e⟩) (v := .raw data)
        htakes hmid rfl
      have hnotify : msg.typ ≠ .notify := by rw [hrequest]; decide
      refine ⟨rfl, _, e, ?_, hframes ▸ mem_singleton_self _⟩
      rw [Call.run, Outbox.localProcess, hret, ok_bind, htagged]
      dsimp only
      rw [if_pos hrequest, if_pos hnotify]
    · cases hm
  | remoteProcess pool msg ret =>
    obtain ⟨hcond, hm⟩ := Option.ite_none_left_eq_some.mp hm
    obtain ⟨hrequest, hmid⟩ := not_or.mp hcond
    rw [not_not] at hrequest
    split at hm
    · next ret =>
      obtain ⟨data, hrefused, rfl⟩ := Option.map_eq_some_iff.mp hm
      obtain ⟨e, htagged⟩ := taggedReturn_refused hrefused
      obtain ⟨hframes, hnone⟩ := responseMID_takes (f := ⟨_, .errorPayload e⟩) (v := .raw data)
        htakes hmid rfl
      refine ⟨rfl, _, e, ?_, hframes ▸ mem_singleton_self _⟩
      rw [Call.run, ok_bind, htagged, Outbox.remoteProcess, if_pos hrequest]
      generalize Outbox.responseMID S { agent := a } msg.id (.raw data) (.errorPayload e) false = r
        at hnone ⊢
      obtain ⟨o, err⟩ := r
      obtain rfl : err = none := hnone
      rfl
    · cases hm

theorem flagged_iff {m : Message} (h : ∃ p, S.packetEncodeMessage m = .ok p) :
    S.Flagged m ↔ m.err = true := by
  obtain ⟨p, hp⟩ := h
  obtain ⟨em, hem, -⟩ := encode_of_packetEncodeMessage hp
  obtain ⟨htype, gzip, payload, rfl, -⟩ := Message.encode_eq_ok hem
  have hbit := (Message.flagByte_fields htype (S.dictionary.routes.lookup m.route).isSome m.err
    gzip).2.1
  constructor
  · rintro ⟨flag, rest, hencode, hflag⟩
    obtain ⟨rfl, -⟩ := cons.inj (Except.ok.inj (hem.symm.trans hencode))
    exact hbit.mp hflag
  · intro herr
    exact ⟨_, _, hem, hbit.mpr herr⟩

end

/-- **The error flags are right if and only if** there is no error payload that the call would send
without the flag, or the agent does not take it. -/
theorem honest_iff (S : Frontend A) (a : Agent) (call : Call A) :
    S.Honest a call ↔ ∀ m, call.unflagged S = some m → ¬ S.Takes a m := by
  constructor
  · intro h m hm htakes
    obtain ⟨herr, o, e, hrun, hmem⟩ := unflagged_queued hm htakes
    have hflag := (flagged_iff htakes.2.2).mp (h.flagged o hrun _ hmem e rfl)
    cases herr.symm.trans hflag
  · intro h
    have hexplained {o : Outbox} (hrun : call.run S a = .ok o) {f : Frame} (hf : f ∈ o.frames) :
        (f.origin = .own ∧ call.serialized S = some (.ok f.message.data)) ∨
          S.Flagged f.message := by
      obtain ⟨hencoded, hown | herr | ⟨hm, htakes⟩⟩ := explained_run hrun hf
      · exact .inl hown
      · exact .inr ((flagged_iff hencoded).mpr herr)
      · exact absurd htakes (h _ hm)
    refine ⟨fun o hrun f hf e he => ?_, fun o hrun f hf hflag => ?_⟩
    · refine (hexplained hrun hf).resolve_left fun hown => ?_
      cases he.symm.trans hown.1
    · exact (hexplained hrun hf).resolve_right hflag

/-! ## A result that cannot be serialized -/

/-- A frontend of type "g" with one handler, which returns what its serializer refuses. -/
def refusing : Frontend Unit :=
  { gate with
    pool :=
      { raw := fun _ => ()
        marshal := fun _ => .error []
        errorPayload := fun _ => .ok [101]
        handlers := fun _ =>
          some { receiver := (), method := fun _ _ _ => .results (some ()) none } } }

/-- The client gets an error payload in a response without the flag. -/
theorem unflagged_error :
    ∃ o, (Call.localProcess {} ⟨[103], [97], [98]⟩ (request [])).run refusing working = .ok o ∧
      o.frames = [⟨{ typ := .response, id := 7, data := [101] }, .errorPayload (.serializer [])⟩] ∧
      o.agent.chSend = [[4, 0, 0, 3, 4, 7, 101]] ∧
      ¬ refusing.Honest working (.localProcess {} ⟨[103], [97], [98]⟩ (request [])) := by
  have hframe : refusing.packetEncodeMessage { typ := .response, id := 7, data := [101] } =
      .ok [4, 0, 0, 3, 4, 7, 101] := by decide +kernel
  have hrun : (Call.localProcess {} ⟨[103], [97], [98]⟩ (request [])).run refusing working =
      .ok ⟨{ working with chSend := [[4, 0, 0, 3, 4, 7, 101]] },
        [⟨{ typ := .response, id := 7, data := [101] }, .errorPayload (.serializer [])⟩]⟩ := by
    have henqueue : refusing.enqueue { agent := working }
        ⟨{ typ := .response, id := 7, data := [101] }, .errorPayload (.serializer [])⟩ =
        (⟨{ working with chSend := [[4, 0, 0, 3, 4, 7, 101]] },
          [⟨{ typ := .response, id := 7, data := [101] },
            .errorPayload (.serializer [])⟩]⟩, none) := by
      rw [Frontend.enqueue, hframe]
      rfl
    exact congrArg (fun r => Outcome.ok r.1) henqueue
  refine ⟨_, hrun, rfl, rfl, fun h => ?_⟩
  have hflag := h.flagged _ hrun _ List.mem_cons_self _ rfl
  exact Bool.false_ne_true ((flagged_iff ⟨_, hframe⟩).mp hflag)

end Pitaya.Service
