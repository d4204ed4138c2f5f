import Pitaya.Service.Dispatch

/-!
# Answers to the requests of a client

`processMessage` of `service/handler.go` on a frontend: a message goes to a handler of the own
server or, for another server type, to a remote call (`service/remote.go`), and the client is
answered through its agent (`agent/agent.go`).

* `send`, `responseMID`, `answerWithError` — the methods of the agent.
* `localProcess`, `remoteProcess`, `processMessage` — the dispatch.  The task that a session's
  worker is given runs at once.

A remote call and its result are a function.
-/

namespace Pitaya.Service

open Conn

variable {A : Type}

/-- What `send` returns. -/
inductive SendError where
  /-- `ErrBrokenPipe`. -/
  | brokenPipe
  /-- `ErrSessionOnNotify`. -/
  | sessionOnNotify
  | message (e : Message.MessageError)
  | packet (e : CodecError)
  deriving DecidableEq, Repr

/-- A frontend server and the session of a connection.  `remoteCall` is what a call of another
server returns; without a remote service there is none.  `sendError` is an error of `send` as
`GetErrorPayload` is given it.  On a dead agent the `select` of `send` may drop the message
(`dieFirst`). -/
structure Frontend (A : Type) where
  typ : Bytes
  pool : HandlerPool A
  hooks : Hooks A := {}
  development : Bool := false
  zlib : Message.Compression
  dataCompression : Bool := false
  dictionary : Message.Dictionary := Message.Dictionary.empty
  remoteCall : Option (Route → Message → Outcome ServiceError Bytes) := none
  sendError : SendError → ServiceError
  session : ℕ := 1
  uid : Bytes := []
  dieFirst : Bool := false

namespace Frontend

variable (S : Frontend A)

/-! ## The agent -/

def packetEncodeMessage (m : Message) : Except SendError Bytes :=
  match (Message.encode S.zlib S.dataCompression S.dictionary m).1 with
  | .error e => .error (.message e)
  | .ok em =>
    match Packet.encode PacketType.data em with
    | .error e => .error (.packet e)
    | .ok p => .ok p

/-- `send`, for a payload of bytes. -/
def send (a : Agent) (m : Message) : Agent × Option SendError :=
  match S.packetEncodeMessage m with
  | .error e => (a, some e)
  | .ok p => (if a.chDie && S.dieFirst then a else { a with chSend := a.chSend ++ [p] }, none)

/-- `ResponseMID`, for a payload of bytes. -/
def responseMID (a : Agent) (mid : UInt64) (v : Bytes) (isError : Bool) :
    Agent × Option SendError :=
  if a.status = .closed then (a, some .brokenPipe)
  else if mid ≤ 0 then
    if !isError then (a, some .sessionOnNotify)
    else S.send a
      { typ := .push, route := serverInternalErrorToClientRoute, data := v, err := true }
  else S.send a { typ := .response, id := mid, data := v, err := isError }

/-- `AnswerWithError`.  What fails is only logged. -/
def answerWithError (a : Agent) (mid : UInt64) (err : ServiceError) : Agent :=
  match S.pool.errorPayload err with
  | .error _ => a
  | .ok p => (S.responseMID a mid p true).1

/-! ## The dispatch -/

variable (ctx : Context)

/-- `ProcessHandlerMessage` for a message of the client. -/
def handle (r : Route) (msg : Message) : Outcome ServiceError Bytes :=
  S.pool.processHandlerMessage S.development S.hooks ctx r S.session S.uid msg.data msg.typ false

def localProcess (a : Agent) (r : Route) (msg : Message) : Outcome Empty Agent :=
  let mid := if msg.typ = .request then msg.id else 0
  match S.handle ctx r msg with
  | .crash => .crash
  | .error e => .ok (S.answerWithError a mid e)
  | .ok ret => .ok (if msg.typ ≠ .notify then (S.responseMID a mid ret false).1 else a)

/-- `remoteProcess`, with what the call returns. -/
def remoteProcess (a : Agent) (msg : Message) (res : Outcome ServiceError Bytes) :
    Outcome Empty Agent :=
  match res with
  | .crash => .crash
  | .error e =>
    .ok (if msg.typ = .request ∨ msg.typ = .notify then S.answerWithError a msg.id e else a)
  | .ok data =>
    if msg.typ = .request then
      match S.responseMID a msg.id data false with
      | (a, none) => .ok a
      -- the client could not be told, and is told so
      | (a, some e) => .ok (S.answerWithError a msg.id (S.sendError e))
    else .ok a

/-- The route with the own server type in place of none. -/
def resolve (r : Route) : Route := if r.svType = [] then { r with svType := S.typ } else r

def processMessage (a : Agent) (msg : Message) : Outcome Empty Agent :=
  match Route.decode msg.route with
  | .error e => .ok (S.answerWithError a msg.id (.route e))
  | .ok r =>
    let r := S.resolve r
    if r.svType = S.typ then S.localProcess ctx a r msg
    else
      match S.remoteCall with
      | some remoteCall => S.remoteProcess a msg (remoteCall r msg)
      | none => .ok a

/-! ## One answer -/

/-- The agent can send. -/
def Open (a : Agent) : Prop := a.status ≠ .closed ∧ a.chDie = false

/-- One frame was queued, a response with that id. -/
def AnsweredOnce (mid : UInt64) (a a' : Agent) : Prop :=
  ∃ payload err frame,
    S.packetEncodeMessage { typ := .response, id := mid, data := payload, err := err } = .ok frame ∧
      a'.chSend = a.chSend ++ [frame]

/-- What the message is dispatched to and what that returns, if there is anyone to ask. -/
def result (r : Route) (msg : Message) : Option (Outcome ServiceError Bytes) :=
  if (S.resolve r).svType = S.typ then some (S.handle ctx (S.resolve r) msg)
  else S.remoteCall.map fun remoteCall => remoteCall (S.resolve r) msg

/-- The handler or the remote call returns, errors can be serialized, and the replies fit into a
packet. -/
structure Granted (ctx : Context) (msg : Message) : Prop where
  returns : ∀ r out, Route.decode msg.route = .ok r → S.result ctx r msg = some out → out.Returns
  errorPayload : ∀ e, ∃ p, S.pool.errorPayload e = .ok p
  errorFits : ∀ e p, S.pool.errorPayload e = .ok p → ∃ frame,
    S.packetEncodeMessage { typ := .response, id := msg.id, data := p, err := true } = .ok frame
  resultFits : ∀ r ret, Route.decode msg.route = .ok r → S.result ctx r msg = some (.ok ret) →
    ∃ frame, S.packetEncodeMessage { typ := .response, id := msg.id, data := ret } = .ok frame

variable {S} {a : Agent} {mid : UInt64}

section

variable (hopen : Open a) (hmid : mid ≠ 0) {v frame : Bytes} {isError : Bool}
  (hframe : S.packetEncodeMessage { typ := .response, id := mid, data := v, err := isError }
    = .ok frame)
include hopen hmid hframe

theorem responseMID_of_open :
    S.responseMID a mid v isError = ({ a with chSend := a.chSend ++ [frame] }, none) := by
  have hpos : ¬ mid ≤ 0 := fun h => hmid (UInt64.le_zero_iff.mp h)
  rw [responseMID, if_neg hopen.1, if_neg hpos, send, hframe, hopen.2]
  rfl

theorem answeredOnce_of_frame : S.AnsweredOnce mid a (S.responseMID a mid v isError).1 := by
  rw [responseMID_of_open hopen hmid hframe]
  exact ⟨v, isError, frame, hframe, rfl⟩

end

theorem answerWithError_once {ctx : Context} {msg : Message} (hopen : Open a) (hid : msg.id ≠ 0)
    (h : S.Granted ctx msg) (e : ServiceError) :
    S.AnsweredOnce msg.id a (S.answerWithError a msg.id e) := by
  obtain ⟨p, hp⟩ := h.errorPayload e
  obtain ⟨frame, hframe⟩ := h.errorFits e p hp
  rw [answerWithError, hp]
  exact answeredOnce_of_frame hopen hid hframe

theorem localProcess_once {ctx : Context} {msg : Message} {r : Route} (hopen : Open a)
    (hrequest : msg.typ = .request) (hid : msg.id ≠ 0) (h : S.Granted ctx msg)
    (hdecode : Route.decode msg.route = .ok r) (hown : (S.resolve r).svType = S.typ) :
    ∃ a', S.localProcess ctx a (S.resolve r) msg = .ok a' ∧ S.AnsweredOnce msg.id a a' := by
  have hresult : S.result ctx r msg = some (S.handle ctx (S.resolve r) msg) := if_pos hown
  have hreturns := h.returns r _ hdecode hresult
  unfold localProcess
  rw [if_pos hrequest]
  cases hout : S.handle ctx (S.resolve r) msg with
  | crash =>
    rw [hout] at hreturns
    exact absurd hreturns Outcome.not_returns_crash
  | error e => exact ⟨_, rfl, answerWithError_once hopen hid h e⟩
  | ok ret =>
    rw [hout] at hresult
    obtain ⟨frame, hframe⟩ := h.resultFits r ret hdecode hresult
    refine ⟨_, rfl, ?_⟩
    rw [if_pos (by rw [hrequest]; decide)]
    exact answeredOnce_of_frame hopen hid hframe

theorem remoteProcess_once {ctx : Context} {msg : Message} {r : Route}
    {remoteCall : Route → Message → Outcome ServiceError Bytes} (hopen : Open a)
    (hrequest : msg.typ = .request) (hid : msg.id ≠ 0) (h : S.Granted ctx msg)
    (hdecode : Route.decode msg.route = .ok r) (hother : (S.resolve r).svType ≠ S.typ)
    (hcall : S.remoteCall = some remoteCall) :
    ∃ a', S.remoteProcess a msg (remoteCall (S.resolve r) msg) = .ok a' ∧
      S.AnsweredOnce msg.id a a' := by
  have hresult : S.result ctx r msg = some (remoteCall (S.resolve r) msg) := by
    rw [result, if_neg hother, hcall]
    rfl
  have hreturns := h.returns r _ hdecode hresult
  unfold remoteProcess
  cases hout : remoteCall (S.resolve r) msg with
  | crash =>
    rw [hout] at hreturns
    exact absurd hreturns Outcome.not_returns_crash
  | error e =>
    refine ⟨_, rfl, ?_⟩
    rw [if_pos (.inl hrequest)]
    exact answerWithError_once hopen hid h e
  | ok data =>
    rw [hout] at hresult
    obtain ⟨frame, hframe⟩ := h.resultFits r data hdecode hresult
    dsimp only
    rw [if_pos hrequest, responseMID_of_open hopen hid hframe]
    exact ⟨_, rfl, data, false, frame, hframe, rfl⟩

/-- **A request is answered exactly once** if and only if its route is malformed, or names the own
server type, or there is a remote service to ask. -/
theorem answeredOnce_iff (S : Frontend A) (ctx : Context) (a : Agent) (msg : Message)
    (hopen : Open a) (hrequest : msg.typ = .request) (hid : msg.id ≠ 0) (h : S.Granted ctx msg) :
    (∃ a', S.processMessage ctx a msg = .ok a' ∧ S.AnsweredOnce msg.id a a') ↔
      ∀ r, Route.decode msg.route = .ok r →
        (S.resolve r).svType = S.typ ∨ S.remoteCall.isSome = true := by
  unfold processMessage
  cases hdecode : Route.decode msg.route with
  | error => exact iff_of_true ⟨_, rfl, answerWithError_once hopen hid h _⟩ nofun
  | ok r =>
    dsimp only
    by_cases hown : (S.resolve r).svType = S.typ
    · rw [if_pos hown]
      refine iff_of_true (localProcess_once hopen hrequest hid h hdecode hown) ?_
      rintro _ ⟨⟩
      exact .inl hown
    · rw [if_neg hown]
      cases hcall : S.remoteCall with
      | some =>
        exact iff_of_true (remoteProcess_once hopen hrequest hid h hdecode hown hcall)
          fun _ _ => .inr rfl
      | none =>
        refine iff_of_false ?_ fun hserved => ?_
        · rintro ⟨_, ⟨⟩, payload, err, frame, -, hqueue⟩
          exact List.cons_ne_nil _ _ (List.self_eq_append_right.mp hqueue)
        · exact (hserved r rfl).elim hown nofun

end Frontend

/-! ## Two requests -/

/-- A frontend of type "g" without a remote service and without handlers. -/
def gate : Frontend Unit where
  typ := [103]
  pool := { raw := fun _ => (), marshal := fun _ => .ok [], errorPayload := fun _ => .ok [101] }
  zlib := Message.markOnly
  sendError _ := .application []

/-- A request with the id 7. -/
def request (route : Bytes) : Message where
  typ := .request
  id := 7
  route := route

/-- The agent of a client that has acknowledged the handshake. -/
def working : Agent := { status := .working }

theorem decode_own : Route.decode [103, 46, 97, 46, 98] = .ok ⟨[103], [97], [98]⟩ := by
  decide +kernel

theorem decode_other :
    Route.decode (request [99, 46, 97, 46, 98]).route = .ok ⟨[99], [97], [98]⟩ := by
  decide +kernel

theorem gate_granted : gate.Granted {} (request [103, 46, 97, 46, 98]) := by
  have hresult (r : Route) (hdecode : Route.decode [103, 46, 97, 46, 98] = .ok r) :
      gate.result {} r (request [103, 46, 97, 46, 98]) = some (.error .handlerNotFound) := by
    obtain rfl := Except.ok.inj (decode_own.symm.trans hdecode)
    rfl
  constructor
  · intro r out hdecode hout
    obtain rfl := Option.some.inj ((hresult r hdecode).symm.trans hout)
    exact Outcome.returns_error _
  · exact fun _ => ⟨_, rfl⟩
  · rintro _ _ ⟨⟩
    exact ⟨[4, 0, 0, 3, 0x24, 7, 101], by decide +kernel⟩
  · intro r ret hdecode hout
    cases (hresult r hdecode).symm.trans hout

/-- "g.a.b" has no handler, and the client is told once. -/
theorem answeredOnce_iff_not_found : ∃ a',
    gate.processMessage {} working (request [103, 46, 97, 46, 98]) = .ok a' ∧
      gate.AnsweredOnce 7 working a' := by
  refine (Frontend.answeredOnce_iff gate {} working (request [103, 46, 97, 46, 98])
    ⟨nofun, rfl⟩ rfl (by decide) gate_granted).mpr fun r hdecode => ?_
  obtain rfl := Except.ok.inj (decode_own.symm.trans hdecode)
  exact .inl rfl

/-- **A request that is not answered**: "c.a.b" names another server type. -/
theorem unserved_request :
    gate.processMessage {} working (request [99, 46, 97, 46, 98]) = .ok working ∧
      ¬ gate.AnsweredOnce 7 working working := by
  constructor
  · rw [Frontend.processMessage, decode_other]
    rfl
  · rintro ⟨payload, err, frame, -, hqueue⟩
    cases hqueue

end Pitaya.Service
