import Pitaya.Conn.Message
import Pitaya.Foundations.Threads
import Pitaya.Session.Session

/-!
# The goroutines around an agent

The read loop of `service/handler.go`, the goroutines `agentImpl.Handle` starts, and any number
of calls of `Push`, `ResponseMID`, `Kick` and `Close`, statement by statement as far as they share
the agent and the online flag of its session.  The status is an atomic that packet processing
writes without looking at it; `agentImpl.Close` works under `closeMutex`.  The read loop closes
the session, which takes it offline; the other goroutines close the agent directly.

* `Moves` — what a step does: a goroutine outside of `agentImpl.Close` leaves the teardown alone
  (`Outside`), and one inside goes from statement to statement.

Whether a read, a write, an encoding or a close callback fails is left open; a write to a closed
connection does fail.  Packets that were read before the connection was closed may be processed
afterwards.  The tick of a heartbeat may find the client late at any time.  Of the close callbacks
only what that of `Sys` (`remote/sys.go`) writes to the cluster store is followed.
-/

namespace Pitaya.Goroutines

open Conn Transition Threads Option

/-- The channels whose closing stops a goroutine. -/
inductive Channel where
  | chStopWrite
  | chStopHeartbeat
  | chStopKeepCacheAlive
  | chDie
  deriving DecidableEq

/-- What only `agentImpl.Close` changes: the channels closed so far, in order, whether a closed
channel was closed, the reasons for which the close callbacks were run, and the number of calls
that have returned. -/
structure Teardown where
  closed : List Channel := []
  panicked : Bool := false
  onSessionClosed : List CloseReason := []
  returned : ℕ := 0
  deriving DecidableEq

structure PendingMessage where
  typ : MessageType
  route : Bytes := []
  mid : UInt64 := 0
  payload : Bytes
  err : Bool := false
  deriving DecidableEq

/-- What is queued for the write goroutine. -/
inductive PendingWrite where
  | heartbeat
  | heartbeatAck
  | message (m : PendingMessage)
  deriving DecidableEq

/-- What `Push` and `ResponseMID` return. -/
inductive Answer where
  | ok
  /-- `ErrBrokenPipe`. -/
  | brokenPipe
  /-- `ErrSessionOnNotify`. -/
  | sessionOnNotify
  /-- An error of a serializer or an encoder. -/
  | encode
  deriving DecidableEq

/-- The agent.  `sent` is what the write goroutine has written; `hasClosed` records that the
status has been `StatusClosed`, and `answers` what callers were told, each with whether
the status had been closed before the call looked at it.  `online` is the flag of the session,
and `written` what its closing has written to the online field of the cluster store. -/
structure Shared where
  status : AgentStatus := .start
  closeMutex : Bool := false
  teardown : Teardown := {}
  connClosed : Bool := false
  chSend : List PendingWrite := []
  sent : List PendingWrite := []
  hasClosed : Bool := false
  answers : List (Bool × Answer) := []
  online : Bool := true
  written : List Bytes := []
  deriving DecidableEq

/-- A call of `agentImpl.Close`.  After a refused handshake the read loop goes on and closes the
session too. -/
structure Call where
  reason : CloseReason := .normal
  refused : Bool := false
  deriving DecidableEq

/-- Where a goroutine is. -/
inductive Point where
  /-- The loop of `HandlerService.Handle`. -/
  | read
  /-- `processPacket`, with a packet of that type. -/
  | processPacket (typ : PacketType)
  | sendHandshakeResponse
  | sendHandshakeErrorResponse
  /-- `processPacket`, at `SetStatus` of `StatusWorking` or `StatusHandshake`. -/
  | setStatus (acknowledged : Bool)
  /-- `processPacket`, at `message.Decode`. -/
  | decode
  /-- `SendHeartbeatResponse`, at its `select`. -/
  | sendHeartbeatResponse
  /-- The loop of `agentImpl.write`. -/
  | write
  /-- The loop of `agentImpl.heartbeat`. -/
  | heartbeat
  /-- `agentImpl.heartbeat`, at its inner `select`. -/
  | tick
  | keepClusterCacheAlive
  /-- `agentImpl.Handle`, waiting for `chDie`. -/
  | handle
  /-- `sessionImpl.Kick`, before the packet. -/
  | kick (reason : CloseReason)
  /-- `sessionImpl.Kick`, after the packet. -/
  | kicked (reason : CloseReason)
  /-- `sessionImpl.Close`, before the flag is cleared. -/
  | closeSession (reason : CloseReason)
  /-- `agentImpl.Close`, at the lock. -/
  | lock (call : Call)
  /-- `agentImpl.Close`, at `GetStatus`. -/
  | getStatus (call : Call)
  /-- `agentImpl.Close`, at `SetStatus`. -/
  | setClosed (call : Call)
  /-- `agentImpl.Close`, at the `select` on `chDie`. -/
  | select (call : Call)
  /-- `agentImpl.Close`, about to close a channel. -/
  | close (call : Call) (ch : Channel)
  /-- `agentImpl.Close`, at the call of `onSessionClosed`. -/
  | onSessionClosed (call : Call)
  /-- `onSessionClosed`, in the close callbacks. -/
  | callbacks (call : Call)
  /-- `FlushOnline` in the close callback of `Sys`, with the flag it has read. -/
  | hset (call : Call) (flag : Bytes)
  /-- `agentImpl.Close`, at `conn.Close`. -/
  | connClose (call : Call)
  /-- `agentImpl.Close`, about to return. -/
  | unlock (call : Call)
  | push (route v : Bytes)
  | responseMID (mid : UInt64) (v : Bytes) (isError : Bool)
  /-- `send`, with whether the status had been closed before. -/
  | send (late : Bool) (m : PendingMessage)
  /-- `send`, at its `select`. -/
  | enqueue (late : Bool) (m : PendingMessage)
  deriving DecidableEq

/-- How a step goes on. -/
inductive Choice where
  | go
  /-- A read, a write, a check or an encoding fails. -/
  | fail
  /-- The application's code panics. -/
  | panics
  /-- A `select` sees a closed channel. -/
  | stop
  /-- A packet arrives. -/
  | packet (typ : PacketType)
  deriving DecidableEq

/-- The channel closed after this one. -/
def Channel.next : Channel → Option Channel
  | .chStopWrite => some .chStopHeartbeat
  | .chStopHeartbeat => some .chStopKeepCacheAlive
  | .chStopKeepCacheAlive => some .chDie
  | .chDie => none

/-- `close(ch)`. -/
def Teardown.close (t : Teardown) (ch : Channel) : Teardown := { t with closed := t.closed ++ [ch] }

/-- A call of `agentImpl.Close` returns. -/
def Teardown.return (t : Teardown) : Teardown := { t with returned := t.returned + 1 }

variable (s : Shared)

/-- A caller of `Push` or `ResponseMID` is answered. -/
def answer (late : Bool) (a : Answer) : Option (Shared × Option Point) :=
  some ({ s with answers := s.answers ++ [(late, a)] }, none)

/-- `agentImpl.Close` is called by a loop. -/
def closes : Option (Shared × Option Point) := some (s, some (.lock {}))

/-- `sessionImpl.Close` is called when the read loop ends. -/
def closesSession : Option (Shared × Option Point) := some (s, some (.closeSession .normal))

/-- The flag as `FlushOnline` writes it. -/
def flag (online : Bool) : Bytes := ({ online := online } : Session Empty).onlineFlag

/-- `a.chSend <- w`. -/
def put (messagesBufferSize : ℕ) (s : Shared) (w : PendingWrite) : Option Shared :=
  if s.chSend.length < messagesBufferSize then some { s with chSend := s.chSend ++ [w] } else none

def processPacket (typ : PacketType) : Choice → Option (Shared × Option Point)
  | .go =>
    if typ = .handshake then some (s, some .sendHandshakeResponse)
    else if typ = .handshakeAck then some (s, some (.setStatus true))
    else if typ = .data then if s.status < .working then closesSession s else some (s, some .decode)
    else if typ = .heartbeat then some (s, some .sendHeartbeatResponse)
    else some (s, some .read)
  | .fail => if typ = .handshake then some (s, some .sendHandshakeErrorResponse) else none
  | _ => none

/-- One step of a goroutine. -/
def step (messagesBufferSize : ℕ) (s : Shared) : Point → Choice → Option (Shared × Option Point)
  | .read, .packet typ => some (s, some (.processPacket typ))
  | .read, .fail => closesSession s
  | .processPacket typ, choice => processPacket s typ choice
  | .sendHandshakeResponse, .go => if s.connClosed then none else some (s, some (.setStatus false))
  | .sendHandshakeResponse, .fail => closesSession s
  -- the agent is closed after the answer, whether it was written or not, and then the session
  | .sendHandshakeErrorResponse, .go => some (s, some (.lock { refused := true }))
  | .setStatus acknowledged, .go =>
    some ({ s with status := if acknowledged then .working else .handshake }, some .read)
  | .decode, .go => some (s, some .read)
  | .decode, .fail => closesSession s
  | .sendHeartbeatResponse, .go =>
    (put messagesBufferSize s .heartbeatAck).map fun s => (s, some .read)
  | .sendHeartbeatResponse, .stop =>
    if .chDie ∈ s.teardown.closed then some (s, some .read) else none
  | .write, .go =>
    match s.chSend with
    | [] => none
    | w :: rest =>
      if s.connClosed then none
      else some ({ s with chSend := rest, sent := s.sent ++ [w] }, some .write)
  | .write, .fail =>
    match s.chSend with
    | [] => none
    | _ :: rest => closes { s with chSend := rest }
  | .write, .stop => if .chStopWrite ∈ s.teardown.closed then closes s else none
  | .heartbeat, .go => some (s, some .tick)
  | .heartbeat, .fail => closes s
  | .heartbeat, .stop =>
    if .chDie ∈ s.teardown.closed ∨ .chStopHeartbeat ∈ s.teardown.closed then closes s else none
  | .tick, .go => (put messagesBufferSize s .heartbeat).map fun s => (s, some .heartbeat)
  | .tick, .stop =>
    if .chDie ∈ s.teardown.closed ∨ .chStopHeartbeat ∈ s.teardown.closed then closes s else none
  | .keepClusterCacheAlive, .stop =>
    if .chDie ∈ s.teardown.closed ∨ .chStopKeepCacheAlive ∈ s.teardown.closed then some (s, none)
    else none
  | .handle, .stop => if .chDie ∈ s.teardown.closed then closes s else none
  | .kick reason, .go => if s.connClosed then none else some (s, some (.kicked reason))
  | .kick _, .fail => some (s, none)
  | .kicked reason, .go | .closeSession reason, .go =>
    some ({ s with online := false }, some (.lock { reason := reason }))
  | .lock call, .go =>
    if s.closeMutex then none else some ({ s with closeMutex := true }, some (.getStatus call))
  | .getStatus call, .go =>
    some (s, some (if s.status = .closed then .unlock call else .setClosed call))
  | .setClosed call, .go =>
    some ({ s with status := .closed, hasClosed := true }, some (.select call))
  | .select call, .go =>
    some (s, some <|
      if .chDie ∈ s.teardown.closed then .connClose call else .close call .chStopWrite)
  | .close call ch, .go =>
    -- to close a closed channel is a panic; the lock is released by `defer`
    if ch ∈ s.teardown.closed then
      some ({ s with closeMutex := false, teardown := { s.teardown with panicked := true } }, none)
    else
      some ({ s with teardown := s.teardown.close ch },
        some (ch.next.elim (.onSessionClosed call) (.close call)))
  | .onSessionClosed call, .go =>
    some ({ s with teardown := { s.teardown with
      onSessionClosed := s.teardown.onSessionClosed ++ [call.reason] } }, some (.callbacks call))
  | .callbacks call, .go =>
    some (s, some (if call.reason = CloseReason.kickRebind then .connClose call
      else .hset call (flag s.online)))
  -- the session is not bound
  | .callbacks call, .fail => some (s, some (.connClose call))
  | .callbacks call, .panics => some (s, some (.connClose call))
  | .hset call flag, .go => some ({ s with written := s.written ++ [flag] }, some (.connClose call))
  | .connClose call, .go => some ({ s with connClosed := true }, some (.unlock call))
  | .unlock call, .go =>
    some ({ s with closeMutex := false, teardown := s.teardown.return },
      if call.refused then some (.closeSession .normal) else none)
  | .push route v, .go =>
    if s.status = .closed then answer s s.hasClosed .brokenPipe
    else some (s, some (.send s.hasClosed { typ := .push, route := route, payload := v }))
  | .responseMID mid v isError, .go =>
    if s.status = .closed then answer s s.hasClosed .brokenPipe
    else if mid ≤ 0 then
      if isError then
        some (s, some (.send s.hasClosed
          { typ := .push, route := serverInternalErrorToClientRoute, payload := v, err := true }))
      else answer s s.hasClosed .sessionOnNotify
    else
      some (s, some (.send s.hasClosed
        { typ := .response, mid := mid, payload := v, err := isError }))
  | .send late m, .go => some (s, some (.enqueue late m))
  | .send late _, .fail => answer s late .encode
  | .send late _, .panics => answer s late .brokenPipe
  | .enqueue late m, .go => (put messagesBufferSize s (.message m)).bind fun s => answer s late .ok
  | .enqueue late _, .stop => if .chDie ∈ s.teardown.closed then answer s late .ok else none
  | _, _ => none

/-- The goroutines of a connection, with `Push`, `ResponseMID`, `Kick` and `Close` called any
number of times. -/
def goroutines (messagesBufferSize : ℕ) : Program Shared Point Choice where
  start := {}
  main := {.read, .write, .heartbeat, .keepClusterCacheAlive, .handle}
  entry
    | .kick _ | .closeSession _ | .push _ _ | .responseMID _ _ _ => true
    | .lock call => !call.refused
    | _ => false
  step := step messagesBufferSize

/-! ## Points -/

namespace Point

/-- The call of `agentImpl.Close` the goroutine is in. -/
def call : Point → Option Call
  | .lock call | .getStatus call | .setClosed call | .select call | .close call _
  | .onSessionClosed call | .callbacks call | .hset call _ | .connClose call | .unlock call =>
    some call
  | _ => none

/-- The goroutine holds `closeMutex`. -/
def inside : Point → Bool
  | .lock _ => false
  | p => p.call.isSome

/-- The goroutine is in a call of `Push` or `ResponseMID` that has found the status open although
it had been closed. -/
def late : Point → Bool
  | .send late _ | .enqueue late _ => late
  | _ => false

/-- The goroutine is at the `SetStatus` of packet processing. -/
def setsStatus : Point → Bool
  | .setStatus _ => true
  | _ => false

/-- The goroutine is about to clear the flag, in a `Kick` or `Close` for this reason. -/
def takesOffline : Point → Option CloseReason
  | .kicked reason | .closeSession reason => some reason
  | _ => none

/-- The goroutine will see to it that the agent is torn down. -/
def ending : Point → Bool
  | .read | .processPacket _ | .sendHandshakeResponse | .sendHandshakeErrorResponse | .setStatus _
  | .decode | .sendHeartbeatResponse | .closeSession _ => true
  | p => p.call.isSome

/-- The goroutine is not in `agentImpl.Close`, and its next step leaves the status and the flag
alone. -/
def plain (p : Point) : Bool := p.call.isNone && !p.setsStatus && p.takesOffline.isNone

theorem plain_iff {p : Point} :
    p.plain = true ↔ p.call = none ∧ p.setsStatus = false ∧ p.takesOffline = none := by
  simp [plain, and_assoc]

end Point

/-- The goroutine turns to close the agent of a session that it has not taken offline. -/
def direct : Point → Choice → Bool
  | .sendHandshakeErrorResponse, _ | .write, .fail | .heartbeat, .fail => true
  | _, _ => false

/-! ## What a step does -/

/-- A caller was told that the agent is open although it had been closed. -/
def Overlooks (p : Point) : Prop :=
  p.late = true ∨ s.hasClosed = true ∧ s.status ≠ .closed

/-- Nothing changes that belongs to closing the agent and the session. -/
structure Frame (s s' : Shared) : Prop where
  closeMutex : s'.closeMutex = s.closeMutex
  teardown : s'.teardown = s.teardown
  hasClosed : s'.hasClosed = s.hasClosed
  online : s'.online = s.online
  written : s'.written = s.written

/-- A goroutine outside of `agentImpl.Close` takes a step and leaves the flag alone. -/
structure Outside (s : Shared) (choice : Choice) (p : Point) (s' : Shared) (p' : Option Point) :
    Prop extends Frame s s' where
  call : p.call = none
  next : ∀ q, p' = some q → q.inside = false
  status : p.setsStatus = false → s'.status = s.status
  sets : p.setsStatus = true → s'.status ≠ .closed
  late : ∀ q, p' = some q → q.late = true → Overlooks s p
  answers : ∀ a ∈ s'.answers, a ∈ s.answers ∨ (a.1 = true → a.2 = .brokenPipe ∨ Overlooks s p)
  stays : p.takesOffline = none
  enters : ∀ q, p' = some q → q.call.isSome = true →
    s.teardown.closed ≠ [] ∨ direct p choice = true
  ends : p.ending = true → ∃ q, p' = some q ∧ q.ending = true

/-- What a step does. -/
inductive Moves (s : Shared) (choice : Choice) : Point → Shared → Option Point → Prop
  | outside {p s' p'} (h : Outside s choice p s' p') : Moves s choice p s' p'
  | offline {p reason} (call : p.call = none) (status : p.setsStatus = false)
      (takes : p.takesOffline = some reason) :
      Moves s choice p { s with online := false } (some (.lock { reason := reason }))
  | acquire {call} (free : s.closeMutex = false) :
      Moves s choice (.lock call) { s with closeMutex := true } (some (.getStatus call))
  | closed {call} (hstatus : s.status = .closed) :
      Moves s choice (.getStatus call) s (some (.unlock call))
  | unclosed {call} : Moves s choice (.getStatus call) s (some (.setClosed call))
  | mark {call} :
      Moves s choice (.setClosed call) { s with status := .closed, hasClosed := true }
        (some (.select call))
  | died {call} (hdie : .chDie ∈ s.teardown.closed) :
      Moves s choice (.select call) s (some (.connClose call))
  | first {call} (hdie : .chDie ∉ s.teardown.closed) :
      Moves s choice (.select call) s (some (.close call .chStopWrite))
  | panics {call ch} (hclosed : ch ∈ s.teardown.closed) :
      Moves s choice (.close call ch)
        { s with closeMutex := false, teardown := { s.teardown with panicked := true } } none
  | close {call ch} (hopen : ch ∉ s.teardown.closed) :
      Moves s choice (.close call ch) { s with teardown := s.teardown.close ch }
        (some (ch.next.elim (.onSessionClosed call) (.close call)))
  | invoke {call} :
      Moves s choice (.onSessionClosed call) { s with teardown := { s.teardown with
        onSessionClosed := s.teardown.onSessionClosed ++ [call.reason] } } (some (.callbacks call))
  | callbacks {call : Call} (quiet : choice = .go → call.reason = CloseReason.kickRebind) :
      Moves s choice (.callbacks call) s (some (.connClose call))
  | flush {call : Call} (hgo : choice = .go) (hreason : call.reason ≠ CloseReason.kickRebind) :
      Moves s choice (.callbacks call) s (some (.hset call (flag s.online)))
  | hset {call flag} :
      Moves s choice (.hset call flag) { s with written := s.written ++ [flag] }
        (some (.connClose call))
  | connClose {call} :
      Moves s choice (.connClose call) { s with connClosed := true } (some (.unlock call))
  | release {call p'} (next : p' = none ∨ p' = some (.closeSession .normal)) :
      Moves s choice (.unlock call) { s with closeMutex := false, teardown := s.teardown.return } p'

variable {s s' : Shared} {choice : Choice} {p q : Point} {p' : Option Point}

theorem Point.inside_of_call (h : p.call = none) : p.inside = false := by
  cases p <;> first | rfl | cases h

namespace Outside

theorem goes (chSend sent : List PendingWrite) (plain : p.plain = true) (next : q.inside = false)
    (late : q.late = true → Overlooks s p)
    (enters : q.call.isSome = true → s.teardown.closed ≠ [] ∨ direct p choice = true)
    (ends : p.ending = true → q.ending = true) :
    Outside s choice p { s with chSend := chSend, sent := sent } (some q) where
  toFrame := ⟨rfl, rfl, rfl, rfl, rfl⟩
  call := (Point.plain_iff.mp plain).1
  next := by
    rintro _ ⟨⟩
    exact next
  status _ := rfl
  sets h := by cases (Point.plain_iff.mp plain).2.1.symm.trans h
  late := by
    rintro _ ⟨⟩
    exact late
  answers _ ha := .inl ha
  stays := (Point.plain_iff.mp plain).2.2
  enters := by
    rintro _ ⟨⟩
    exact enters
  ends h := ⟨q, rfl, ends h⟩

theorem finishes (plain : p.plain = true) (ending : p.ending = false)
    {answers : List (Bool × Answer)}
    (tells : ∀ a ∈ answers, a ∈ s.answers ∨ (a.1 = true → a.2 = .brokenPipe ∨ Overlooks s p))
    (chSend : List PendingWrite) :
    Outside s choice p { s with chSend := chSend, answers := answers } none where
  toFrame := ⟨rfl, rfl, rfl, rfl, rfl⟩
  call := (Point.plain_iff.mp plain).1
  next := nofun
  status _ := rfl
  sets h := by cases (Point.plain_iff.mp plain).2.1.symm.trans h
  late := nofun
  answers := tells
  stays := (Point.plain_iff.mp plain).2.2
  enters := nofun
  ends h := by cases ending.symm.trans h

theorem answered (plain : p.plain = true) (ending : p.ending = false) {late : Bool} {a : Answer}
    (tells : late = true → a = .brokenPipe ∨ Overlooks s p) (chSend : List PendingWrite) :
    Outside s choice p { s with chSend := chSend, answers := s.answers ++ [(late, a)] } none := by
  refine finishes plain ending (fun b hb => ?_) chSend
  refine (List.mem_append.mp hb).imp_right fun hb => ?_
  obtain rfl := List.mem_singleton.mp hb
  exact tells

theorem setStatus (acknowledged : Bool) :
    Outside s choice (.setStatus acknowledged)
      { s with status := if acknowledged then .working else .handshake } (some .read) where
  toFrame := ⟨rfl, rfl, rfl, rfl, rfl⟩
  call := rfl
  next := by
    rintro _ ⟨⟩
    rfl
  status h := by cases h
  sets _ := by cases acknowledged <;> exact nofun
  late := by
    rintro _ ⟨⟩ h
    cases h
  answers _ ha := .inl ha
  stays := rfl
  enters := by
    rintro _ ⟨⟩ h
    cases h
  ends _ := ⟨.read, rfl, rfl⟩

end Outside

section

variable {messagesBufferSize : ℕ}

theorem put_eq {w : PendingWrite} (h : put messagesBufferSize s w = some s') :
    s' = { s with chSend := s.chSend ++ [w] } :=
  (some.inj (ite_none_right_eq_some.mp h).2).symm

/-- The loops go on, and at most the queue changes. -/
theorem Moves.queues (chSend sent : List PendingWrite) (hp : p.plain = true) (hq : q.call = none)
    (hlate : q.late = false) (hends : p.ending = q.ending) :
    Moves s choice p { s with chSend := chSend, sent := sent } (some q) := by
  refine .outside (.goes chSend sent hp (Point.inside_of_call hq) (fun h => ?_) (fun h => ?_)
    fun h => hends ▸ h)
  · cases hlate.symm.trans h
  · rw [hq] at h
    cases h

theorem Moves.goes (hp : p.plain = true) (hq : q.call = none) (hlate : q.late = false)
    (hends : p.ending = q.ending) : Moves s choice p s (some q) :=
  .queues s.chSend s.sent hp hq hlate hends

/-- A goroutine turns to close the agent. -/
theorem Moves.locks (chSend : List PendingWrite) (hp : p.plain = true) {call : Call}
    (enters : s.teardown.closed ≠ [] ∨ direct p choice = true) :
    Moves s choice p { s with chSend := chSend } (some (.lock call)) :=
  .outside (.goes chSend s.sent hp rfl nofun (fun _ => enters) fun _ => rfl)

theorem processPacket_moves {typ : PacketType} (h : processPacket s typ choice = some (s', p')) :
    Moves s choice (.processPacket typ) s' p' := by
  unfold processPacket closesSession at h
  split at h
  · repeat' split at h
    all_goals
      cases h
      exact .goes rfl rfl rfl rfl
  · obtain ⟨-, ⟨⟩⟩ := ite_none_right_eq_some.mp h
    exact .goes rfl rfl rfl rfl
  · cases h

/-- **What a step does.** -/
theorem step_moves (h : step messagesBufferSize s p choice = some (s', p')) :
    Moves s choice p s' p' := by
  cases p with
  | read | decode =>
    cases choice <;> cases h
    · exact .goes rfl rfl rfl rfl
    · exact .goes rfl rfl rfl rfl
  | processPacket => exact processPacket_moves h
  | sendHandshakeResponse =>
    cases choice <;> try cases h
    · obtain ⟨-, ⟨⟩⟩ := ite_none_left_eq_some.mp h
      exact .goes rfl rfl rfl rfl
    · exact .goes rfl rfl rfl rfl
  | sendHandshakeErrorResponse =>
    cases choice <;> cases h
    exact .locks s.chSend rfl (.inr rfl)
  | setStatus acknowledged =>
    cases choice <;> cases h
    exact .outside (.setStatus acknowledged)
  | sendHeartbeatResponse =>
    cases choice <;> try cases h
    · obtain ⟨s₁, hput, ⟨⟩⟩ := map_eq_some_iff.mp h
      obtain rfl := put_eq hput
      exact .queues _ _ rfl rfl rfl rfl
    · obtain ⟨-, ⟨⟩⟩ := ite_none_right_eq_some.mp h
      exact .goes rfl rfl rfl rfl
  | write =>
    cases choice <;> try cases h
    · dsimp only [step] at h
      split at h
      · cases h
      obtain ⟨-, ⟨⟩⟩ := ite_none_left_eq_some.mp h
      exact .queues _ _ rfl rfl rfl rfl
    · dsimp only [step] at h
      split at h <;> cases h
      exact .locks _ rfl (.inr rfl)
    · obtain ⟨hstop, ⟨⟩⟩ := ite_none_right_eq_some.mp h
      exact .locks s.chSend rfl (.inl (List.ne_nil_of_mem hstop))
  | heartbeat =>
    cases choice <;> try cases h
    · exact .goes rfl rfl rfl rfl
    · exact .locks s.chSend rfl (.inr rfl)
    · obtain ⟨hstop, ⟨⟩⟩ := ite_none_right_eq_some.mp h
      exact .locks s.chSend rfl (.inl (hstop.elim List.ne_nil_of_mem List.ne_nil_of_mem))
  | tick =>
    cases choice <;> try cases h
    · obtain ⟨s₁, hput, ⟨⟩⟩ := map_eq_some_iff.mp h
      obtain rfl := put_eq hput
      exact .queues _ _ rfl rfl rfl rfl
    · obtain ⟨hstop, ⟨⟩⟩ := ite_none_right_eq_some.mp h
      exact .locks s.chSend rfl (.inl (hstop.elim List.ne_nil_of_mem List.ne_nil_of_mem))
  | keepClusterCacheAlive =>
    cases choice <;> try cases h
    obtain ⟨-, ⟨⟩⟩ := ite_none_right_eq_some.mp h
    exact .outside (.finishes rfl rfl (fun _ => .inl) s.chSend)
  | handle =>
    cases choice <;> try cases h
    obtain ⟨hstop, ⟨⟩⟩ := ite_none_right_eq_some.mp h
    exact .locks s.chSend rfl (.inl (List.ne_nil_of_mem hstop))
  | kick =>
    cases choice <;> try cases h
    · obtain ⟨-, ⟨⟩⟩ := ite_none_left_eq_some.mp h
      exact .goes rfl rfl rfl rfl
    · exact .outside (.finishes rfl rfl (fun _ => .inl) s.chSend)
  | kicked | closeSession =>
    cases choice <;> cases h
    exact .offline rfl rfl rfl
  | lock =>
    cases choice <;> try cases h
    obtain ⟨hfree, ⟨⟩⟩ := ite_none_left_eq_some.mp h
    exact .acquire (Bool.not_eq_true _ ▸ hfree)
  | getStatus =>
    cases choice <;> cases h
    split
    · next hstatus => exact .closed hstatus
    · exact .unclosed
  | setClosed =>
    cases choice <;> cases h
    exact .mark
  | select =>
    cases choice <;> cases h
    split
    · next hdie => exact .died hdie
    · next hdie => exact .first hdie
  | close =>
    cases choice <;> try cases h
    dsimp only [step] at h
    split at h <;> cases h
    · next hclosed => exact .panics hclosed
    · next hopen => exact .close hopen
  | onSessionClosed =>
    cases choice <;> cases h
    exact .invoke
  | callbacks =>
    cases choice <;> cases h
    · split
      · next hreason => exact .callbacks fun _ => hreason
      · next hreason => exact .flush rfl hreason
    · exact .callbacks nofun
    · exact .callbacks nofun
  | hset =>
    cases choice <;> cases h
    exact .hset
  | connClose =>
    cases choice <;> cases h
    exact .connClose
  | unlock =>
    cases choice <;> cases h
    refine .release ?_
    split
    · exact .inr rfl
    · exact .inl rfl
  | push =>
    cases choice <;> try cases h
    dsimp only [step, answer] at h
    split at h <;> cases h
    · exact .outside (.answered rfl rfl (fun _ => .inl rfl) _)
    · next hstatus =>
      exact .outside (.goes s.chSend s.sent rfl rfl
        (fun hlate => .inr ⟨hlate, hstatus⟩) nofun nofun)
  | responseMID mid v isError =>
    cases choice <;> try cases h
    dsimp only [step, answer] at h
    split at h
    · cases h
      exact .outside (.answered rfl rfl (fun _ => .inl rfl) _)
    next hstatus =>
    have hsend (m : PendingMessage) :
        Moves s .go (.responseMID mid v isError) s (some (.send s.hasClosed m)) :=
      .outside (.goes s.chSend s.sent rfl rfl (fun hlate => .inr ⟨hlate, hstatus⟩) nofun nofun)
    repeat' split at h
    all_goals cases h
    · exact hsend _
    · exact .outside (.answered rfl rfl (fun hlate => .inr (.inr ⟨hlate, hstatus⟩)) _)
    · exact hsend _
  | send late m =>
    cases choice <;> cases h
    · exact .outside (.goes s.chSend s.sent rfl rfl .inl nofun nofun)
    · exact .outside (.answered rfl rfl (fun hlate => .inr (.inl hlate)) _)
    · exact .outside (.answered rfl rfl (fun _ => .inl rfl) _)
  | enqueue =>
    cases choice <;> try cases h
    · obtain ⟨s₁, hput, ⟨⟩⟩ := bind_eq_some_iff.mp h
      cases put_eq hput
      exact .outside (.answered rfl rfl (fun hlate => .inr (.inl hlate)) _)
    · obtain ⟨-, ⟨⟩⟩ := ite_none_right_eq_some.mp h
      exact .outside (.answered rfl rfl (fun hlate => .inr (.inl hlate)) _)

end

end Pitaya.Goroutines
