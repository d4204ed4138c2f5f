import Pitaya.Conn.Packet

/-!
# Frontend agents

`agent/agent.go`: the network end of a frontend session.  The agent keeps the
status of the connection, the channel `chDie` whose closing marks the teardown,
and the queue `chSend` of the write goroutine.

* `AgentStatus` — the agent statuses of `constants/const.go`, compared as the numbers
  they are.
* `close` — `agentImpl.Close`.  The status guard and the `chDie` guard are two
  different guards: `SetStatus` may overwrite `StatusClosed`, closing `chDie` is
  final.

What the connection answers to a write or a close is an argument.
-/

namespace Pitaya

open Conn

/-! ## Statuses and close reasons -/

/-- The agent statuses of `constants`. -/
inductive AgentStatus where
  /-- `StatusStart`. -/
  | start
  /-- `StatusHandshake`. -/
  | handshake
  /-- `StatusWorking`. -/
  | working
  /-- `StatusClosed`. -/
  | closed
  deriving DecidableEq, Repr

/-- The number behind a status (`iota`, the first skipped). -/
def AgentStatus.code : AgentStatus → ℕ
  | start => 1
  | handshake => 2
  | working => 3
  | closed => 4

instance : LT AgentStatus := ⟨fun s t => s.code < t.code⟩

instance (s t : AgentStatus) : Decidable (s < t) := inferInstanceAs (Decidable (s.code < t.code))

/-- `session.CloseReason`. -/
abbrev CloseReason : Type := ℕ

namespace CloseReason

/-- `CloseReasonNormal`. -/
def normal : CloseReason := 0
/-- `CloseReasonKickRebind`. -/
def kickRebind : CloseReason := 101
/-- `CloseReasonKickManual`. -/
def kickManual : CloseReason := 102

end CloseReason

/-- `ServerInternalErrorToClientRoute`, "internal.error". -/
def serverInternalErrorToClientRoute : Bytes :=
  [105, 110, 116, 101, 114, 110, 97, 108, 46, 101, 114, 114, 111, 114]

/-! ## The agent -/

/-- `agentImpl`.  `sent` is what was written to the connection directly, `chSend`
the queue of the write goroutine, and `onSessionClosed` the reasons with which
the close callbacks have been run, oldest first. -/
structure Agent where
  status : AgentStatus := .start
  chDie : Bool := false
  connClosed : Bool := false
  lastAt : ℕ := 0
  sent : List Bytes := []
  chSend : List Bytes := []
  onSessionClosed : List CloseReason := []
  deriving DecidableEq, Repr

/-- Errors of `agentImpl.Close` and `agentImpl.Kick`. -/
inductive AgentError where
  /-- `ErrCloseClosedSession`, "close closed session". -/
  | closeClosedSession
  /-- An error of the connection, passed through. -/
  | conn (text : Bytes)
  /-- An error of the packet encoder, passed through. -/
  | codec (e : CodecError)
  deriving DecidableEq, Repr

namespace Agent

variable (a : Agent)

def setStatus (s : AgentStatus) : Agent := { a with status := s }

def setLastAt (now : ℕ) : Agent := { a with lastAt := now }

/-- The `select` on `chDie` in `agentImpl.Close`: the teardown, once. -/
def teardown (a : Agent) (reason : CloseReason) : Agent :=
  if a.chDie then a
  else { a with chDie := true, onSessionClosed := a.onSessionClosed ++ [reason] }

variable (reason : CloseReason)

/-- `agentImpl.Close`, where closing the connection answers `connErr`. -/
def close (connErr : Option Bytes) :
    Agent × Option AgentError :=
  if a.status = .closed then (a, some .closeClosedSession)
  else
    ({ (a.setStatus .closed).teardown reason with connClosed := true },
      connErr.map .conn)

/-- `connWriteWithDeadline`, where the connection answers `writeErr`. -/
def connWriteWithDeadline (a : Agent) (data : Bytes) (writeErr : Option Bytes) :
    Agent × Option Bytes :=
  match writeErr with
  | some e => (a, some e)
  | none => ({ a with sent := a.sent ++ [data] }, none)

/-- The four bytes of `PutUint32`. -/
def putUint32 (n : ℕ) : Bytes :=
  [UInt8.ofNat (n >>> 24), UInt8.ofNat (n >>> 16), UInt8.ofNat (n >>> 8), UInt8.ofNat n]

/-- `agentImpl.Kick`: a kick packet with the reason, written past the queue. -/
def kick (a : Agent) (reason : CloseReason) (writeErr : Option Bytes) :
    Agent × Option AgentError :=
  match Packet.encode PacketType.kick (putUint32 reason) with
  | .error e => (a, some (.codec e))
  | .ok frame =>
    let (a, err) := a.connWriteWithDeadline frame writeErr
    (a, err.map .conn)

/-- The prepared packets `hrd`, `herd` and `hbAck`. -/
structure Prepared where
  hrd : Bytes
  herd : Bytes
  hbAck : Bytes
  deriving DecidableEq, Repr

variable (data : Prepared) (writeErr : Option Bytes)

def sendHandshakeResponse :
    Agent × Option Bytes :=
  a.connWriteWithDeadline data.hrd writeErr

def sendHandshakeErrorResponse :
    Agent × Option Bytes :=
  a.connWriteWithDeadline data.herd writeErr

/-- `SendHeartbeatResponse`: echo a positive time stamp, and otherwise send the
prepared answer.  When `chDie` is closed the `select` may drop the write
(`dieFirst`).  The result is always nil. -/
def sendHeartbeatResponse (unixMillTime : Int64) (dieFirst : Bool) : Agent :=
  let hbAckData :=
    if unixMillTime > 0 then
      match Packet.encode PacketType.heartbeatAck
          (BigEndian.putUint64 unixMillTime.toUInt64) with
      | .error _ => data.hbAck
      | .ok frame => frame
    else data.hbAck
  if a.chDie && dieFirst then a else { a with chSend := a.chSend ++ [hbAckData] }

/-! ## What the operations touch -/

@[simp] theorem teardown_status : (a.teardown reason).status = a.status := by
  unfold teardown
  split <;> rfl

@[simp] theorem close_status (connErr : Option Bytes) :
    (a.close reason connErr).1.status = .closed := by
  unfold close
  split
  · assumption
  · exact teardown_status _ _

@[simp] theorem kick_status : (a.kick reason writeErr).1.status = a.status := by
  unfold kick connWriteWithDeadline
  split
  · rfl
  · cases writeErr <;> rfl

@[simp] theorem sendHeartbeatResponse_status (unixMillTime : Int64) (dieFirst : Bool) :
    (a.sendHeartbeatResponse data unixMillTime dieFirst).status = a.status := by
  unfold sendHeartbeatResponse
  dsimp only
  split <;> rfl

end Agent

end Pitaya
