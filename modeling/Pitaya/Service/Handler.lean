import Pitaya.Agent
import Pitaya.Conn.Message
import Pitaya.Foundations.Transition

/-!
# The read loop of a connection

`service/handler.go`: `HandlerService.Handle` reads packets from one connection
and passes each of them to `processPacket`, until reading or processing fails.

* `processPacket` — the switch over the packet type, one definition per branch.
  The result is an `Outcome`: nil, an error, or the crash of an access outside
  the payload.
* `connection` — the read loop as a transition system.  Its events are the
  packets, in the order they arrive, and calls of `agentImpl.Close` by the other
  goroutines of the connection (heartbeat timeout, write error, kick).  The first
  error ends the loop.

JSON decoding of the handshake data and the registered validators are fields of
`HandlerService`; what the connection answers to a write is part of the event.
-/

namespace Pitaya.Service

open Conn Transition Outcome List Option

universe u

/-- What `processPacket` reads besides the packet and the agent.
`handshakeValidators` lists the map in the order the `range` loop visits it: a
name and a function that returns nil or an error text. -/
structure HandlerService (H : Type u) where
  unmarshal : Bytes → Except Bytes H
  handshakeValidators : List (Bytes × (H → Option Bytes))
  zlib : Message.Compression
  dictionary : Message.Dictionary
  prepared : Agent.Prepared
  sessionID : ℤ
  remoteAddr : Bytes

/-- "failed to run '%s' validator: %w. SessionId=%d". -/
structure ValidationError where
  validator : Bytes
  text : Bytes
  sessionID : ℤ
  deriving DecidableEq, Repr

/-- The errors `processPacket` returns. -/
inductive ProcessError where
  /-- The error of `json.Unmarshal`, when the client could not be told. -/
  | unmarshal (text : Bytes)
  /-- "invalid handshake data. Id=%d". -/
  | invalidHandshakeData (sessionID : ℤ)
  /-- The error of `ValidateHandshake`, when the client could not be told. -/
  | validation (e : ValidationError)
  /-- "handshake validation failed: %w. SessionId=%d". -/
  | handshakeValidationFailed (e : ValidationError) (sessionID : ℤ)
  /-- An error of the connection, passed through. -/
  | write (text : Bytes)
  /-- "receive data on socket which is not yet ACK, session will be closed
  immediately, remote=%s". -/
  | notYetACK (remote : Bytes)
  /-- An error of `message.Decode`, passed through. -/
  | decode (e : Message.MessageError)
  deriving DecidableEq, Repr

/-- What the surroundings answer while one packet is processed: the error of a
write to the connection, the clock, the choice of the `select` on a dead agent,
and the error of closing the connection. -/
structure PacketEnv where
  writeErr : Option Bytes := none
  now : ℕ := 0
  dieFirst : Bool := false
  connErr : Option Bytes := none
  deriving DecidableEq, Repr

/-- A connection: the agent, the handshake data of its session, the messages
handed to `processMessage` so far, and whether the read loop is running. -/
structure Connection (H : Type u) where
  agent : Agent := {}
  handshakeData : Option H := none
  handled : List Message := []
  reading : Bool := true

namespace HandlerService

variable {H : Type u} (S : HandlerService H)

/-! ## `processPacket` -/

/-- `ValidateHandshake`: the first validator that objects. -/
def validateHandshake (data : H) :
    List (Bytes × (H → Option Bytes)) → Option ValidationError
  | [] => none
  | (name, f) :: validators =>
    match f data with
    | some text => some ⟨name, text, S.sessionID⟩
    | none => validateHandshake data validators

variable (env : PacketEnv) (c : Connection H)

/-- A refused handshake: tell the client, close the agent, and return one of two
errors. -/
def refuseHandshake (unsent sent : ProcessError) :
    Connection H × Outcome ProcessError Unit :=
  let (agent, serr) := c.agent.sendHandshakeErrorResponse S.prepared env.writeErr
  let agent := (agent.close CloseReason.normal env.connErr).1
  ({ c with agent := agent }, .error (if serr.isSome then unsent else sent))

/-- The end of `processPacket`: `SetLastAt`, return nil. -/
def processed : Connection H × Outcome ProcessError Unit :=
  ({ c with agent := c.agent.setLastAt env.now }, .ok ())

variable (data : Bytes)

/-- `case packet.Handshake`. -/
def processHandshake :
    Connection H × Outcome ProcessError Unit :=
  match S.unmarshal data with
  | .error e => S.refuseHandshake env c (.unmarshal e) (.invalidHandshakeData S.sessionID)
  | .ok handshakeData =>
    match S.validateHandshake handshakeData S.handshakeValidators with
    | some e =>
      S.refuseHandshake env c (.validation e) (.handshakeValidationFailed e S.sessionID)
    | none =>
      match c.agent.sendHandshakeResponse S.prepared env.writeErr with
      | (agent, some e) => ({ c with agent := agent }, .error (.write e))
      | (agent, none) =>
        processed env
          { c with
            agent := agent.setStatus .handshake
            handshakeData := some handshakeData }

/-- `case packet.Data`. -/
def processData :
    Connection H × Outcome ProcessError Unit :=
  if c.agent.status < .working then (c, .error (.notYetACK S.remoteAddr))
  else
    match Message.decode S.zlib S.dictionary data with
    | .crash => (c, .crash)
    | .error e => (c, .error (.decode e))
    | .ok msg => processed env { c with handled := c.handled ++ [msg] }

/-- The time stamp of a heartbeat payload: absent in an empty payload. -/
def rawUnixMillTime : Outcome ProcessError Int64 :=
  if data.length > 0 then
    BigEndian.uint64 data >>= fun raw => pure raw.toInt64
  else pure 0

/-- `case packet.Heartbeat`. -/
def processHeartbeat :
    Connection H × Outcome ProcessError Unit :=
  match rawUnixMillTime data with
  | .crash => (c, .crash)
  | .error e => (c, .error e)
  | .ok raw =>
    processed env
      { c with agent := c.agent.sendHeartbeatResponse S.prepared raw env.dieFirst }

/-- `case packet.HeartbeatAck`.  The time stamp is only used for a log line. -/
def processHeartbeatAck :
    Connection H × Outcome ProcessError Unit :=
  match rawUnixMillTime data with
  | .crash => (c, .crash)
  | .error e => (c, .error e)
  | .ok _ => processed env c

/-- `HandlerService.processPacket`.  Other types only touch the time of the last
packet. -/
def processPacket (env : PacketEnv) (c : Connection H) (p : Packet) :
    Connection H × Outcome ProcessError Unit :=
  if p.typ = PacketType.handshake then S.processHandshake env c p.data
  else if p.typ = PacketType.handshakeAck then
    processed env { c with agent := c.agent.setStatus .working }
  else if p.typ = PacketType.data then S.processData env c p.data
  else if p.typ = PacketType.heartbeat then S.processHeartbeat env c p.data
  else if p.typ = PacketType.heartbeatAck then processHeartbeatAck env c p.data
  else processed env c

/-! ## The read loop -/

/-- What can happen to a connection. -/
inductive Event where
  /-- The read loop processes a packet. -/
  | packet (env : PacketEnv) (p : Packet)
  /-- Another goroutine closes the agent. -/
  | close (reason : CloseReason) (connErr : Option Bytes)
  deriving DecidableEq, Repr

/-- One event.  Without a running read loop no packet is processed. -/
def step : Event → Option (Connection H)
  | .packet env p =>
    if c.reading then
      match S.processPacket env c p with
      | (c, .ok ()) => some c
      | (c, _) => some { c with reading := false }
    else none
  | .close reason connErr => some { c with agent := (c.agent.close reason connErr).1 }

/-- The connection, from the moment `Handle` has created the agent. -/
def connection : System (Connection H) Event where
  start := {}
  step := S.step

/-! ## Which packets crash the server -/

theorem rawUnixMillTime_returns_iff :
    (rawUnixMillTime data).Returns ↔ ¬ (0 < data.length ∧ data.length < 8) := by
  unfold rawUnixMillTime
  split
  · next hsome =>
    rw [returns_map_iff, BigEndian.uint64_returns_iff]
    omega
  · next hempty => simpa using fun h => absurd h hempty

theorem processData_returns : (S.processData env c data).2.Returns := by
  have hdecode := Message.decode_returns S.zlib S.dictionary data
  unfold processData
  split
  · exact returns_error _
  · cases h : Message.decode S.zlib S.dictionary data with
    | crash =>
      rw [h] at hdecode
      exact absurd hdecode not_returns_crash
    | error => exact returns_error _
    | ok => exact returns_ok _

theorem processHandshake_returns : (S.processHandshake env c data).2.Returns := by
  unfold processHandshake
  split
  · exact returns_error _
  · split
    · exact returns_error _
    · split
      · exact returns_error _
      · exact returns_ok _

theorem processHeartbeat_returns_iff :
    (S.processHeartbeat env c data).2.Returns ↔ (rawUnixMillTime data).Returns := by
  unfold processHeartbeat
  cases rawUnixMillTime data <;> exact Iff.rfl

theorem processHeartbeatAck_returns_iff :
    (processHeartbeatAck env c data).2.Returns ↔ (rawUnixMillTime data).Returns := by
  unfold processHeartbeatAck
  cases rawUnixMillTime data <;> exact Iff.rfl

/-- The two packet types that carry a time stamp. -/
def IsHeartbeat (typ : PacketType) : Prop :=
  typ = PacketType.heartbeat ∨ typ = PacketType.heartbeatAck

/-- **Exactly the heartbeats with a cut time stamp crash packet processing**, in
every state of the connection. -/
theorem processPacket_returns_iff (env : PacketEnv) (c : Connection H) (p : Packet) :
    (S.processPacket env c p).2.Returns ↔
      ¬ (IsHeartbeat p.typ ∧ 0 < p.data.length ∧ p.data.length < 8) := by
  unfold processPacket IsHeartbeat
  split
  · next h =>
    simp only [h, S.processHandshake_returns, true_iff]
    rintro ⟨h | h, -⟩ <;> exact absurd h (by decide)
  split
  · next h =>
    refine iff_of_true (Outcome.returns_ok _) ?_
    rw [h]
    rintro ⟨h | h, -⟩ <;> exact absurd h (by decide)
  split
  · next h =>
    refine iff_of_true (S.processData_returns env c p.data) ?_
    rw [h]
    rintro ⟨h | h, -⟩ <;> exact absurd h (by decide)
  split
  · next h =>
    rw [processHeartbeat_returns_iff, rawUnixMillTime_returns_iff]
    simp only [h, true_or, true_and]
  split
  · next h =>
    rw [processHeartbeatAck_returns_iff, rawUnixMillTime_returns_iff]
    simp only [h, or_true, true_and]
  · next h₁ h₂ =>
    refine iff_of_true (Outcome.returns_ok _) ?_
    rintro ⟨h | h, -⟩
    · exact h₁ h
    · exact h₂ h

/-- A service with a validator "v" that accepts the handshake data "{}". -/
def validating : HandlerService Bytes where
  unmarshal := .ok
  handshakeValidators := [([118], fun data => if data = [123, 125] then none else some [])]
  zlib := ⟨.ok, .ok⟩
  dictionary := .empty
  prepared := ⟨[], [], []⟩
  sessionID := 1
  remoteAddr := []

/-- A heartbeat with one byte of payload, on a fresh connection. -/
theorem processPacket_cut_heartbeat :
    ¬ (validating.processPacket {} {} ⟨PacketType.heartbeat, 1, [0]⟩).2.Returns :=
  Outcome.not_returns_crash

/-! ## Which messages are handled -/

/-- The data of a handshake packet passes: it is well formed and every validator
accepts it. -/
def Accepts : Prop :=
  ∃ handshakeData, S.unmarshal data = .ok handshakeData ∧
    ∀ validator ∈ S.handshakeValidators, validator.2 handshakeData = none

theorem validateHandshake_eq_none (data : H) (validators : List (Bytes × (H → Option Bytes)))
    (h : S.validateHandshake data validators = none) :
    ∀ validator ∈ validators, validator.2 data = none := by
  induction validators with
  | nil => exact fun _ hmem => absurd hmem not_mem_nil
  | cons validator validators ih =>
    obtain ⟨name, f⟩ := validator
    rw [validateHandshake] at h
    cases hf : f data with
    | some =>
      rw [hf] at h
      cases h
    | none =>
      rw [hf] at h
      intro validator hmem
      rcases mem_cons.mp hmem with rfl | hmem
      · exact hf
      · exact ih h validator hmem

/-- What one packet can do to the status and to the handled messages. -/
inductive Effect (c : Connection H) (p : Packet) (c' : Connection H) : Prop where
  /-- An accepted handshake. -/
  | shaken (htyp : p.typ = PacketType.handshake) (accepted : S.Accepts p.data)
      (hstatus : c'.agent.status = .handshake) (hhandled : c'.handled = c.handled)
  /-- An acknowledged handshake. -/
  | acked (htyp : p.typ = PacketType.handshakeAck) (hstatus : c'.agent.status = .working)
      (hhandled : c'.handled = c.handled)
  /-- A handled message. -/
  | handled (htyp : p.typ = PacketType.data) (ready : ¬ c.agent.status < .working)
      (hstatus : c'.agent.status = c.agent.status) (msg : Message)
      (hhandled : c'.handled = c.handled ++ [msg])
  /-- Anything else, refused handshakes included. -/
  | idle (hstatus : c'.agent.status = c.agent.status ∨ c'.agent.status = .closed)
      (hhandled : c'.handled = c.handled)

theorem processHandshake_effect {p : Packet} (htyp : p.typ = PacketType.handshake) :
    S.Effect c p (S.processHandshake env c p.data).1 := by
  unfold processHandshake
  cases hdata : S.unmarshal p.data with
  | error => exact .idle (Or.inr (Agent.close_status _ _ _)) rfl
  | ok handshakeData =>
    dsimp only
    cases hvalid : S.validateHandshake handshakeData S.handshakeValidators with
    | some => exact .idle (Or.inr (Agent.close_status _ _ _)) rfl
    | none =>
      cases env.writeErr with
      | some => exact .idle (Or.inl rfl) rfl
      | none =>
        exact .shaken htyp ⟨handshakeData, hdata, S.validateHandshake_eq_none _ _ hvalid⟩ rfl rfl

theorem processData_effect {p : Packet}
    (htyp : p.typ = PacketType.data) : S.Effect c p (S.processData env c p.data).1 := by
  unfold processData
  split
  · exact .idle (Or.inl rfl) rfl
  · next ready =>
    split
    · exact .idle (Or.inl rfl) rfl
    · exact .idle (Or.inl rfl) rfl
    · next msg _ => exact .handled htyp ready rfl msg rfl

theorem processHeartbeat_effect (p : Packet) :
    S.Effect c p (S.processHeartbeat env c p.data).1 := by
  unfold processHeartbeat
  split
  · exact .idle (Or.inl rfl) rfl
  · exact .idle (Or.inl rfl) rfl
  · exact .idle (Or.inl (Agent.sendHeartbeatResponse_status _ _ _ _)) rfl

theorem processPacket_effect (p : Packet) :
    S.Effect c p (S.processPacket env c p).1 := by
  unfold processPacket
  split
  · next htyp => exact S.processHandshake_effect env c htyp
  split
  · next htyp => exact .acked htyp rfl rfl
  split
  · next htyp => exact S.processData_effect env c htyp
  split
  · exact S.processHeartbeat_effect env c p
  split
  · unfold processHeartbeatAck
    split <;> exact .idle (Or.inl rfl) rfl
  · exact .idle (Or.inl rfl) rfl

variable {c : Connection H}

theorem step_packet {env : PacketEnv} {c' : Connection H} {p : Packet}
    (h : S.step c (.packet env p) = some c') : S.Effect c p c' := by
  have heffect := S.processPacket_effect env c p
  simp only [step] at h
  split at h
  · split at h
    · next hp =>
      rw [hp] at heffect
      obtain rfl := some.inj h
      exact heffect
    · next hp =>
      rw [hp] at heffect
      obtain rfl := some.inj h
      cases heffect with
      | shaken htyp accepted hstatus hhandled => exact .shaken htyp accepted hstatus hhandled
      | acked htyp hstatus hhandled => exact .acked htyp hstatus hhandled
      | handled htyp ready hstatus msg hhandled => exact .handled htyp ready hstatus msg hhandled
      | idle hstatus hhandled => exact .idle hstatus hhandled
  · cases h

/-- An accepted handshake is among the events. -/
def Shaken (events : List Event) : Prop :=
  ∃ before env p after, events = before ++ .packet env p :: after ∧
    p.typ = PacketType.handshake ∧ S.Accepts p.data

/-- An accepted handshake is among the events, and an acknowledgement follows it. -/
def ShakenAndAcked (events : List Event) : Prop :=
  ∃ before env ack after, events = before ++ .packet env ack :: after ∧
    ack.typ = PacketType.handshakeAck ∧ S.Shaken before

variable {S}

variable {events : List Event}

theorem Shaken.append (h : S.Shaken events) (later : List Event) : S.Shaken (events ++ later) := by
  obtain ⟨before, env, p, after, rfl, hp⟩ := h
  exact ⟨before, env, p, after ++ later, by rw [append_assoc, cons_append], hp⟩

theorem ShakenAndAcked.append (h : S.ShakenAndAcked events) (later : List Event) :
    S.ShakenAndAcked (events ++ later) := by
  obtain ⟨before, env, ack, after, rfl, hack⟩ := h
  exact ⟨before, env, ack, after ++ later, by rw [append_assoc, cons_append], hack⟩

theorem ShakenAndAcked.shaken (h : S.ShakenAndAcked events) : S.Shaken events := by
  obtain ⟨before, env, ack, after, rfl, -, hshaken⟩ := h
  exact hshaken.append _

variable (S) in
/-- The status tells how far the handshake has come. -/
structure StatusEarned (events : List Event) (c : Connection H) : Prop where
  handshake : c.agent.status = .handshake → S.Shaken events
  working : c.agent.status = .working → S.ShakenAndAcked events

/-- The order the status guards leave to the client: an acknowledgement comes in
`StatusHandshake` or `StatusWorking`, and data not in `StatusClosed`. -/
def InOrder (c : Connection H) : Event → Prop
  | .packet _ p =>
    (p.typ = PacketType.handshakeAck →
      c.agent.status = .handshake ∨ c.agent.status = .working) ∧
    (p.typ = PacketType.data → c.agent.status ≠ .closed)
  | .close _ _ => True

instance (c : Connection H) (e : Event) : Decidable (InOrder c e) :=
  match e with
  | .packet _ _ => inferInstanceAs (Decidable (_ ∧ _))
  | .close _ _ => inferInstanceAs (Decidable True)

theorem statusEarned_of_idle (hs : c.agent.status = .start ∨ c.agent.status = .closed) :
    S.StatusEarned events c := by
  constructor <;> intro h <;> rw [h] at hs <;> rcases hs with hs | hs <;> cases hs

theorem StatusEarned.of_eq {c' : Connection H} (inv : S.StatusEarned events c)
    (hs : c'.agent.status = c.agent.status) (later : List Event) :
    S.StatusEarned (events ++ later) c' :=
  ⟨fun h => (inv.handshake (hs ▸ h)).append later, fun h => (inv.working (hs ▸ h)).append later⟩

/-- **Step lemma.** -/
theorem StatusEarned.step {c' : Connection H} {e : Event} (inv : S.StatusEarned events c)
    (horder : InOrder c e) (h : S.step c e = some c') : S.StatusEarned (events ++ [e]) c' := by
  cases e with
  | close reason connErr =>
    obtain rfl := some.inj h
    exact statusEarned_of_idle (Or.inr (Agent.close_status c.agent reason connErr))
  | packet env p =>
    cases S.step_packet h with
    | shaken htyp accepted hstatus =>
      refine ⟨fun _ => ⟨events, env, p, [], rfl, htyp, accepted⟩, fun hs => ?_⟩
      rw [hstatus] at hs
      cases hs
    | acked htyp hstatus =>
      have hshaken : S.Shaken events := by
        rcases horder.1 htyp with hs | hs
        · exact inv.handshake hs
        · exact (inv.working hs).shaken
      refine ⟨fun hs => ?_, fun _ => ⟨events, env, p, [], rfl, htyp, hshaken⟩⟩
      rw [hstatus] at hs
      cases hs
    | handled _ _ hstatus => exact inv.of_eq hstatus _
    | idle hstatus =>
      rcases hstatus with hstatus | hclosed
      · exact inv.of_eq hstatus _
      · exact statusEarned_of_idle (Or.inr hclosed)

/-- **Run lemma.** -/
theorem statusEarned_of_run (hrun : S.connection.run events = some c)
    (hmeets : S.connection.Meets InOrder events) : S.StatusEarned events c := by
  refine System.run_induction_of_meets ?_ ?_ hrun hmeets
  · exact statusEarned_of_idle (Or.inl rfl)
  · intro events e c c' _ horder inv hstep
    exact inv.step horder hstep

variable (S) in
/-- Whenever a packet's message is handed to `processMessage`, an accepted
handshake and its acknowledgement came before. -/
def HandledAfterHandshake (events : List Event) : Prop :=
  ∀ before env p after c c', events = before ++ .packet env p :: after →
    S.connection.run before = some c → S.step c (.packet env p) = some c' →
    c'.handled ≠ c.handled → S.ShakenAndAcked before

/-- **No message is handled before a validated handshake**, in every run that
keeps the order the status guards do not enforce. -/
theorem handled_after_handshake {events : List Event}
    (hmeets : S.connection.Meets InOrder events) : S.HandledAfterHandshake events := by
  intro before env p after c c' hsplit hrun hstep hhandled
  subst hsplit
  have inv := statusEarned_of_run hrun hmeets.of_append
  have hlast := hmeets before _ after c rfl hrun
  cases S.step_packet hstep with
  | shaken _ _ _ same | acked _ _ same | idle _ same => exact absurd same hhandled
  | handled htyp ready =>
    -- past the guard the status is Working or Closed
    have hopen := hlast.2 htyp
    refine inv.working ?_
    cases hs : c.agent.status with
    | working => rfl
    | closed => exact absurd hs hopen
    | start => exact absurd (hs ▸ (by decide : AgentStatus.start < .working)) ready
    | handshake => exact absurd (hs ▸ (by decide : AgentStatus.handshake < .working)) ready

/-- A notify to route `a`. -/
def notifyA : Packet := ⟨PacketType.data, 3, [2, 1, 97]⟩

/-- The usual order: handshake, acknowledgement, data. -/
def usualOrder : List Event :=
  [.packet {} ⟨PacketType.handshake, 2, [123, 125]⟩,
    .packet {} ⟨PacketType.handshakeAck, 0, []⟩, .packet {} notifyA]

/-- The validator accepts the handshake, and the message is handled. -/
theorem handled_after_handshake_usual_order :
    (∃ c, validating.connection.run usualOrder = some c ∧ c.handled ≠ []) ∧
      validating.connection.Meets InOrder usualOrder ∧
      validating.HandledAfterHandshake usualOrder := by
  have hmeets : validating.connection.Meets InOrder usualOrder :=
    System.meets_of_meetsFrom (by decide +kernel)
  exact ⟨⟨_, rfl, by decide +kernel⟩, hmeets, handled_after_handshake hmeets⟩

/-- An acknowledgement without a handshake opens the connection past the validator. -/
theorem handled_without_handshake :
    ¬ validating.HandledAfterHandshake
        [.packet {} ⟨PacketType.handshakeAck, 0, []⟩, .packet {} notifyA] := by
  intro h
  have hacked := h [.packet {} ⟨PacketType.handshakeAck, 0, []⟩] {} notifyA [] _ _ rfl rfl rfl
    (by decide +kernel)
  obtain ⟨before, env, p, after, hsplit, htyp, -⟩ := hacked.shaken
  -- the only packet before is the acknowledgement
  have hmem : Event.packet env p ∈ [Event.packet {} ⟨PacketType.handshakeAck, 0, []⟩] := by
    rw [hsplit]
    exact List.mem_append_right _ List.mem_cons_self
  rw [List.mem_singleton, Event.packet.injEq] at hmem
  rw [hmem.2] at htyp
  exact absurd htyp (by decide)

end HandlerService

end Pitaya.Service
