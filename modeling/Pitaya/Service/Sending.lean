import Pitaya.Conn.Framers
import Pitaya.Conn.Layout
import Pitaya.Service.Requests

/-!
# What `Encode` does to a message

`MessagesEncoder.Encode` of `conn/message` assigns the deflated payload to the message it is given.
`send` of `agent/agent.go` encodes a message and then reads its payload, to report the error in it
with the write.

* `encode_of_shortens`, `encode_of_not_shortens` — the two ways a call can go.
-/

namespace Pitaya

open Conn Except List

namespace Conn.Message

variable {zlib : Compression} {dataCompression : Bool} {d : Dictionary} {m : Message}

/-- Compression is on, and the payload can be deflated to a shorter one. -/
def Shortens (zlib : Compression) (dataCompression : Bool) (m : Message) : Prop :=
  dataCompression = true ∧ KnownType m.typ ∧
    ∃ deflated, zlib.deflateData m.data = .ok deflated ∧ deflated.length < m.data.length

theorem encode_of_shortens (d : Dictionary) (h : Shortens zlib dataCompression m) :
    ∃ deflated, deflated.length < m.data.length ∧
      encode zlib dataCompression d m = (.ok (wire d m true deflated),
        { m with data := deflated }) := by
  obtain ⟨rfl, htype, deflated, hdeflate, hshorter⟩ := h
  have hvalid : ¬ m.typ.invalidType = true := by rw [htype.valid]; exact Bool.false_ne_true
  refine ⟨deflated, hshorter, ?_⟩
  simp only [encode, if_neg hvalid, hdeflate, if_true, if_pos hshorter]
  rfl

theorem encode_of_not_shortens (d : Dictionary) (h : ¬ Shortens zlib dataCompression m) :
    (encode zlib dataCompression d m).2 = m ∧
      ∀ bytes, (encode zlib dataCompression d m).1 = .ok bytes → bytes = wire d m false m.data := by
  by_cases hinvalid : m.typ.invalidType = true
  · rw [encode, if_pos hinvalid]
    refine ⟨rfl, ?_⟩
    rintro _ ⟨⟩
  have htype := knownType_of_valid hinvalid
  unfold encode
  rw [if_neg hinvalid]
  dsimp only
  split
  · next hcompression =>
    split
    · refine ⟨rfl, ?_⟩
      rintro _ ⟨⟩
    · next deflated hdeflate =>
      have hlonger : ¬ deflated.length < m.data.length :=
        fun hshorter => h ⟨hcompression, htype, deflated, hdeflate, hshorter⟩
      rw [if_neg hlonger]
      refine ⟨rfl, ?_⟩
      rintro _ ⟨⟩
      rfl
  · refine ⟨rfl, ?_⟩
    rintro _ ⟨⟩
    rfl

/-- **A shortened message is never encoded to the same bytes again**: the payload is deflated once
more, or the flag of a compressed payload is missing. -/
theorem encode_again_ne (d : Dictionary) (h : Shortens zlib dataCompression m) :
    (encode zlib dataCompression d (encode zlib dataCompression d m).2).1 ≠
      (encode zlib dataCompression d m).1 := by
  obtain ⟨deflated, -, hencode⟩ := encode_of_shortens d h
  rw [hencode]
  by_cases hagain : Shortens zlib dataCompression { m with data := deflated }
  · obtain ⟨deflated', hshorter, hencode'⟩ := encode_of_shortens d hagain
    rw [hencode']
    intro heq
    have hpayload : deflated' = deflated := append_cancel_left (ok.inj heq)
    exact absurd hshorter (by rw [hpayload]; exact lt_irrefl _)
  · obtain ⟨-, hbytes⟩ := encode_of_not_shortens d hagain
    intro heq
    have hflag := (cons.inj (hbytes _ heq)).1
    have htrue := (flagByte_fields h.2.1 (d.routes.lookup m.route).isSome m.err true).2.2.2.mpr rfl
    rw [hflag] at htrue
    have hfalse := (flagByte_fields h.2.1
      (d.routes.lookup m.route).isSome m.err false).2.2.2.mp htrue
    cases hfalse

end Conn.Message

namespace Service

/-- A value to be sent: a byte slice, which is sent as it is, or another value. -/
inductive Payload (A : Type) where
  | raw (data : Bytes)
  | value (v : Option A)

structure PendingMessage (A : Type) where
  typ : MessageType
  route : Bytes := []
  mid : UInt64 := 0
  payload : Payload A
  err : Bool := false

/-- The message of a pending one, with its payload. -/
def PendingMessage.message {A : Type} (pm : PendingMessage A) (data : Bytes) : Message :=
  { typ := pm.typ, data := data, route := pm.route, id := pm.mid, err := pm.err }

/-- `pendingWrite`.  `X` are the errors as `GetErrorFromPayload` reads them. -/
structure PendingWrite (X : Type) where
  data : Bytes
  err : Option X

/-- Why `send` fails before the queue. -/
inductive PendingError where
  /-- Neither the payload nor the error of that can be serialized. -/
  | payload (text : Bytes)
  | send (e : SendError)
  deriving DecidableEq, Repr

namespace Frontend

variable {A : Type} (S : Frontend A)

def serializeOrRaw : Payload A → Except Bytes Bytes
  | .raw data => .ok data
  | .value v => S.pool.marshal v

def getMessageFromPendingMessage (pm : PendingMessage A) : Except Bytes Message :=
  match S.serializeOrRaw pm.payload with
  | .ok payload => .ok (pm.message payload)
  | .error e =>
    match S.pool.errorPayload (.serializer e) with
    | .ok payload => .ok (pm.message payload)
    | .error e => .error e

/-- `send`, up to the queue: the packet and, for an error, what `GetErrorFromPayload` reads in the
message after it was encoded. -/
def pendingWrite {X : Type} (getErrorFromPayload : Bytes → X) (pm : PendingMessage A) :
    Except PendingError (PendingWrite X) :=
  match S.getMessageFromPendingMessage pm with
  | .error e => .error (.payload e)
  | .ok m =>
    match S.packetEncodeMessage m with
    | .error e => .error (.send e)
    | .ok p =>
      let m := (Message.encode S.zlib S.dataCompression S.dictionary m).2
      .ok ⟨p, if pm.err then some (getErrorFromPayload m.data) else none⟩

/-- The message after a number of calls of `Encode`. -/
def afterEncodings (n : ℕ) (m : Message) : Message :=
  (fun m => (Message.encode S.zlib S.dataCompression S.dictionary m).2)^[n] m

/-- `Encode` leaves the message unchanged, gives the same result each time, and the error that
`send` reports is that of the payload. -/
structure NoEffect (m : Message) : Prop where
  unchanged : (Message.encode S.zlib S.dataCompression S.dictionary m).2 = m
  repeats : ∀ n, (Message.encode S.zlib S.dataCompression S.dictionary (S.afterEncodings n m)).1 =
    (Message.encode S.zlib S.dataCompression S.dictionary m).1
  reported : ∀ (X : Type) (getErrorFromPayload : Bytes → X) (pm : PendingMessage A)
    (w : PendingWrite X), S.getMessageFromPendingMessage pm = .ok m →
      S.pendingWrite getErrorFromPayload pm = .ok w → pm.err = true →
      w.err = some (getErrorFromPayload m.data)

variable {S} {m : Message}

section

variable {X : Type} {getErrorFromPayload : Bytes → X} {pm : PendingMessage A} {w : PendingWrite X}
  (hm : S.getMessageFromPendingMessage pm = .ok m)
  (hw : S.pendingWrite getErrorFromPayload pm = .ok w)
include hm hw

theorem pendingWrite_err (herr : pm.err = true) :
    w.err = some (getErrorFromPayload
      (Message.encode S.zlib S.dataCompression S.dictionary m).2.data) := by
  rw [pendingWrite, hm] at hw
  dsimp only at hw
  split at hw
  · cases hw
  · obtain rfl := ok.inj hw
    rw [herr]
    rfl

/-- The packet of the pending write is what `send` queues. -/
theorem send_of_pendingWrite (a : Agent) :
    S.send a m =
      (if a.chDie && S.dieFirst then a else { a with chSend := a.chSend ++ [w.data] }, none) := by
  rw [pendingWrite, hm] at hw
  dsimp only at hw
  split at hw
  · cases hw
  · next p hp =>
    obtain rfl := ok.inj hw
    rw [send, hp]

end

/-- **`Encode` has no effect on a message if and only if** it does not shorten the payload. -/
theorem noEffect_iff (S : Frontend A) (m : Message) :
    S.NoEffect m ↔ ¬ Message.Shortens S.zlib S.dataCompression m := by
  constructor
  · intro h hshortens
    exact Message.encode_again_ne S.dictionary hshortens (h.repeats 1)
  · intro h
    have hunchanged := (Message.encode_of_not_shortens S.dictionary h).1
    refine ⟨hunchanged, fun n => ?_, fun X get pm w hm hw herr => ?_⟩
    · rw [afterEncodings, Function.iterate_fixed hunchanged]
    · rw [pendingWrite_err hm hw herr, hunchanged]

end Frontend

/-! ## A message that is shortened -/

/-- A frontend that compresses payloads. -/
def compressing : Frontend Unit := { gate with zlib := Message.runOnly, dataCompression := true }

/-- An error of 32 sevens for the request 5. -/
def sevensError : PendingMessage Unit where
  typ := .response
  mid := 5
  payload := .raw Message.sevens
  err := true

open Message in
/-- The client gets the payload; encoded again, the message would give it the compressed payload,
and that is what the error reported with the write is read from. -/
theorem encoded_twice :
    runOnly.Inverts ∧
    (∃ m bytes bytes', compressing.getMessageFromPendingMessage sevensError = .ok m ∧
      (encode runOnly true .empty m).1 = .ok bytes ∧
      (encode runOnly true .empty (compressing.afterEncodings 1 m)).1 = .ok bytes' ∧
      bytes ≠ bytes' ∧ m.data = sevens ∧
      (compressing.afterEncodings 1 m).data = sevensStream ∧ ¬ compressing.NoEffect m) ∧
    ∃ w, compressing.pendingWrite (fun payload => payload) sevensError = .ok w ∧
      w.err = some sevensStream := by
  let m : Message := { typ := .response, id := 5, data := sevens, err := true }
  have hm : compressing.getMessageFromPendingMessage sevensError = .ok m := rfl
  have hshortens : Shortens compressing.zlib compressing.dataCompression m :=
    ⟨rfl, .inr (.inr (.inl rfl)), sevensStream, rfl, by decide⟩
  have hencode : encode runOnly true .empty m =
      (.ok (0x34 :: 5 :: sevensStream), { m with data := sevensStream }) := by decide +kernel
  refine ⟨runOnly_inverts, ⟨m, 0x34 :: 5 :: sevensStream, 0x24 :: 5 :: sevensStream, hm, ?_, ?_,
    by decide, rfl, ?_, ?_⟩, ⟨4 :: 0 :: 0 :: 17 :: 0x34 :: 5 :: sevensStream, some sevensStream⟩,
      ?_, rfl⟩
  · rw [hencode]
  · decide +kernel
  · exact congrArg (fun r => r.2.data) hencode
  · exact fun h => encode_again_ne _ hshortens (h.repeats 1)
  · have hpacket : compressing.packetEncodeMessage m =
        .ok (4 :: 0 :: 0 :: 17 :: 0x34 :: 5 :: sevensStream) := by decide +kernel
    rw [Frontend.pendingWrite, hm]
    dsimp only
    rw [hpacket]
    exact congrArg (fun r => ok (PendingWrite.mk _ (some r.2.data))) hencode

/-! ## What the client reads -/

namespace Frontend

variable {A : Type} {a : Agent} (S : Frontend A)

theorem send_alive (halive : a.chDie = false) (m : Message) :
    S.send a m = match S.packetEncodeMessage m with
      | .error e => (a, some e)
      | .ok frame => ({ a with chSend := a.chSend ++ [frame] }, none) := by
  unfold send
  rw [halive]
  rfl

theorem foldl_send (halive : a.chDie = false) (messages : List Message) :
    (messages.foldl (fun a m => (S.send a m).1) a).chSend =
      a.chSend ++ messages.filterMap fun m => (S.packetEncodeMessage m).toOption := by
  induction messages generalizing a with
  | nil => exact (append_nil _).symm
  | cons m messages ih =>
    rw [foldl_cons, S.send_alive halive, filterMap_cons]
    cases S.packetEncodeMessage m with
    | error => exact ih halive
    | ok frame =>
      refine (ih (a := { a with chSend := a.chSend ++ [frame] }) halive).trans ?_
      exact append_assoc ..

variable {S}

theorem encode_of_packetEncodeMessage {m : Message} {frame : Bytes}
    (h : S.packetEncodeMessage m = .ok frame) :
    ∃ em, (Message.encode S.zlib S.dataCompression S.dictionary m).1 = .ok em ∧
      Packet.encode .data em = .ok frame := by
  unfold packetEncodeMessage at h
  split at h
  · cases h
  · next em hem =>
    split at h <;> cases h
    next hframe => exact ⟨em, hem, hframe⟩

open Packet in
/-- **What is sent is received.**  The messages that `send` has returned no error for are what the
client reads, in that order, however the transport cuts up the stream.  A route has to be one that
the encoding carries, and the largest packet is not read back. -/
theorem messages_received {ε : Type} (S : Frontend A) (hzlib : S.zlib.Inverts)
    (inv : S.dictionary.Inverse) (a : Agent) (hopen : a.chDie = false ∧ a.chSend = [])
    (messages : List Message) (hcarried : ∀ m ∈ messages, Message.Carried S.dictionary m)
    (hsize : ∀ m ∈ messages, ∀ em,
      (Message.encode S.zlib S.dataCompression S.dictionary m).1 = .ok em →
        em.length ≠ maxPacketSize)
    (conn : Transport UInt8 ε)
    (hstream : conn.rest = (messages.foldl (fun a m => (S.send a m).1) a).chSend.flatten) :
    (readPackets conn).map (fun p => (p.typ, Message.decode S.zlib S.dictionary p.data)) =
      (messages.filter fun m => (S.send a m).2 = none).map fun m =>
        (.data, .ok (Message.received S.dictionary m)) := by
  rw [readPackets_eq, hstream, S.foldl_send hopen.1, hopen.2, map_map, nil_append]
  clear hstream
  induction messages with
  | nil =>
    rw [filterMap_nil, flatten_nil, pomelo.frames_of_none rfl]
    rfl
  | cons m messages ih =>
    rw [forall_mem_cons] at hcarried hsize
    have ih := ih hcarried.2 hsize.2
    rw [filterMap_cons, filter_cons, S.send_alive hopen.1]
    cases hframe : S.packetEncodeMessage m with
    | error => exact ih
    | ok frame =>
      obtain ⟨em, hem, hencode⟩ := encode_of_packetEncodeMessage hframe
      obtain ⟨hvalid, hle, rfl⟩ := encode_eq_ok_iff.mp hencode
      have hwritable : pomelo.Writable .data em.length :=
        ⟨hvalid, lt_of_le_of_ne hle (hsize.1 em hem)⟩
      have hdecode := Message.decode_of_encode hzlib inv hem hcarried.1
      have hframes := pomelo.frames_of_some (pomelo.next?_frame_append (f := (.data, em)) hwritable
        (messages.filterMap fun m => (S.packetEncodeMessage m).toOption).flatten)
      refine (congrArg (map _) hframes).trans ?_
      exact congrArg₂ cons (congrArg (Prod.mk _) hdecode) ih

end Frontend

/-- A response in two fragments, with a payload that is shortened; the other message has a type
that there is not. -/
theorem messages_received_response :
    (Packet.readPackets (⟨[[4, 0], 0 :: 17 :: 0x14 :: 5 :: Message.sevensStream], .eof true⟩ :
        Transport UInt8 Unit)).map
        (fun p => (p.typ, Message.decode Message.runOnly .empty p.data)) =
      [(.data, .ok { typ := .response, id := 5, data := Message.sevens })] := by
  refine (Frontend.messages_received compressing Message.runOnly_inverts
    Message.Dictionary.inverse_empty working ⟨rfl, rfl⟩
    [{ typ := .response, id := 5, data := Message.sevens }, { typ := 9 }] ?_ ?_ _ ?_).trans ?_
  · exact fun m hm hroutable => absurd hroutable (by revert m; decide)
  · intro m hm em hem
    have hshort : em.length < 18 := by
      simp only [mem_cons, not_mem_nil, or_false] at hm
      rcases hm with rfl | rfl <;> cases hem
      decide +kernel
    exact (hshort.trans (by decide)).ne
  · decide +kernel
  · decide +kernel

end Service

end Pitaya
