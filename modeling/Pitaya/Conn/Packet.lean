import Pitaya.Foundations.BigEndian
import Pitaya.Foundations.Framing

/-!
# The Pomelo packet codec

`conn/packet` and `conn/codec`: a packet on the wire is a four byte header — one
byte of type, three bytes of big-endian body length — followed by the body.

* `parseHeader`, `bytesToInt`, `intToBytes` — `codec/utils.go`.

`pomelo` instantiates `Framing.Format` with this header, and `decode_eq_scan`
shows that the header-ahead loop is the greedy reader `Framing.Format.scan`.
Everything about the stream is then read off the reader.

The codec accepts a body of exactly `2 ^ 24` bytes although three length bytes
cannot carry that length (`encode` compares with `>`); a pair is `Writable` only
strictly below the limit, and `size_limit_agreement` says what becomes of the
body at the limit.
-/

namespace Pitaya.Conn

open List

/-! ## Constants -/

/-- `packet.Type`, a byte. -/
abbrev PacketType : Type := UInt8

namespace PacketType

/-- `packet.Handshake`. -/
def handshake : PacketType := 0x01
/-- `packet.HandshakeAck`. -/
def handshakeAck : PacketType := 0x02
/-- `packet.Heartbeat`. -/
def heartbeat : PacketType := 0x03
/-- `packet.Data`. -/
def data : PacketType := 0x04
/-- `packet.Kick`. -/
def kick : PacketType := 0x05
/-- `packet.HeartbeatAck`. -/
def heartbeatAck : PacketType := 0x06

end PacketType

/-- `packet.Packet`. -/
structure Packet where
  typ : PacketType
  length : ℕ
  data : Bytes
  deriving DecidableEq, Repr

/-- The errors of `conn/packet` and `conn/codec`. -/
inductive CodecError where
  /-- `packet.ErrInvalidPomeloHeader`, "invalid header". -/
  | invalidPomeloHeader
  /-- `packet.ErrWrongPomeloPacketType`, "wrong packet type". -/
  | wrongPomeloPacketType
  /-- `codec.ErrPacketSizeExcced`, "codec: packet size exceed". -/
  | packetSizeExcced
  deriving DecidableEq, Repr

namespace Packet

open PacketType (handshake heartbeatAck)

/-- `codec.HeadLength`. -/
def headLength : ℕ := 4

/-- `codec.MaxPacketSize`. -/
def maxPacketSize : ℕ := 1 <<< 24

/-! ## Headers -/

/-- `codec.BytesToInt`. -/
def bytesToInt (b : Bytes) : ℕ :=
  b.foldl (fun result v => (result <<< 8) + v.toNat) 0

/-- `codec.IntToBytes`: the three low bytes, most significant first. -/
def intToBytes (n : ℕ) : Bytes :=
  [UInt8.ofNat ((n >>> 16) &&& 0xFF), UInt8.ofNat ((n >>> 8) &&& 0xFF),
    UInt8.ofNat (n &&& 0xFF)]

/-- `codec.ParseHeader`. -/
def parseHeader (header : Bytes) : Except CodecError (ℕ × PacketType) :=
  if header.length ≠ headLength then .error .invalidPomeloHeader
  else
    let typ := header.headD 0
    if typ < handshake ∨ typ > heartbeatAck then .error .wrongPomeloPacketType
    else
      let size := bytesToInt header.tail
      if size > maxPacketSize then .error .packetSizeExcced
      else .ok (size, typ)

/-! ## Encoder and decoder -/

variable (typ : PacketType)

/-- `PomeloPacketEncoder.Encode`. -/
def encode (data : Bytes) : Except CodecError Bytes :=
  if typ < handshake ∨ typ > heartbeatAck then .error .wrongPomeloPacketType
  else if data.length > maxPacketSize then .error .packetSizeExcced
  else .ok (typ :: intToBytes data.length ++ data)

/-- `PomeloPacketDecoder.forward`: consume one header (`bytes.Buffer.Next`). -/
def forward (buf : Bytes) : Except CodecError (ℕ × PacketType) × Bytes :=
  (parseHeader (buf.take headLength), buf.drop headLength)

@[simp] theorem forward_snd (buf : Bytes) : (forward buf).2 = buf.drop headLength := rfl

/-- The loop of `PomeloPacketDecoder.Decode`.  `size` and `typ` come from a
header that is already consumed; `buf` starts with the body it announces. -/
def decodeLoop (size : ℕ) (typ : PacketType) (buf : Bytes) (packets : List Packet) :
    Except CodecError (List Packet) :=
  if size ≤ buf.length then
    let packets := packets ++ [⟨typ, size, buf.take size⟩]
    -- no room for another header: what is left is a truncated packet
    if (buf.drop size).length < headLength then .ok packets
    else
      match (forward (buf.drop size)).1 with
      | .error e => .error e
      | .ok (size', typ') =>
        decodeLoop size' typ' (forward (buf.drop size)).2 packets
  else .ok packets
termination_by buf.length
decreasing_by
  simp only [forward_snd, headLength, List.length_drop] at *
  omega

/-- `PomeloPacketDecoder.Decode`. -/
def decode (data : Bytes) : Except CodecError (List Packet) :=
  if data.length < headLength then .ok []
  else
    match forward data with
    | (.error e, _) => .error e
    | (.ok (size, typ), buf) => decodeLoop size typ buf []

/-- `Encode` over a list of packets, the outputs concatenated; the first error
wins. -/
def encodeAll : List (PacketType × Bytes) → Except CodecError Bytes
  | [] => .ok []
  | p :: ps =>
    match encode p.1 p.2 with
    | .error e => .error e
    | .ok frame =>
      match encodeAll ps with
      | .error e => .error e
      | .ok rest => .ok (frame ++ rest)

/-! ## The header as a framing format -/

/-- The packet types both ends accept. -/
def ValidType : Prop := handshake ≤ typ ∧ typ ≤ heartbeatAck

instance (typ : PacketType) : Decidable (ValidType typ) :=
  inferInstanceAs (Decidable (_ ∧ _))

theorem validType_iff :
    ValidType typ ↔ ¬ (typ < handshake ∨ typ > heartbeatAck) := by
  simp only [ValidType, not_or, gt_iff_lt, UInt8.not_lt]

theorem not_validType_iff :
    ¬ ValidType typ ↔ typ < handshake ∨ typ > heartbeatAck := by
  rw [validType_iff, not_not]

@[simp] theorem intToBytes_length (n : ℕ) : (intToBytes n).length = 3 := rfl

theorem bytesToInt_triple (a b c : UInt8) :
    bytesToInt [a, b, c] = a.toNat * 65536 + b.toNat * 256 + c.toNat := by
  simp only [bytesToInt, foldl_cons, foldl_nil, Nat.shiftLeft_eq]
  omega

theorem bytesToInt_intToBytes (n : ℕ) :
    bytesToInt (intToBytes n) = n % 2 ^ 24 := by
  rw [intToBytes, bytesToInt_triple]
  simp only [BigEndian.and_255, Nat.shiftRight_eq_div_pow, UInt8.toNat_ofNat']
  omega

theorem intToBytes_bytesToInt (a b c : UInt8) :
    intToBytes (bytesToInt [a, b, c]) = [a, b, c] := by
  have ha := a.toNat_lt
  have hb := b.toNat_lt
  have hc := c.toNat_lt
  have h1 : (a.toNat * 65536 + b.toNat * 256 + c.toNat) / 2 ^ 16 % 256 = a.toNat := by
    omega
  have h2 : (a.toNat * 65536 + b.toNat * 256 + c.toNat) / 2 ^ 8 % 256 = b.toNat := by
    omega
  have h3 : (a.toNat * 65536 + b.toNat * 256 + c.toNat) % 256 = c.toNat := by
    omega
  rw [bytesToInt_triple, intToBytes]
  simp only [BigEndian.and_255, Nat.shiftRight_eq_div_pow, h1, h2, h3, UInt8.ofNat_toNat]

theorem bytesToInt_triple_lt (a b c : UInt8) : bytesToInt [a, b, c] < 2 ^ 24 := by
  have ha := a.toNat_lt
  have hb := b.toNat_lt
  have hc := c.toNat_lt
  rw [bytesToInt_triple]
  omega

/-- `ParseHeader` on a header as `Encode` writes it: the type byte decides, and
the announced length is read back modulo `2 ^ 24`. -/
theorem parseHeader_intToBytes (n : ℕ) :
    parseHeader (typ :: intToBytes n) =
      if ValidType typ then .ok (n % 2 ^ 24, typ)
      else .error .wrongPomeloPacketType := by
  have hsize : ¬ n % 2 ^ 24 > maxPacketSize := by
    simp only [maxPacketSize, Nat.shiftLeft_eq]
    omega
  have hlen : ¬ (typ :: intToBytes n).length ≠ headLength := by simp [headLength]
  simp only [parseHeader, if_neg hlen, headD_cons, tail_cons, bytesToInt_intToBytes, if_neg hsize]
  by_cases valid : ValidType typ
  · rw [if_pos valid, if_neg ((validType_iff typ).mp valid)]
  · rw [if_neg valid, if_pos ((not_validType_iff typ).mp valid)]

/-- A header that parses has a valid type, a length below `2 ^ 24`, and is the
header `Encode` writes for them. -/
theorem parseHeader_eq_ok {header : Bytes} {n : ℕ} {typ : PacketType}
    (h : parseHeader header = .ok (n, typ)) :
    ValidType typ ∧ n < 2 ^ 24 ∧ header = typ :: intToBytes n := by
  match header, h with
  | [t, a, b, c], h =>
    have hcanon : [t, a, b, c] = t :: intToBytes (bytesToInt [a, b, c]) := by
      rw [intToBytes_bytesToInt]
    have hlt := bytesToInt_triple_lt a b c
    rw [hcanon, parseHeader_intToBytes, Nat.mod_eq_of_lt hlt] at h
    split at h
    · next valid =>
      obtain ⟨rfl, rfl⟩ := Prod.mk.inj (Except.ok.inj h)
      exact ⟨valid, hlt, hcanon⟩
    · cases h
  | [], h | [_], h | [_, _], h | [_, _, _], h => simp [parseHeader, headLength] at h
  | _ :: _ :: _ :: _ :: _ :: _, h => simp [parseHeader, headLength] at h

/-- **The Pomelo header as a framing format.**  The writable pairs are the valid
types with a length strictly below `2 ^ 24`. -/
def pomelo : Framing.Format UInt8 PacketType CodecError where
  headLength := headLength
  parseHeader := parseHeader
  header typ n := typ :: intToBytes n
  Writable typ n := ValidType typ ∧ n < 2 ^ 24
  headLength_pos := by decide
  header_length _ _ := rfl
  parseHeader_header typ n h := by
    rw [parseHeader_intToBytes, if_pos h.1, Nat.mod_eq_of_lt h.2]
  header_of_parseHeader header n typ _ h := by
    obtain ⟨valid, hlt, rfl⟩ := parseHeader_eq_ok h
    exact ⟨⟨valid, hlt⟩, rfl⟩

/-- The packet the decoder builds from a frame. -/
def ofFrame (f : PacketType × Bytes) : Packet := ⟨f.1, f.2.length, f.2⟩

theorem encode_eq_ok_iff {typ : PacketType} {data frame : Bytes} :
    encode typ data = .ok frame ↔
      ValidType typ ∧ data.length ≤ maxPacketSize ∧ frame = pomelo.frame (typ, data) := by
  have hframe : pomelo.frame (typ, data) = typ :: intToBytes data.length ++ data := rfl
  rw [hframe, encode]
  by_cases valid : ValidType typ
  · rw [if_neg ((validType_iff typ).mp valid)]
    by_cases large : data.length > maxPacketSize
    · rw [if_pos large]
      simp only [reduceCtorEq, false_iff, not_and]
      intro _ small
      exact absurd large (not_lt.mpr small)
    · rw [if_neg large]
      simp only [Except.ok.injEq, valid, true_and, not_lt.mp large]
      exact eq_comm
  · rw [if_pos ((not_validType_iff typ).mp valid)]
    simp [valid]

theorem encode_of_writable {f : PacketType × Bytes}
    (h : pomelo.Writable f.1 f.2.length) : encode f.1 f.2 = .ok (pomelo.frame f) :=
  encode_eq_ok_iff.mpr ⟨h.1, le_of_lt (h.2 : f.2.length < 2 ^ 24), rfl⟩

theorem encodeAll_of_writable (frames : List (PacketType × Bytes))
    (h : ∀ f ∈ frames, pomelo.Writable f.1 f.2.length) :
    encodeAll frames = .ok (frames.flatMap pomelo.frame) := by
  induction frames with
  | nil => rfl
  | cons f frames ih =>
    rw [encodeAll, encode_of_writable (h f mem_cons_self),
      ih fun g hg => h g (mem_cons_of_mem f hg)]
    rfl

/-! ## The header-ahead loop is the greedy reader -/

/-- The loop, entered with the header of the frame at the front of `buf` already
consumed, delivers what the reader delivers on `buf`. -/
theorem decodeLoop_eq_scan (buf : Bytes) :
    ∀ (size : ℕ) (typ : PacketType) (packets : List Packet),
      headLength ≤ buf.length →
      parseHeader (buf.take headLength) = .ok (size, typ) →
      decodeLoop size typ (buf.drop headLength) packets =
        (pomelo.scan buf).map fun r => packets ++ r.1.map ofFrame := by
  -- strong induction on the buffer: each round consumes a whole frame
  induction hlen : buf.length using Nat.strong_induction_on generalizing buf with
  | _ len ih =>
    intro size typ packets long parsed
    subst hlen
    have hlong : pomelo.headLength ≤ buf.length := long
    have hdrop := length_drop (i := headLength) (l := buf)
    by_cases whole : size ≤ (buf.drop headLength).length
    · have hwhole : pomelo.headLength + size ≤ buf.length := by
        simp only [pomelo] at hlong ⊢
        omega
      have hrest : (buf.drop headLength).drop size = buf.drop (pomelo.headLength + size) :=
        drop_drop
      have hsize : ((buf.drop headLength).take size).length = size := by
        rw [length_take, min_eq_left whole]
      rw [decodeLoop, if_pos whole, pomelo.scan_of_whole parsed hwhole, hrest]
      by_cases short : (buf.drop (pomelo.headLength + size)).length < headLength
      · rw [if_pos short, pomelo.scan_of_incomplete (Or.inl short)]
        simp [Except.map, ofFrame, hsize, pomelo]
      · rw [if_neg short]
        cases hnext : (forward (buf.drop (pomelo.headLength + size))).1 with
        | error =>
          rw [pomelo.scan_of_bad_header (not_lt.mp short) hnext]
          rfl
        | ok next =>
          obtain ⟨size', typ'⟩ := next
          have hshorter : (buf.drop (pomelo.headLength + size)).length < buf.length := by
            simp only [length_drop, pomelo, headLength] at long ⊢
            omega
          have hstep := ih _ hshorter (buf.drop (pomelo.headLength + size)) rfl size' typ'
            (packets ++ [⟨typ, size, (buf.drop headLength).take size⟩])
            (not_lt.mp short) hnext
          simp only [forward_snd, hstep]
          cases pomelo.scan (buf.drop (pomelo.headLength + size)) with
          | error => rfl
          | ok => simp [Except.map, ofFrame, hsize, pomelo]
    · have short : buf.length < pomelo.headLength + size := by
        simp only [pomelo] at hlong ⊢
        omega
      rw [decodeLoop, if_neg whole, pomelo.scan_of_incomplete (Or.inr ⟨size, typ, parsed, short⟩)]
      simp [Except.map]

/-- **`Decode` is the greedy reader**, with the unread rest dropped. -/
theorem decode_eq_scan (data : Bytes) :
    decode data = (pomelo.scan data).map fun r => r.1.map ofFrame := by
  by_cases short : data.length < headLength
  · rw [decode, if_pos short, pomelo.scan_of_incomplete (Or.inl short)]
    rfl
  · cases hparse : parseHeader (data.take headLength) with
    | error =>
      rw [decode, if_neg short, pomelo.scan_of_bad_header (not_lt.mp short) hparse]
      simp only [forward, hparse]
      rfl
    | ok head =>
      obtain ⟨size, typ⟩ := head
      rw [decode, if_neg short]
      simp only [forward, hparse]
      simpa using decodeLoop_eq_scan data size typ [] (not_lt.mp short) hparse

/-! ## Round trips -/

/-- No frame `Encode` can produce starts an incomplete buffer — not even one of
exactly `2 ^ 24` body bytes, whose header announces an empty body. -/
theorem not_frame_prefix_of_incomplete {rest : Bytes} (h : pomelo.Incomplete rest)
    {typ : PacketType} {data frame : Bytes} (henc : encode typ data = .ok frame) :
    ¬ frame <+: rest := by
  rintro ⟨tail, rfl⟩
  obtain ⟨valid, -, rfl⟩ := encode_eq_ok_iff.mp henc
  have htake : (pomelo.frame (typ, data) ++ tail).take pomelo.headLength
      = typ :: intToBytes data.length := rfl
  have hlen : (pomelo.frame (typ, data) ++ tail).length
      = pomelo.headLength + data.length + tail.length := by
    rw [length_append, pomelo.frame_length]
  rcases h with short | ⟨n, t, parsed, short⟩
  · omega
  · rw [htake, show pomelo.parseHeader = parseHeader from rfl, parseHeader_intToBytes,
      if_pos valid] at parsed
    obtain ⟨rfl, -⟩ := Prod.mk.inj (Except.ok.inj parsed)
    omega

/-- **Packet framing round trip, in both directions.**  Forward: encoding any
list of packets of valid types with bodies below `2 ^ 24` bytes succeeds, and
decoding the concatenation followed by any strict prefix of one further frame
gives exactly that list, with types, lengths and bodies.  Backward: whenever
`Decode` succeeds on `b`, encoding what it returned gives a prefix of `b`, and
no frame starts the remaining suffix. -/
theorem packet_roundtrip : (∀ (ps : List (PacketType × Bytes)) (q : PacketType × Bytes),
      (∀ p ∈ q :: ps, handshake ≤ p.1 ∧ p.1 ≤ heartbeatAck ∧ p.2.length < 2 ^ 24) →
      ∃ bs frame, encodeAll ps = .ok bs ∧ encode q.1 q.2 = .ok frame ∧
        ∀ t, t <+: frame → t ≠ frame →
          decode (bs ++ t) = .ok (ps.map fun p => ⟨p.1, p.2.length, p.2⟩)) ∧
    (∀ (b : Bytes) (packets : List Packet), decode b = .ok packets →
      ∃ bs rest, encodeAll (packets.map fun p => (p.typ, p.data)) = .ok bs ∧
        b = bs ++ rest ∧
        ∀ typ data frame, encode typ data = .ok frame → ¬ frame <+: rest) := by
  constructor
  · intro ps q hall
    have hw : ∀ p ∈ q :: ps, pomelo.Writable p.1 p.2.length := fun p hp =>
      ⟨⟨(hall p hp).1, (hall p hp).2.1⟩, (hall p hp).2.2⟩
    have hps := fun p hp => hw p (List.mem_cons_of_mem q hp)
    refine ⟨_, _, encodeAll_of_writable ps hps,
      encode_of_writable (hw q List.mem_cons_self), fun t hpre hne => ?_⟩
    have hinc := pomelo.incomplete_of_prefix (hw q List.mem_cons_self) hpre hne
    rw [decode_eq_scan, pomelo.scan_frames_append ps hps, pomelo.scan_of_incomplete hinc]
    simp [Except.map, ofFrame]
  · intro b packets h
    rw [decode_eq_scan] at h
    cases hscan : pomelo.scan b with
    | error => rw [hscan] at h; cases h
    | ok r =>
      obtain ⟨frames, rest⟩ := r
      rw [hscan] at h
      obtain rfl : frames.map ofFrame = packets := Except.ok.inj h
      obtain ⟨hw, hcat, hinc⟩ := pomelo.scan_sound hscan
      have hframes : (frames.map ofFrame).map (fun p => (p.typ, p.data)) = frames := by
        simp [ofFrame, Function.comp_def]
      rw [hframes]
      exact ⟨_, rest, encodeAll_of_writable frames hw, hcat.symm,
        fun typ data frame henc => not_frame_prefix_of_incomplete hinc henc⟩

/-- Two heartbeats and a truncated data packet. -/
theorem packet_roundtrip_heartbeats :
    decode [3, 0, 0, 0, 3, 0, 0, 1, 9, 4, 0, 0, 2, 7]
      = .ok [⟨3, 0, []⟩, ⟨3, 1, [9]⟩] := by
  obtain ⟨bs, frame, hbs, hframe, hdecode⟩ :=
    packet_roundtrip.1 [(3, []), (3, [9])] (4, [7, 7]) (by decide)
  obtain rfl : [3, 0, 0, 0, 3, 0, 0, 1, 9] = bs := Except.ok.inj hbs
  obtain rfl : [4, 0, 0, 2, 7, 7] = frame := Except.ok.inj hframe
  exact hdecode [4, 0, 0, 2, 7] (by decide) (by decide)

/-! ## The size limit -/

theorem writable_of_decode {buf : Bytes} {packets : List Packet} (h : decode buf = .ok packets) :
    ∀ p ∈ packets, pomelo.Writable p.typ p.data.length := by
  rw [decode_eq_scan] at h
  cases hscan : pomelo.scan buf with
  | error => rw [hscan] at h; cases h
  | ok r =>
    rw [hscan] at h
    obtain rfl : r.1.map ofFrame = packets := Except.ok.inj h
    intro p hp
    obtain ⟨f, hf, rfl⟩ := mem_map.mp hp
    exact (pomelo.scan_sound hscan).1 f hf

theorem parseHeader_of_encode {typ : PacketType} {data frame : Bytes}
    (h : encode typ data = .ok frame) :
    parseHeader (frame.take headLength) = .ok (data.length % 2 ^ 24, typ) := by
  obtain ⟨valid, -, rfl⟩ := encode_eq_ok_iff.mp h
  have htake : (pomelo.frame (typ, data)).take headLength = typ :: intToBytes data.length := rfl
  rw [htake, parseHeader_intToBytes, if_pos valid]

/-- The header carries every length below the limit, and not the limit itself. -/
theorem mod_eq_self_iff_ne_max {n : ℕ} (h : n ≤ maxPacketSize) :
    n % 2 ^ 24 = n ↔ n ≠ maxPacketSize := by
  simp only [maxPacketSize, Nat.shiftLeft_eq] at h ⊢
  omega

theorem decode_frame {f : PacketType × Bytes} (h : pomelo.Writable f.1 f.2.length) :
    decode (pomelo.frame f) = .ok [ofFrame f] := by
  have hscan := pomelo.scan_frame_append h []
  have hnil : pomelo.scan [] = .ok ([], []) := pomelo.scan_of_incomplete (Or.inl (by decide))
  rw [append_nil, hnil] at hscan
  rw [decode_eq_scan, hscan]
  rfl

theorem decode_of_encode_iff {typ : PacketType} {data frame : Bytes}
    (h : encode typ data = .ok frame) :
    decode frame = .ok [⟨typ, data.length, data⟩] ↔ data.length ≠ maxPacketSize := by
  obtain ⟨valid, small, rfl⟩ := encode_eq_ok_iff.mp h
  constructor
  · intro hdecode
    have hw := writable_of_decode hdecode _ mem_cons_self
    exact ne_of_lt hw.2
  · intro hne
    exact decode_frame (f := (typ, data)) ⟨valid, lt_of_le_of_ne small hne⟩

/-- **Where encoder and decoder agree on the size limit.**  A body that `Encode`
accepts has its length read back, and its frame decoded to itself, exactly when
it is not of the largest accepted size; that one is announced as an empty body.
Every length that `ParseHeader` accepts is accepted by `Encode`. -/
theorem size_limit_agreement (typ : PacketType) (data : Bytes) :
    (∀ frame, encode typ data = .ok frame →
      (bytesToInt (intToBytes data.length) = data.length ↔ data.length ≠ maxPacketSize) ∧
      (parseHeader (frame.take headLength) = .ok (data.length, typ) ↔
        data.length ≠ maxPacketSize) ∧
      (decode frame = .ok [⟨typ, data.length, data⟩] ↔ data.length ≠ maxPacketSize) ∧
      (data.length = maxPacketSize → parseHeader (frame.take headLength) = .ok (0, typ))) ∧
    (∀ header, parseHeader header = .ok (data.length, typ) →
      ∃ frame, encode typ data = .ok frame) := by
  constructor
  · intro frame h
    have hmod := mod_eq_self_iff_ne_max (encode_eq_ok_iff.mp h).2.1
    refine ⟨?_, ?_, decode_of_encode_iff h, ?_⟩
    · rw [bytesToInt_intToBytes, hmod]
    · rw [parseHeader_of_encode h, Except.ok.injEq, Prod.mk.injEq, hmod, eq_self, and_true]
    · intro hmax
      rw [parseHeader_of_encode h, hmax]
      rfl
  · intro header h
    obtain ⟨valid, hlt, -⟩ := parseHeader_eq_ok h
    exact ⟨_, encode_of_writable (f := (typ, data)) ⟨valid, hlt⟩⟩

/-- One data packet of two bytes. -/
theorem size_limit_agreement_data :
    decode [4, 0, 0, 2, 7, 8] = .ok [⟨4, 2, [7, 8]⟩] ∧
      ∃ frame, encode 4 [7, 8] = .ok frame :=
  ⟨((size_limit_agreement 4 [7, 8]).1 [4, 0, 0, 2, 7, 8] rfl).2.2.1.mpr (by decide),
    (size_limit_agreement 4 [7, 8]).2 [4, 0, 0, 2] rfl⟩

/-- A data packet of `2 ^ 24` zero bytes is accepted, and its header announces
nothing. -/
theorem encode_largest_announces_nothing :
    ∃ frame, encode 4 (List.replicate (2 ^ 24) 0) = .ok frame ∧
      parseHeader (frame.take headLength) = .ok (0, 4) ∧
      decode frame ≠ .ok [⟨4, 2 ^ 24, List.replicate (2 ^ 24) 0⟩] := by
  have hlen : (List.replicate (2 ^ 24) (0 : UInt8)).length = 2 ^ 24 := List.length_replicate
  generalize List.replicate (2 ^ 24) (0 : UInt8) = data at hlen ⊢
  have hmax : data.length = maxPacketSize := hlen
  have henc : encode 4 data = .ok (pomelo.frame (4, data)) :=
    encode_eq_ok_iff.mpr ⟨by decide, hmax.le, rfl⟩
  refine ⟨_, henc, ?_, ?_⟩
  · rw [parseHeader_of_encode henc, hlen]
    rfl
  · rw [← hlen]
    exact fun hdecode => (decode_of_encode_iff henc).mp hdecode hmax

end Packet

end Pitaya.Conn
