import Pitaya.Conn.Packet
import Pitaya.Foundations.Transport

/-!
# Three framers of one stream

The packets of a stream are cut out in three places: the client reads them off
its connection with `io.ReadFull` (`readPacket`), the TCP acceptor reads frames
off its own with a limited `io.ReadAll` (`GetNextMessage`), and the agent decodes
each of those frames from a buffer (`Conn.Packet.decode`).

The client takes the frame at the front of what is left of the stream, however the
transport cuts it up (`readPacket_takes`).  So does the acceptor, except that it loses
a frame whose last bytes come in the same `Read` as an error other than end of file:
`io.ReadAll` hands the error on and `GetNextMessage` drops what was read
(`getNextMessage_takes`).  `framers_agree_iff` says what follows for whole streams.
-/

universe u

namespace Pitaya.Conn.Packet

open List Transport

variable {ε : Type u}

/-! ## The stream readers -/

/-- The errors with which a stream reader stops. -/
inductive FramerError (ε : Type u) where
  /-- An error of `io.ReadFull` or `io.ReadAll`. -/
  | read (err : Transport.ReadError ε)
  /-- An error of `codec.ParseHeader`. -/
  | codec (err : CodecError)
  /-- `constants.ErrConnectionClosed`, "client connection closed". -/
  | connectionClosed
  /-- `constants.ErrReceivedMsgSmallerThanExpected`, "received less data than
  expected, EOF?". -/
  | receivedMsgSmallerThanExpected
  deriving DecidableEq, Repr

/-- The client's `readPacket`. -/
def readPacket (reader : Transport UInt8 ε) :
    Except (FramerError ε) Packet × Transport UInt8 ε :=
  match reader.readFull headLength with
  | (.error e, reader) => (.error (.read e), reader)
  | (.ok header, reader) =>
    match parseHeader header with
    | .error e => (.error (.codec e), reader)
    | .ok (length, typ) =>
      match reader.readFull length with
      | (.error e, reader) => (.error (.read e), reader)
      | (.ok data, reader) => (.ok ⟨typ, length, data⟩, reader)

/-- `tcpPlayerConn.GetNextMessage`.  `room` is the free space of the buffers of
`io.ReadAll`. -/
def getNextMessage (room : ℕ → ℕ) (conn : Transport UInt8 ε) :
    Except (FramerError ε) Bytes × Transport UInt8 ε :=
  match conn.readAllLimit room headLength with
  | (.error e, conn) => (.error (.read e), conn)
  | (.ok header, conn) =>
    -- a header without data is a closed connection
    if header.length = 0 then (.error .connectionClosed, conn)
    else
      match parseHeader header with
      | .error e => (.error (.codec e), conn)
      | .ok (msgSize, _) =>
        match conn.readAllLimit room msgSize with
        | (.error e, conn) => (.error (.read e), conn)
        | (.ok msgData, conn) =>
          if msgData.length < msgSize then (.error .receivedMsgSmallerThanExpected, conn)
          else (.ok (header ++ msgData), conn)

/-! ## Both take the frame at the front -/

/-- What a call of a reader returned, against the frame at the front of the
stream: the frame as the reader shows it, or an error if there is none. -/
def Takes {β : Type} (shown : PacketType × Bytes → β)
    (result : Except (FramerError ε) β × Transport UInt8 ε) :
    Option ((PacketType × Bytes) × Bytes) → Prop
  | some (f, rest) => result.1 = .ok (shown f) ∧ result.2.rest = rest
  | none => ∃ e, result.1 = .error e

theorem readPacket_takes (reader : Transport UInt8 ε) :
    Takes ofFrame (readPacket reader) (pomelo.next? reader.rest) := by
  have hfront := pomelo.front_next? reader.rest
  generalize pomelo.next? reader.rest = found at hfront ⊢
  cases hfront with
  | short short =>
    obtain ⟨e, reader', hread⟩ := readFull_of_lt (n := headLength) short
    rw [readPacket, hread]
    exact ⟨.read e, rfl⟩
  | bad e long bad =>
    obtain ⟨reader', hread, -⟩ := readFull_of_le (n := headLength) long
    have hparse : parseHeader (reader.rest.take headLength) = .error e := bad
    rw [readPacket, hread]
    simp only [hparse]
    exact ⟨.codec e, rfl⟩
  | cut n typ long parsed short =>
    obtain ⟨reader', hread, hrest⟩ := readFull_of_le (n := headLength) long
    have hparse : parseHeader (reader.rest.take headLength) = .ok (n, typ) := parsed
    have hshort : reader'.rest.length < n := by
      rw [hrest, length_drop]
      exact Nat.sub_lt_left_of_lt_add long short
    obtain ⟨e, reader'', hbody⟩ := readFull_of_lt hshort
    rw [readPacket, hread]
    simp only [hparse, hbody]
    exact ⟨.read e, rfl⟩
  | whole n typ parsed whole =>
    obtain ⟨reader', hread, hrest⟩ := readFull_of_le (n := headLength)
      (le_trans (Nat.le_add_right _ n) whole)
    have hparse : parseHeader (reader.rest.take headLength) = .ok (n, typ) := parsed
    have hlong : n ≤ reader'.rest.length := by
      rw [hrest, length_drop]
      exact Nat.le_sub_of_add_le' whole
    obtain ⟨reader'', hbody, hrest'⟩ := readFull_of_le hlong
    have hlength := length_take_of_le hlong
    rw [hrest, drop_drop] at hrest'
    rw [hrest] at hbody hlength
    rw [readPacket, hread]
    simp only [hparse, hbody]
    exact ⟨by rw [ofFrame, show pomelo.headLength = headLength from rfl, hlength], hrest'⟩

/-- The frame that the acceptor gets: the one at the front, unless an error comes with its last
bytes. -/
def front? (conn : Transport UInt8 ε) : Option ((PacketType × Bytes) × Bytes) :=
  (pomelo.next? conn.rest).filter fun found => !(conn.failsWithLast && found.2.isEmpty)

theorem front?_none {conn : Transport UInt8 ε} (h : pomelo.next? conn.rest = none) :
    front? conn = none := by
  rw [front?, h, Option.filter_none]

theorem front?_some {conn : Transport UInt8 ε} {found : (PacketType × Bytes) × Bytes}
    (h : pomelo.next? conn.rest = some found) :
    front? conn = if conn.failsWithLast = true ∧ found.2 = [] then none else some found := by
  rw [front?, h, Option.filter_some]
  by_cases hlost : conn.failsWithLast = true ∧ found.2 = []
  · rw [if_pos hlost, hlost.1, hlost.2]
    rfl
  · rw [if_neg hlost, if_pos]
    rwa [Bool.not_eq_true', Bool.and_eq_false_iff, Bool.eq_false_iff, ← Bool.not_eq_true,
      List.isEmpty_iff, ← not_and_or]

theorem getNextMessage_of_header {room : ℕ → ℕ} {conn conn' : Transport UInt8 ε} {header : Bytes}
    {n : ℕ} {typ : PacketType} (hread : conn.readAllLimit room headLength = (.ok header, conn'))
    (hparse : parseHeader header = .ok (n, typ)) :
    getNextMessage room conn = match conn'.readAllLimit room n with
      | (.error e, conn) => (.error (.read e), conn)
      | (.ok msgData, conn) =>
        if msgData.length < n then (.error .receivedMsgSmallerThanExpected, conn)
        else (.ok (header ++ msgData), conn) := by
  have hfull : ¬ header.length = 0 := by
    rw [(parseHeader_eq_ok hparse).2.2]
    exact Nat.succ_ne_zero _
  rw [getNextMessage, hread]
  simp only [hparse, if_neg hfull]

/-- An error comes with the last bytes of the header, of the body, or with neither. -/
theorem getNextMessage_of_whole (room : ℕ → ℕ) {conn : Transport UInt8 ε} {n : ℕ}
    {typ : PacketType} (hparse : parseHeader (conn.rest.take headLength) = .ok (n, typ))
    (whole : headLength + n ≤ conn.rest.length) :
    Takes pomelo.frame (getNextMessage room conn)
      (if conn.failsWithLast = true ∧ conn.rest.drop (headLength + n) = [] then none
      else some ((typ, (conn.rest.drop headLength).take n), conn.rest.drop (headLength + n))) := by
  rcases readAllLimit_of_le room (le_trans (Nat.le_add_right _ n) whole) with
    ⟨hfails, hlast, e, conn', hread⟩ | ⟨-, conn', hread, hrest, hsame⟩
  · have hbehind : conn.rest.drop (headLength + n) = [] :=
      drop_of_length_le (hlast ▸ Nat.le_add_right headLength n)
    rw [if_pos ⟨hfails, hbehind⟩, getNextMessage, hread]
    exact ⟨.read e, rfl⟩
  have hlong : n ≤ conn'.rest.length := by
    rw [hrest, length_drop]
    exact Nat.le_sub_of_add_le' whole
  rw [getNextMessage_of_header hread hparse, ← drop_drop, ← hrest, ← hsame]
  rcases readAllLimit_of_le room hlong with
    ⟨hfails, hlast, e, conn'', hbody⟩ | ⟨hfails, conn'', hbody, hrest', -⟩
  · rw [if_pos ⟨hfails, drop_of_length_le hlast.le⟩, hbody]
    exact ⟨.read e, rfl⟩
  · have hlength := length_take_of_le hlong
    rw [if_neg fun h => absurd (drop_eq_nil_iff.mp h.2) (Nat.not_le.mpr (hfails h.1)), hbody]
    simp only [if_neg (Nat.not_lt.mpr hlength.ge)]
    -- the header that was read is the one the frame is written with
    rw [(parseHeader_eq_ok hparse).2.2]
    refine ⟨?_, hrest'⟩
    rw [Framing.Format.frame, hlength]
    rfl

theorem getNextMessage_takes (room : ℕ → ℕ) (conn : Transport UInt8 ε) :
    Takes pomelo.frame (getNextMessage room conn) (front? conn) := by
  have hfront := pomelo.front_next? conn.rest
  generalize hnext : pomelo.next? conn.rest = found at hfront
  cases hfront with
  | short short =>
    rw [front?_none hnext]
    obtain ⟨conn', hread | ⟨e, hread⟩⟩ := readAllLimit_of_lt room (n := headLength) short
    · have hparse : parseHeader conn.rest = .error .invalidPomeloHeader := by
        rw [parseHeader, if_pos (show conn.rest.length ≠ headLength from Nat.ne_of_lt short)]
      rw [getNextMessage, hread]
      simp only [hparse]
      split
      · exact ⟨.connectionClosed, rfl⟩
      · exact ⟨.codec .invalidPomeloHeader, rfl⟩
    · rw [getNextMessage, hread]
      exact ⟨.read e, rfl⟩
  | bad e long bad =>
    rw [front?_none hnext, getNextMessage]
    have hparse : parseHeader (conn.rest.take headLength) = .error e := bad
    rcases readAllLimit_of_le room (n := headLength) long with
      ⟨-, -, e', conn', hread⟩ | ⟨-, conn', hread, -⟩
    · rw [hread]
      exact ⟨.read e', rfl⟩
    · rw [hread]
      simp only [hparse]
      split
      · exact ⟨.connectionClosed, rfl⟩
      · exact ⟨.codec e, rfl⟩
  | cut n typ long parsed short =>
    rw [front?_none hnext]
    rcases readAllLimit_of_le room (n := headLength) long with
      ⟨-, -, e', conn', hread⟩ | ⟨-, conn', hread, hrest, -⟩
    · rw [getNextMessage, hread]
      exact ⟨.read e', rfl⟩
    have hshort : conn'.rest.length < n := by
      rw [hrest, length_drop]
      exact Nat.sub_lt_left_of_lt_add long short
    rw [getNextMessage_of_header hread parsed]
    obtain ⟨conn'', hbody | ⟨e, hbody⟩⟩ := readAllLimit_of_lt room hshort
    · rw [hbody]
      simp only [if_pos hshort]
      exact ⟨.receivedMsgSmallerThanExpected, rfl⟩
    · rw [hbody]
      exact ⟨.read e, rfl⟩
  | whole n typ parsed whole =>
    rw [front?_some hnext]
    exact getNextMessage_of_whole room parsed whole

theorem getNextMessage_failsWithLast {room : ℕ → ℕ} {conn : Transport UInt8 ε} {b : Bytes}
    (h : (getNextMessage room conn).1 = .ok b) :
    (getNextMessage room conn).2.failsWithLast = conn.failsWithLast := by
  unfold getNextMessage at h ⊢
  split at h
  · cases h
  · next header conn' hheader =>
    split at h
    · cases h
    · next hfull =>
      rw [if_neg hfull]
      split at h
      · cases h
      · split at h
        · cases h
        · next data conn'' hdata =>
          split at h
          · cases h
          · next hlong =>
            rw [if_neg hlong]
            exact (readAllLimit_failsWithLast hdata).trans (readAllLimit_failsWithLast hheader)

/-! ## Reading until failure -/

/-- Iterate a reader until it fails.  A call that succeeds takes something. -/
def untilFailure {β : Type}
    (read : Transport UInt8 ε → Except (FramerError ε) β × Transport UInt8 ε)
    (hshorter : ∀ r b, (read r).1 = .ok b → (read r).2.rest.length < r.rest.length)
    (r : Transport UInt8 ε) : List β :=
  match _h : (read r).1 with
  | .error _ => []
  | .ok b => b :: untilFailure read hshorter (read r).2
termination_by r.rest.length
decreasing_by exact hshorter r b _h

section UntilFailure

variable {β : Type} {shown : PacketType × Bytes → β}
  {found : Transport UInt8 ε → Option ((PacketType × Bytes) × Bytes)}
  {read : Transport UInt8 ε → Except (FramerError ε) β × Transport UInt8 ε}
  (htakes : ∀ r, Takes shown (read r) (found r))

include htakes

theorem found_of_ok {r : Transport UInt8 ε} {b : β} (hok : (read r).1 = .ok b) :
    ∃ f, found r = some (f, (read r).2.rest) ∧ b = shown f := by
  have hr := htakes r
  cases hnext : found r with
  | none =>
    rw [hnext, Takes, hok] at hr
    obtain ⟨e, ⟨⟩⟩ := hr
  | some x =>
    rw [hnext, Takes, hok] at hr
    obtain ⟨hshown, hrest⟩ := hr
    exact ⟨x.1, by rw [hrest], Except.ok.inj hshown⟩

theorem read_shorter
    (hfound : ∀ r f rest, found r = some (f, rest) → pomelo.next? r.rest = some (f, rest))
    (r : Transport UInt8 ε) (b : β) (hok : (read r).1 = .ok b) :
    (read r).2.rest.length < r.rest.length := by
  obtain ⟨f, hf, -⟩ := found_of_ok htakes hok
  exact pomelo.next?_length (hfound _ _ _ hf)

/-- The iteration delivers the frames that the reader takes one by one. -/
theorem untilFailure_eq
    (hshorter : ∀ r b, (read r).1 = .ok b → (read r).2.rest.length < r.rest.length)
    {frames : Transport UInt8 ε → List (PacketType × Bytes)}
    (hnone : ∀ r, found r = none → frames r = [])
    (hsome : ∀ r f b, (read r).1 = .ok b → found r = some (f, (read r).2.rest) →
      frames r = f :: frames (read r).2) (r : Transport UInt8 ε) :
    untilFailure read hshorter r = (frames r).map shown := by
  fun_induction untilFailure read hshorter r with
  | case1 r e hfailed =>
    have hr := htakes r
    cases hnext : found r with
    | none => rw [hnone r hnext, map_nil]
    | some =>
      rw [hnext, Takes, hfailed] at hr
      cases hr.1
  | case2 r b hok ih =>
    obtain ⟨f, hf, rfl⟩ := found_of_ok htakes hok
    rw [ih, hsome r f _ hok hf, map_cons]

end UntilFailure

/-- The packets the client reads, until `readPacket` fails. -/
def readPackets (reader : Transport UInt8 ε) : List Packet :=
  untilFailure readPacket (read_shorter readPacket_takes fun _ _ _ h => h) reader

variable (conn : Transport UInt8 ε)

theorem next?_of_front? (f : PacketType × Bytes) (rest : Bytes)
    (h : front? conn = some (f, rest)) : pomelo.next? conn.rest = some (f, rest) :=
  (Option.filter_eq_some_iff.mp h).1

/-- The frames the acceptor reads, until `GetNextMessage` fails. -/
def getNextMessages (room : ℕ → ℕ) (conn : Transport UInt8 ε) : List Bytes :=
  untilFailure (getNextMessage room) (read_shorter (getNextMessage_takes room) next?_of_front?) conn

theorem readPackets_eq (reader : Transport UInt8 ε) :
    readPackets reader = (pomelo.frames reader.rest).map ofFrame :=
  untilFailure_eq readPacket_takes _ (fun _ => pomelo.frames_of_none)
    (fun _ _ _ _ => pomelo.frames_of_some) reader

/-- **The condition.**  An error other than end of file comes in the same `Read` as the last
bytes of a whole packet. -/
def LosesLast : Prop :=
  conn.failsWithLast = true ∧ (pomelo.frames conn.rest).flatMap pomelo.frame = conn.rest

instance (conn : Transport UInt8 ε) : Decidable (LosesLast conn) :=
  inferInstanceAs (Decidable (_ ∧ _))

/-- The frames that the acceptor gets. -/
def received : List (PacketType × Bytes) :=
  if LosesLast conn then (pomelo.frames conn.rest).dropLast else pomelo.frames conn.rest

theorem frames_ne_nil {conn : Transport UInt8 ε} (h : LosesLast conn) :
    pomelo.frames conn.rest ≠ [] := by
  intro hnil
  have hwhole := h.2
  rw [hnil, flatMap_nil] at hwhole
  exact rest_ne_nil h.1 hwhole.symm

theorem received_of_none {conn : Transport UInt8 ε} (h : front? conn = none) :
    received conn = [] := by
  cases hnext : pomelo.next? conn.rest with
  | none => rw [received, pomelo.frames_of_none hnext, dropLast_nil, ite_self]
  | some found =>
    rw [front?_some hnext] at h
    split at h
    · next hlost =>
      have hframes : pomelo.frames conn.rest = [found.1] := by
        rw [pomelo.frames_of_some hnext, hlost.2, pomelo.frames_of_none rfl]
      have hwhole := (pomelo.next?_eq_some hnext).2
      rw [hlost.2, append_nil] at hwhole
      rw [received, if_pos ⟨hlost.1, by rw [hframes, flatMap_singleton, ← hwhole]⟩, hframes]
      rfl
    · cases h

theorem received_of_some {conn conn' : Transport UInt8 ε} {f : PacketType × Bytes}
    (h : front? conn = some (f, conn'.rest)) (hfails : conn'.failsWithLast = conn.failsWithLast) :
    received conn = f :: received conn' := by
  have hnext := next?_of_front? conn f _ h
  have hframes := pomelo.frames_of_some hnext
  have hlost : LosesLast conn ↔ LosesLast conn' := by
    rw [LosesLast, LosesLast, hfails, hframes, flatMap_cons]
    conv_lhs => rw [(pomelo.next?_eq_some hnext).2]
    rw [append_cancel_left_eq]
  rw [received, received, hframes]
  by_cases hl : LosesLast conn
  · rw [if_pos hl, if_pos (hlost.mp hl), dropLast_cons_of_ne_nil (frames_ne_nil (hlost.mp hl))]
  · rw [if_neg hl, if_neg (hlost.not.mp hl)]

theorem getNextMessages_eq (room : ℕ → ℕ) (conn : Transport UInt8 ε) :
    getNextMessages room conn = (received conn).map pomelo.frame :=
  untilFailure_eq (getNextMessage_takes room) _ (fun _ => received_of_none)
    (fun _ _ _ hok hf => received_of_some hf (getNextMessage_failsWithLast hok)) conn

/-- A frame that is lost shows in the number of those received. -/
theorem losesLast_iff :
    LosesLast conn ↔ (received conn).length ≠ (pomelo.frames conn.rest).length := by
  rw [received]
  split
  · next hlost =>
    have hpos := length_pos_iff.mpr (frames_ne_nil hlost)
    rw [length_dropLast]
    exact iff_of_true hlost (Nat.sub_lt hpos Nat.one_pos).ne
  · next hkept => exact iff_of_false hkept (not_not_intro rfl)

theorem received_congr {conn conn' : Transport UInt8 ε} (hsame : conn'.rest = conn.rest)
    (h : LosesLast conn' ↔ LosesLast conn) : received conn' = received conn := by
  rw [received, received, hsame]
  exact if_congr h rfl rfl

theorem received_subset : received conn ⊆ pomelo.frames conn.rest := by
  rw [received]
  split
  · exact dropLast_subset _
  · exact Subset.refl _

/-- **Where the three framers agree.**  On every stream, however the transport cuts it up and
whatever ends it, unless an error other than end of file comes with the last bytes of a whole
packet: each frame of the acceptor is decoded to exactly one packet, and these are the packets
the client reads; the frames are the front of the stream, they are what the packets are written
as, and there is no frame in what is behind them.  Where such an error comes, the acceptor loses
the last of the client's packets.  The client's packets do not depend on the fragmentation, and
the acceptor's frames depend on it through this alone. -/
theorem framers_agree_iff (room : ℕ → ℕ) (conn : Transport UInt8 ε) :
    (((getNextMessages room conn).map decode = (readPackets conn).map (fun p => .ok [p]) ∧
      ∃ behind, conn.rest = (getNextMessages room conn).flatten ++ behind ∧
        getNextMessages room conn =
          (readPackets conn).map (fun p => p.typ :: intToBytes p.length ++ p.data) ∧
        pomelo.next? behind = none) ↔ ¬ LosesLast conn) ∧
    (LosesLast conn → readPackets conn ≠ [] ∧
      (getNextMessages room conn).map decode = (readPackets conn).dropLast.map fun p => .ok [p]) ∧
    ∀ (room' : ℕ → ℕ) (conn' : Transport UInt8 ε), conn'.rest = conn.rest →
      readPackets conn' = readPackets conn ∧
        (getNextMessages room' conn' = getNextMessages room conn ↔
          (LosesLast conn' ↔ LosesLast conn)) := by
  obtain ⟨hwritable, behind, hrest, hnone⟩ := pomelo.frames_sound conn.rest
  have hdecode : (getNextMessages room conn).map decode =
      (received conn).map fun f => .ok [ofFrame f] := by
    rw [getNextMessages_eq, List.map_map]
    exact List.map_congr_left fun f hf => decode_frame (hwritable f (received_subset conn hf))
  refine ⟨⟨?_, fun hkept => ?_⟩, fun hlost => ?_, fun room' conn' hsame => ?_⟩
  · rintro ⟨hequal, -⟩ hlost
    have hlength := congrArg List.length hequal
    rw [hdecode, length_map, readPackets_eq, length_map, length_map] at hlength
    exact (losesLast_iff conn).mp hlost hlength
  · have hreceived : received conn = pomelo.frames conn.rest := if_neg hkept
    rw [hreceived] at hdecode
    refine ⟨?_, behind, ?_, ?_, hnone⟩
    · rw [hdecode, readPackets_eq, List.map_map]
      rfl
    · rw [getNextMessages_eq, hreceived, ← List.flatMap_def]
      exact hrest
    · rw [getNextMessages_eq, readPackets_eq, hreceived, List.map_map]
      rfl
  · rw [readPackets_eq, hdecode, received, if_pos hlost, ← map_dropLast, List.map_map]
    exact ⟨fun hnil => frames_ne_nil hlost (map_eq_nil_iff.mp hnil), rfl⟩
  · refine ⟨by rw [readPackets_eq, readPackets_eq, hsame], ?_⟩
    rw [getNextMessages_eq, getNextMessages_eq]
    refine ⟨fun hequal => ?_, fun hlost => by rw [received_congr hsame hlost]⟩
    have hlength := congrArg List.length hequal
    rw [length_map, length_map] at hlength
    rw [losesLast_iff, losesLast_iff, hsame, hlength]

/-- A heartbeat and a data packet that is cut off by a reset of the connection. -/
def cutOff : Transport UInt8 Unit := ⟨[[3, 0, 0, 0], [], [4, 0, 0, 2, 7]], .error true ()⟩

/-- Both readers have the heartbeat before the packet that is cut off, in either fragmentation. -/
theorem framers_agree_iff_cut_off :
    getNextMessages (fun _ => 0)
        (⟨[[3, 0], [0, 0, 4], [0, 0, 2, 7]], .eof true⟩ : Transport UInt8 Unit) =
      getNextMessages (fun _ => 511) cutOff := by
  have hframes : pomelo.frames cutOff.rest = [(3, [])] := by
    have hnext : pomelo.next? cutOff.rest = some ((3, []), [4, 0, 0, 2, 7]) := by decide
    rw [pomelo.frames_of_some hnext, pomelo.frames_of_none (by decide)]
  have hkept : ¬ LosesLast cutOff := by
    rintro ⟨-, hwhole⟩
    rw [hframes] at hwhole
    cases hwhole
  have hsame := (framers_agree_iff (fun _ => 511) cutOff).2.2 (fun _ => 0)
    ⟨[[3, 0], [0, 0, 4], [0, 0, 2, 7]], .eof true⟩ rfl
  exact hsame.2.mpr (iff_of_false (fun hlost => by cases hlost.1) hkept)

/-- A heartbeat whose bytes come in one `Read` with a reset of the connection. -/
def lastHeartbeat : Transport UInt8 Unit := ⟨[[3, 0, 0, 0]], .error true ()⟩

/-- The client has read the heartbeat, the acceptor has not. -/
theorem heartbeat_lost : readPackets lastHeartbeat = [⟨3, 0, []⟩] ∧
    getNextMessages (fun _ => 511) lastHeartbeat = [] := by
  have hframes : pomelo.frames lastHeartbeat.rest = [(3, [])] := by
    have hnext : pomelo.next? lastHeartbeat.rest = some ((3, []), []) := by decide
    rw [pomelo.frames_of_some hnext, pomelo.frames_of_none (by decide)]
  have hlost : LosesLast lastHeartbeat := ⟨rfl, by rw [hframes]; rfl⟩
  rw [getNextMessages_eq, readPackets_eq, received, if_pos hlost, hframes]
  exact ⟨rfl, rfl⟩

end Pitaya.Conn.Packet
