import Mathlib.Data.Finmap
import Pitaya.Foundations.BigEndian
import Pitaya.Foundations.Varint

/-!
# Messages

`conn/message`: the application message inside a data packet.  The layout is

    flag ‖ id (Request, Response) ‖ route (Request, Notify, Push) ‖ payload

where the flag byte carries the type, the error bit, the compressed-payload bit
and the compressed-route bit, the id is a base-128 varint, and the route is
either a two byte code from the route dictionary or a length byte and the text.

* `Dictionary`, `setDictionary` — the tables `routes` and `codes` of
  `message.go` and the only function that writes them.  An argument map is given
  as the list of its entries in the order the `range` loop visits them.
* `encode` — `MessagesEncoder.Encode`, returning the bytes *and* the message as
  the call leaves it: compression assigns the deflated payload to
  `message.Data`.
* `decode` — `Decode`, with every index and slice expression checked.

`Compression` is the zlib pair of `util/compression`.  `Dictionary.Inverse` is
the invariant of the tables, `decode_wire` the layout read back piece by
piece, and `message_roundtrip` the round trip.
-/

namespace Pitaya.Conn

open Outcome List Finmap Nat

/-! ## Types and constants -/

/-- `message.Type`, a byte. -/
abbrev MessageType : Type := UInt8

namespace MessageType

/-- `message.Request`. -/
def request : MessageType := 0x00
/-- `message.Notify`. -/
def notify : MessageType := 0x01
/-- `message.Response`. -/
def response : MessageType := 0x02
/-- `message.Push`. -/
def push : MessageType := 0x03

variable (t : MessageType)

def routable : Bool := t == request || t == notify || t == push

def invalidType : Bool := decide (t < request) || decide (t > push)

/-- The types whose messages carry an id. -/
def hasID : Bool := t == request || t == response

end MessageType

/-- `message.Message`.  `id` is Go's `uint`, 64 bits. -/
structure Message where
  typ : MessageType := MessageType.request
  id : UInt64 := 0
  route : Bytes := []
  data : Bytes := []
  compressed : Bool := false
  err : Bool := false
  deriving DecidableEq, Repr

namespace Message

def errorMask : UInt8 := 0x20
def gzipMask : UInt8 := 0x10
def msgRouteCompressMask : UInt8 := 0x01
def msgTypeMask : UInt8 := 0x07
def msgHeadLength : ℕ := 0x02

/-- The errors of `conn/message`. -/
inductive MessageError where
  /-- `ErrWrongMessageType`, "wrong message type". -/
  | wrongMessageType
  /-- `ErrInvalidMessage`, "invalid message". -/
  | invalidMessage
  /-- `ErrRouteInfoNotFound`, "route info not found in dictionary". -/
  | routeInfoNotFound
  /-- An error of the compressor, passed through. -/
  | compression (text : Bytes)
  deriving DecidableEq, Repr

/-- `util/compression`: `DeflateData` and `InflateData`, with error texts. -/
structure Compression where
  deflateData : Bytes → Except Bytes Bytes
  inflateData : Bytes → Except Bytes Bytes

variable (zlib : Compression)

/-- `InflateData` inverts `DeflateData`. -/
def Compression.Inverts : Prop :=
  ∀ d d', zlib.deflateData d = .ok d' → zlib.inflateData d' = .ok d

/-! ## The route dictionary -/

/-- The tables `routes` and `codes`. -/
structure Dictionary where
  routes : Finmap fun _ : Bytes => UInt16
  codes : Finmap fun _ : UInt16 => Bytes
  deriving DecidableEq

/-- `duplicated route(route: %s, code: %d)`. -/
structure DuplicatedRoute where
  route : Bytes
  code : UInt16
  deriving DecidableEq, Repr

namespace Dictionary

/-- Both tables as `make` leaves them. -/
def empty : Dictionary := ⟨∅, ∅⟩

/-- One iteration of the loop of `SetDictionary`: trim, check both tables, store
in both. -/
def addRoute (d : Dictionary) (route : Bytes) (code : UInt16) :
    Except DuplicatedRoute Dictionary :=
  let r := route.trimSpace
  if (d.routes.lookup r).isSome then .error ⟨r, code⟩
  else if (d.codes.lookup code).isSome then .error ⟨r, code⟩
  else .ok ⟨d.routes.insert r code, d.codes.insert code r⟩

/-- `SetDictionary`: the loop stops at the first duplicate and keeps what it has
stored so far. -/
def setDictionary (d : Dictionary) :
    List (Bytes × UInt16) → Option DuplicatedRoute × Dictionary
  | [] => (none, d)
  | (route, code) :: dict =>
    match d.addRoute route code with
    | .error e => (some e, d)
    | .ok d' => d'.setDictionary dict

/-- The tables after a sequence of `SetDictionary` calls, successful or not, in
a fresh process. -/
def after (calls : List (List (Bytes × UInt16))) : Dictionary :=
  calls.foldl (fun d dict => (d.setDictionary dict).2) empty

end Dictionary

/-! ## Encoder -/

/-- The id loop of `Encode`: emit seven bits, shift, until nothing is left. -/
def appendID (n : UInt64) : Bytes :=
  let b := UInt8.ofNat (n.toNat % 128)
  let n' := n >>> 7
  if n' ≠ 0 then (b + 128) :: appendID n' else [b]
termination_by n.toNat
decreasing_by
  have hne : n.toNat / 2 ^ 7 ≠ 0 := by
    intro hzero
    have hshift : (n >>> 7).toNat = 0 := by
      rw [UInt64.toNat_shiftRight]
      simpa [Nat.shiftRight_eq_div_pow] using hzero
    exact ‹n' ≠ 0› (UInt64.toNat_inj.mp hshift)
  rw [UInt64.toNat_shiftRight]
  simp only [UInt64.toNat_ofNat, Nat.reducePow, Nat.reduceMod, Nat.shiftRight_eq_div_pow]
  omega

/-- The route part of an encoded message. -/
def appendRoute (code : Option UInt16) (route : Bytes) : Bytes :=
  match code with
  | some code => [((code >>> 8) &&& 0xFF).toUInt8, (code &&& 0xFF).toUInt8]
  | none => UInt8.ofNat route.length :: route

/-- `MessagesEncoder.Encode` with the given `DataCompression`: the result, and
the message after the call. -/
def encode (dataCompression : Bool) (d : Dictionary)
    (message : Message) : Except MessageError Bytes × Message :=
  if message.typ.invalidType then (.error .wrongMessageType, message)
  else
    let code := d.routes.lookup message.route
    let flag := message.typ <<< 1
    let flag := if code.isSome then flag ||| msgRouteCompressMask else flag
    let flag := if message.err then flag ||| errorMask else flag
    let idPart := if message.typ.hasID then appendID message.id else []
    let routePart := if message.typ.routable then appendRoute code message.route else []
    if dataCompression then
      match zlib.deflateData message.data with
      | .error e => (.error (.compression e), message)
      | .ok deflated =>
        -- keep the deflated payload only where it is shorter
        if deflated.length < message.data.length then
          (.ok ((flag ||| gzipMask) :: idPart ++ routePart ++ deflated),
            { message with data := deflated })
        else (.ok (flag :: idPart ++ routePart ++ message.data), message)
    else (.ok (flag :: idPart ++ routePart ++ message.data), message)

/-! ## Decoder -/

/-- The id loop of `Decode`: `i` runs from `offset`; on a byte without the high
bit the offset moves behind it.  When the data runs out first, the offset stays
where it was. -/
def decodeID (data : Bytes) (offset i : ℕ) (id : UInt64) :
    Outcome MessageError (UInt64 × ℕ) :=
  if i < data.length then
    Outcome.index data i >>= fun b =>
      let id := id + UInt64.ofNat ((b &&& 0x7F).toNat <<< (7 * (i - offset)))
      if b < 128 then pure (id, i + 1) else decodeID data offset (i + 1) id
  else pure (id, offset)
termination_by data.length - i

variable (d : Dictionary) (flag : UInt8) (data : Bytes) (offset : ℕ)

/-- The route part of `Decode`: the route, whether it was compressed, and the
offset behind it. -/
def decodeRoute :
    Outcome MessageError (Bytes × Bool × ℕ) :=
  let size := data.length
  if flag &&& msgRouteCompressMask = 1 then
    if offset > size ∨ offset + 2 > size then .error .invalidMessage
    else do
      let code ← Outcome.slice data offset (offset + 2) >>= BigEndian.uint16
      match d.codes.lookup code with
      | none => .error .routeInfoNotFound
      | some route => pure (route, true, offset + 2)
  else
    if offset ≥ size then .error .invalidMessage
    else do
      let rl ← Outcome.index data offset
      let offset := offset + 1
      if offset > size ∨ offset + rl.toNat > size then .error .invalidMessage
      else do
        let route ← Outcome.slice data offset (offset + rl.toNat)
        pure (route, false, offset + rl.toNat)

/-- The payload part of `Decode`. -/
def decodeData :
    Outcome MessageError Bytes :=
  if offset > data.length then .error .invalidMessage
  else do
    let payload ← Outcome.sliceFrom data offset
    if flag &&& gzipMask = gzipMask then
      match zlib.inflateData payload with
      | .error e => .error (.compression e)
      | .ok inflated => pure inflated
    else pure payload

def decode :
    Outcome MessageError Message :=
  if data.length < msgHeadLength then .error .invalidMessage
  else do
    let flag ← Outcome.index data 0
    let typ : MessageType := (flag >>> 1) &&& msgTypeMask
    if typ.invalidType then .error .wrongMessageType
    else do
      let (id, offset) ← (if typ.hasID then decodeID data 1 1 0 else pure (0, 1))
      let err := decide (flag &&& errorMask = errorMask)
      let (route, compressed, offset) ←
        (if typ.routable then decodeRoute d flag data offset else pure ([], false, offset))
      let payload ← decodeData zlib flag data offset
      pure ⟨typ, id, route, payload, compressed, err⟩

/-! ## The tables stay inverse to each other -/

/-- `routes` and `codes` are inverse to each other. -/
def Dictionary.Inverse : Prop :=
  ∀ r c, d.routes.lookup r = some c ↔ d.codes.lookup c = some r

namespace Dictionary

theorem inverse_empty : empty.Inverse := by
  intro r c
  simp [empty]

theorem Inverse.addRoute {d d' : Dictionary} (inv : d.Inverse) {route : Bytes}
    {code : UInt16} (h : d.addRoute route code = .ok d') : d'.Inverse := by
  simp only [Dictionary.addRoute] at h
  split at h
  · cases h
  · next newRoute =>
    split at h
    · cases h
    · next newCode =>
      obtain rfl := Except.ok.inj h
      simp only [Option.not_isSome_iff_eq_none] at newRoute newCode
      intro r c
      by_cases hr : r = route.trimSpace
      · subst hr
        by_cases hc : c = code
        · subst hc
          simp [lookup_insert]
        · rw [lookup_insert_of_ne _ hc, ← inv, newRoute]
          simp [Ne.symm hc]
      · rw [lookup_insert_of_ne _ hr]
        by_cases hc : c = code
        · subst hc
          rw [lookup_insert, inv, newCode]
          simp [Ne.symm hr]
        · rw [lookup_insert_of_ne _ hc, inv]

theorem Inverse.setDictionary {d : Dictionary} (inv : d.Inverse)
    (dict : List (Bytes × UInt16)) : (d.setDictionary dict).2.Inverse := by
  induction dict generalizing d with
  | nil => exact inv
  | cons entry dict ih =>
    obtain ⟨route, code⟩ := entry
    rw [Dictionary.setDictionary]
    cases h : d.addRoute route code with
    | error => exact inv
    | ok => exact ih (inv.addRoute h)

/-- **Every reachable pair of tables is inverse**, whatever calls were made and
whichever of them failed part-way. -/
theorem inverse_after (calls : List (List (Bytes × UInt16))) : (after calls).Inverse := by
  have hfold : ∀ d : Dictionary, d.Inverse →
      (calls.foldl (fun d dict => (d.setDictionary dict).2) d).Inverse := by
    induction calls with
    | nil => exact fun d inv => inv
    | cons dict calls ih => exact fun d inv => ih _ (inv.setDictionary dict)
  exact hfold empty inverse_empty

end Dictionary

/-! ## Ids -/

theorem toNat_shiftRight_seven (n : UInt64) : (n >>> 7).toNat = n.toNat / 128 := by
  simp [shiftRight_eq_div_pow]

theorem appendID_eq_encode (n : UInt64) : appendID n = Varint.encode n.toNat := by
  induction n using appendID.induct with
  | case1 n n' more ih =>
    have hge : 128 ≤ n.toNat := by
      by_contra hlt
      refine more (UInt64.toNat_inj.mp ?_)
      rw [show n' = n >>> 7 from rfl, toNat_shiftRight_seven, div_eq_of_lt (not_le.mp hlt)]
      rfl
    rw [appendID, if_pos more, ih, Varint.encode_of_ge hge,
      show n' = n >>> 7 from rfl, toNat_shiftRight_seven, UInt8.ofNat_add]
    rfl
  | case2 n n' last =>
    have hlt : n.toNat < 128 := by
      have hzero := congrArg UInt64.toNat (not_not.mp last)
      rw [show n' = n >>> 7 from rfl, toNat_shiftRight_seven] at hzero
      change n.toNat / 128 = 0 at hzero
      omega
    rw [appendID, if_neg last, Varint.encode_of_lt hlt, mod_eq_of_lt hlt]

theorem and_127_toNat (b : UInt8) : (b &&& 0x7F).toNat = b.toNat % 128 := by
  exact and_two_pow_sub_one_eq_mod b.toNat 7

/-- The id loop of `Decode` reads a complete varint, wherever it stands and whatever
follows it. -/
theorem decodeID_of_drop (groups : Bytes) :
    ∀ (i : ℕ) (id : UInt64) (rest : Bytes), Varint.Complete groups → offset ≤ i →
      data.drop i = groups ++ rest →
      decodeID data offset i id =
        .ok (id + UInt64.ofNat (Varint.value groups <<< (7 * (i - offset))),
          i + groups.length) := by
  -- the induction is on the groups still to be read
  induction groups with
  | nil => exact fun _ _ _ hcomplete => hcomplete.elim
  | cons b groups ih =>
    intro i id rest hcomplete hi hdrop
    have hin : i < data.length := by
      have := congrArg length hdrop
      simp only [length_drop, cons_append, length_cons] at this
      omega
    rw [decodeID, if_pos hin, index_of_drop hdrop, ok_bind]
    by_cases hlast : b < 128
    · rw [Varint.Complete, if_pos hlast] at hcomplete
      subst hcomplete
      simp only [if_pos hlast, and_127_toNat, Varint.value, mul_zero, add_zero,
        pure_eq_ok, length_singleton]
    · rw [Varint.Complete, if_neg hlast] at hcomplete
      have hnext : data.drop (i + 1) = groups ++ rest := by
        rw [← drop_drop, hdrop]
        rfl
      have hshift : 7 * (i + 1 - offset) = 7 * (i - offset) + 7 := by omega
      have hgroups : (b.toNat % 128) <<< (7 * (i - offset)) +
            Varint.value groups <<< (7 * (i - offset) + 7) =
          Varint.value (b :: groups) <<< (7 * (i - offset)) := by
        simp only [shiftLeft_eq, Varint.value]
        ring
      simp only [if_neg hlast, and_127_toNat]
      rw [ih (i + 1) _ rest hcomplete (by omega) hnext, hshift, UInt64.add_assoc,
        ← UInt64.ofNat_add, hgroups, length_cons, add_right_comm, add_assoc]

/-! ## Routes -/

theorem decodeRoute_of_drop {d : Dictionary} {flag : UInt8} {data : Bytes} {offset : ℕ}
    {code : Option UInt16} {route rest : Bytes}
    (hflag : flag &&& msgRouteCompressMask = 1 ↔ code.isSome = true)
    (hcode : ∀ c, code = some c → d.codes.lookup c = some route)
    (hshort : code = none → route.length ≤ 255)
    (hdrop : data.drop offset = appendRoute code route ++ rest) :
    decodeRoute d flag data offset =
      .ok (route, code.isSome, offset + (appendRoute code route).length) := by
  have hsize := congrArg length hdrop
  cases code with
  | some c =>
    simp only [appendRoute, length_drop, length_append, length_cons, length_nil] at hsize
    have hin : ¬ (offset > data.length ∨ offset + 2 > data.length) := by omega
    have hslice : (slice data offset (offset + 2) : Outcome MessageError Bytes) =
        .ok [((c >>> 8) &&& 0xFF).toUInt8, (c &&& 0xFF).toUInt8] :=
      slice_of_drop (by omega) hdrop
    simp only [decodeRoute, if_pos (hflag.mpr rfl), if_neg hin, hslice, ok_bind,
      BigEndian.uint16_bytes, hcode c rfl]
    rfl
  | none =>
    have hplain : ¬ flag &&& msgRouteCompressMask = 1 := fun h => by
      simpa using hflag.mp h
    have hlen : (UInt8.ofNat route.length).toNat = route.length := by
      rw [UInt8.toNat_ofNat', mod_eq_of_lt]
      have := hshort rfl
      omega
    simp only [appendRoute, length_drop, cons_append, length_append, length_cons] at hsize
    have hbyte : ¬ offset ≥ data.length := by omega
    have hin : ¬ (offset + 1 > data.length ∨ offset + 1 + route.length > data.length) := by
      omega
    have hnext : data.drop (offset + 1) = route ++ rest := by
      rw [← drop_drop, hdrop]
      rfl
    have hslice : (slice data (offset + 1) (offset + 1 + route.length) :
        Outcome MessageError Bytes) = .ok route :=
      slice_of_drop (by omega) hnext
    simp only [decodeRoute, if_neg hplain, if_neg hbyte, index_of_drop hdrop,
      ok_bind, hlen, if_neg hin, hslice, pure_eq_ok, appendRoute,
      length_cons, Option.isSome_none]
    congr 3
    omega

theorem decodeData_of_drop {zlib : Compression} {flag : UInt8} {data payload : Bytes}
    {offset : ℕ} (hoffset : offset ≤ data.length) (hdrop : data.drop offset = payload) :
    decodeData zlib flag data offset =
      if flag &&& gzipMask = gzipMask then
        match zlib.inflateData payload with
        | .error e => .error (.compression e)
        | .ok inflated => .ok inflated
      else .ok payload := by
  simp only [decodeData, if_neg (not_lt.mpr hoffset), sliceFrom_of_le hoffset, hdrop, ok_bind]
  rfl

/-! ## Every access is in bounds -/

theorem decodeID_returns (offset i : ℕ) (id : UInt64) : (decodeID data offset i id).Returns := by
  fun_induction decodeID data offset i id with
  | case1 i id hin ih =>
    refine (index_returns hin).bind fun b _ => ?_
    split
    · exact returns_ok _
    · exact ih b
  | case2 => exact returns_ok _

theorem decodeRoute_returns : (decodeRoute d flag data offset).Returns := by
  unfold decodeRoute
  dsimp only
  split
  · split
    · exact returns_error _
    · next hin =>
      refine Outcome.Returns.bind ?_ fun code _ => ?_
      · refine (slice_returns (by omega) (by omega)).bind fun b hb => ?_
        refine BigEndian.uint16_returns ?_
        rw [slice_length hb]
        omega
      · split
        · exact returns_error _
        · exact returns_ok _
  · split
    · exact returns_error _
    · next hbyte =>
      refine (index_returns (by omega)).bind fun rl _ => ?_
      split
      · exact returns_error _
      · next hin =>
        exact (slice_returns (by omega) (by omega)).bind fun _ _ =>
          returns_ok _

theorem decodeData_returns : (decodeData zlib flag data offset).Returns := by
  unfold decodeData
  split
  · exact returns_error _
  · next hin =>
    refine (slice_returns (by omega) (le_refl _)).bind fun payload _ => ?_
    split
    · split
      · exact returns_error _
      · exact returns_ok _
    · exact returns_ok _

theorem decode_returns : (decode zlib d data).Returns := by
  unfold decode
  split
  · exact returns_error _
  · next hlength =>
    refine (index_returns (by simp only [msgHeadLength] at hlength; omega)).bind fun flag _ => ?_
    dsimp only
    split
    · exact returns_error _
    · refine Outcome.Returns.bind ?_ fun part _ => Outcome.Returns.bind ?_ fun part' _ =>
        (decodeData_returns _ _ _ _).bind fun _ _ => returns_ok _
      · split
        · exact decodeID_returns _ _ _ _
        · exact returns_ok _
      · split
        · exact decodeRoute_returns _ _ _ _
        · exact returns_ok _

/-! ## The flag byte -/

/-- The flag byte of a message: type, route bit, error bit, payload bit. -/
def flagByte (typ : MessageType) (inDict err gzip : Bool) : UInt8 :=
  let flag := typ <<< 1
  let flag := if inDict then flag ||| msgRouteCompressMask else flag
  let flag := if err then flag ||| errorMask else flag
  if gzip then flag ||| gzipMask else flag

/-- The four types of message. -/
def KnownType (typ : MessageType) : Prop :=
  typ = .request ∨ typ = .notify ∨ typ = .response ∨ typ = .push

/-- The four pieces of information in a flag byte do not disturb each other. -/
theorem flagByte_fields {typ : MessageType} (htype : KnownType typ) (inDict err gzip : Bool) :
    (flagByte typ inDict err gzip >>> 1) &&& msgTypeMask = typ ∧
      (flagByte typ inDict err gzip &&& errorMask = errorMask ↔ err = true) ∧
      (flagByte typ inDict err gzip &&& msgRouteCompressMask = 1 ↔ inDict = true) ∧
      (flagByte typ inDict err gzip &&& gzipMask = gzipMask ↔ gzip = true) := by
  rcases htype with rfl | rfl | rfl | rfl <;> revert inDict err gzip <;> decide

theorem KnownType.valid {typ : MessageType} (htype : KnownType typ) :
    typ.invalidType = false := by
  rcases htype with rfl | rfl | rfl | rfl <;> rfl

/-! ## The round trip -/

/-- What the other side reads: no route on a response, no id on a notify or a
push, and the compressed-route mark where the dictionary knows the route. -/
def received (m : Message) : Message where
  typ := m.typ
  id := if m.typ.hasID then m.id else 0
  route := if m.typ.routable then m.route else []
  data := m.data
  compressed := m.typ.routable && (d.routes.lookup m.route).isSome
  err := m.err

/-- The bytes of a message with a given payload part. -/
def wire (m : Message) (gzip : Bool) (payload : Bytes) : Bytes :=
  flagByte m.typ (d.routes.lookup m.route).isSome m.err gzip ::
    (if m.typ.hasID then appendID m.id else []) ++
    (if m.typ.routable then appendRoute (d.routes.lookup m.route) m.route else []) ++ payload

theorem encode_plain {m : Message}
    (htype : KnownType m.typ) : (encode zlib false d m).1 = .ok (wire d m false m.data) := by
  have hvalid : ¬ m.typ.invalidType = true := by rw [htype.valid]; exact Bool.false_ne_true
  simp only [encode, if_neg hvalid]
  rfl

/-- `Encode` writes `wire`: with the plain payload, or with a shorter deflated
one and the payload bit set. -/
theorem encode_eq_wire (dataCompression : Bool) (d : Dictionary)
    {m : Message} (htype : KnownType m.typ) :
    (∃ text, dataCompression = true ∧ zlib.deflateData m.data = .error text ∧
      (encode zlib dataCompression d m).1 = .error (.compression text)) ∨
    (encode zlib dataCompression d m).1 = .ok (wire d m false m.data) ∨
    (∃ deflated, zlib.deflateData m.data = .ok deflated ∧
      (encode zlib dataCompression d m).1 = .ok (wire d m true deflated)) := by
  have hvalid : ¬ m.typ.invalidType = true := by rw [htype.valid]; exact Bool.false_ne_true
  cases dataCompression with
  | false => exact Or.inr (Or.inl (encode_plain zlib d htype))
  | true =>
    cases hdeflate : zlib.deflateData m.data with
    | error text =>
      refine Or.inl ⟨text, rfl, rfl, ?_⟩
      simp only [encode, if_neg hvalid, hdeflate, if_true]
    | ok deflated =>
      by_cases hshorter : deflated.length < m.data.length
      · refine Or.inr (Or.inr ⟨deflated, rfl, ?_⟩)
        simp only [encode, if_neg hvalid, hdeflate, if_true, if_pos hshorter]
        rfl
      · refine Or.inr (Or.inl ?_)
        simp only [encode, if_neg hvalid, hdeflate, if_true, if_neg hshorter]
        rfl

theorem wire_length {m : Message} (htype : KnownType m.typ) (gzip : Bool)
    (payload : Bytes) : msgHeadLength ≤ (wire d m gzip payload).length := by
  have hid : 1 ≤ (appendID m.id).length := by
    rw [appendID_eq_encode]
    exact (Varint.complete_encode _).length_pos
  have hroute : 1 ≤ (appendRoute (d.routes.lookup m.route) m.route).length := by
    cases d.routes.lookup m.route with
    | none | some => exact le_add_left 1 _
  have hpart : m.typ.hasID = true ∨ m.typ.routable = true := by
    rcases htype with h | h | h | h <;> rw [h] <;> decide
  rw [wire, msgHeadLength]
  simp only [cons_append, length_cons, length_append]
  rcases hpart with h | h <;> rw [if_pos h] <;> omega

/-- **`Decode` reads the layout back.**  The payload part may be the plain data,
or bytes that inflate to it under the payload bit. -/
theorem decode_wire {zlib : Compression} {d : Dictionary} (inv : d.Inverse) {m : Message}
    (htype : KnownType m.typ)
    (hroute : m.typ.routable = true → d.routes.lookup m.route = none → m.route.length ≤ 255)
    {gzip : Bool} {payload : Bytes}
    (hpayload : if gzip then zlib.inflateData payload = .ok m.data else payload = m.data) :
    decode zlib d (wire d m gzip payload) = .ok (received d m) := by
  obtain ⟨htyp, herr, hdict, hgzip⟩ :=
    flagByte_fields htype (d.routes.lookup m.route).isSome m.err gzip
  have hlength := not_lt.mpr (wire_length d htype gzip payload)
  generalize hdata : wire d m gzip payload = data at hlength ⊢
  generalize hflag : flagByte m.typ (d.routes.lookup m.route).isSome m.err gzip = flag
    at htyp herr hdict hgzip
  generalize hrouteBytes : (if m.typ.routable then
    appendRoute (d.routes.lookup m.route) m.route else []) = routeBytes
  generalize hidBytes : (if m.typ.hasID then appendID m.id else []) = idBytes
  have hlayout : data = flag :: (idBytes ++ (routeBytes ++ payload)) := by
    rw [← hdata, wire, hflag, hidBytes, hrouteBytes, cons_append, cons_append, append_assoc]
  -- where each part stands
  have hafterFlag : data.drop 1 = idBytes ++ (routeBytes ++ payload) := by rw [hlayout]; rfl
  have hafterID : data.drop (1 + idBytes.length) = routeBytes ++ payload := by
    rw [← drop_drop, hafterFlag, drop_left]
  have hafterRoute : data.drop (1 + idBytes.length + routeBytes.length) = payload := by
    rw [← drop_drop, hafterID, drop_left]
  have hend : 1 + idBytes.length + routeBytes.length ≤ data.length := by
    rw [hlayout]
    simp only [length_cons, length_append]
    omega
  -- each part is read back
  have hid : (if m.typ.hasID then decodeID data 1 1 0 else pure (0, 1)) =
      (.ok ((received d m).id, 1 + idBytes.length) : Outcome MessageError (UInt64 × ℕ)) := by
    by_cases hhas : m.typ.hasID = true
    · rw [if_pos hhas] at hidBytes ⊢
      rw [← hidBytes, appendID_eq_encode] at hafterFlag
      rw [decodeID_of_drop data 1 _ 1 0 _ (Varint.complete_encode _) (le_refl 1) hafterFlag,
        Varint.value_encode, ← hidBytes, appendID_eq_encode, received]
      simp [hhas]
    · rw [if_neg hhas] at hidBytes ⊢
      simp [received, hhas, ← hidBytes]
  have hrt : (if m.typ.routable then decodeRoute d flag data (1 + idBytes.length)
      else pure ([], false, 1 + idBytes.length)) =
      (.ok ((received d m).route, (received d m).compressed,
        1 + idBytes.length + routeBytes.length) : Outcome MessageError (Bytes × Bool × ℕ)) := by
    by_cases hhas : m.typ.routable = true
    · rw [if_pos hhas] at hrouteBytes ⊢
      rw [← hrouteBytes] at hafterID
      rw [decodeRoute_of_drop hdict (fun c hc => (inv _ _).mp hc) (hroute hhas) hafterID,
        ← hrouteBytes]
      simp [received, hhas]
    · rw [if_neg hhas] at hrouteBytes ⊢
      simp [received, hhas, ← hrouteBytes]
  have hdat : decodeData zlib flag data (1 + idBytes.length + routeBytes.length) = .ok m.data := by
    rw [decodeData_of_drop hend hafterRoute]
    cases gzip with
    | true => rw [if_pos (hgzip.mpr rfl), show zlib.inflateData payload = .ok m.data from hpayload]
    | false =>
      rw [if_neg fun h => Bool.false_ne_true (hgzip.mp h)]
      exact congrArg ok hpayload
  have hfirst : (index data 0 : Outcome MessageError UInt8) = .ok flag :=
    index_of_drop (show data.drop 0 = flag :: (idBytes ++ (routeBytes ++ payload)) from hlayout)
  have hbit : decide (flag &&& errorMask = errorMask) = m.err := by
    rw [Bool.eq_iff_iff, decide_eq_true_iff]
    exact herr
  rw [decode, if_neg hlength, hfirst, ok_bind]
  simp only [htyp, htype.valid, Bool.false_eq_true, if_false]
  rw [hid, ok_bind]
  rw [hrt, ok_bind]
  rw [hdat, hbit]
  rfl

/-- **Message wire format round trip.**  In every reachable state of the route
dictionary and for both settings of `DataCompression`, `Encode` either passes an
error of the compressor through or returns bytes that `Decode` reads back. -/
theorem message_roundtrip (zlib : Compression) (hzlib : zlib.Inverts)
    (dataCompression : Bool) (calls : List (List (Bytes × UInt16))) (m : Message)
    (htype : KnownType m.typ) (hroute : m.typ.routable = true →
      (Dictionary.after calls).routes.lookup m.route = none → m.route.length ≤ 255) :
    (∃ text, dataCompression = true ∧ zlib.deflateData m.data = .error text ∧
      (encode zlib dataCompression (Dictionary.after calls) m).1 =
        .error (.compression text)) ∨
    (∃ bytes, (encode zlib dataCompression (Dictionary.after calls) m).1 = .ok bytes ∧
      decode zlib (Dictionary.after calls) bytes =
        .ok (received (Dictionary.after calls) m)) := by
  have inv := Dictionary.inverse_after calls
  rcases encode_eq_wire zlib dataCompression (Dictionary.after calls) htype with
    failed | plain | ⟨deflated, hdeflate, hencode⟩
  · exact Or.inl failed
  · exact Or.inr ⟨_, plain, decode_wire inv htype hroute rfl⟩
  · exact Or.inr ⟨_, hencode, decode_wire inv htype hroute (hzlib _ _ hdeflate)⟩

/-- A compression that puts the first two bytes of a zlib stream in front. -/
def markOnly : Compression where
  deflateData d := .ok (0x78 :: 0x9c :: d)
  inflateData d :=
    match d with
    | 0x78 :: 0x9c :: d => .ok d
    | _ => .error []

theorem markOnly_inverts : markOnly.Inverts := by
  rintro d d' h
  obtain rfl := Except.ok.inj h
  rfl

/-- 32 times the byte 7. -/
def sevens : Bytes := replicate 32 7

/-- The zlib stream that `compress/zlib` writes for `sevens`. -/
def sevensStream : Bytes := [0x78, 0x9c, 0x62, 0x27, 0, 0, 1, 0, 0, 0xff, 0xff, 0x0e, 0x90, 0, 0xe1]

/-- A compression that knows this stream, and shortens nothing else. -/
def runOnly : Compression where
  deflateData d := .ok (if d = sevens then sevensStream else 0 :: d)
  inflateData d :=
    match d with
    | 0 :: d => .ok d
    | d => if d = sevensStream then .ok sevens else .error []

theorem runOnly_inverts : runOnly.Inverts := by
  rintro d d' h
  obtain rfl := Except.ok.inj h
  by_cases hd : d = sevens
  · rw [if_pos hd, hd]
    rfl
  · rw [if_neg hd]
    rfl

/-- A request whose route is in the dictionary and whose payload is shortened, with a two byte
id. -/
theorem message_roundtrip_room_join :
    ∃ bytes, (encode runOnly true (Dictionary.after [[([114, 46, 106], 7)]])
        { typ := .request, id := 300, route := [114, 46, 106], data := sevens }).1 = .ok bytes ∧
      sevensStream <:+ bytes ∧ decode runOnly (Dictionary.after [[([114, 46, 106], 7)]]) bytes =
        .ok { typ := .request, id := 300, route := [114, 46, 106], data := sevens,
              compressed := true } := by
  rcases message_roundtrip runOnly runOnly_inverts true [[([114, 46, 106], 7)]]
      { typ := .request, id := 300, route := [114, 46, 106], data := sevens }
      (Or.inl rfl) (fun _ _ => by decide) with ⟨text, _, h, _⟩ | ⟨bytes, hencode, hdecode⟩
  · cases h
  · refine ⟨bytes, hencode, ?_, hdecode.trans (congrArg Outcome.ok ?_)⟩
    · obtain rfl := Except.ok.inj (hencode.symm.trans
        (show _ = Except.ok (0x11 :: 0xac :: 0x02 :: 0 :: 7 :: sevensStream) by decide +kernel))
      exact suffix_append [0x11, 0xac, 0x02, 0, 7] sevensStream
    · decide +kernel

end Message

end Pitaya.Conn
