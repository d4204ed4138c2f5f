import Mathlib.Tactic.IntervalCases
import Pitaya.Conn.Message

/-!
# What `Decode` accepts and `Encode` distinguishes

`Conn.Message` reads back what `Encode` writes.  This module takes the two
functions from the other side.
-/

namespace Pitaya.Conn.Message

open Outcome List

/-! ## Parts of an accepted message -/

/-- `part` is the route part of `m`: absent, a code of the dictionary, or a length
byte and the text. -/
def RoutePart (d : Dictionary) (flag : UInt8) (m : Message) (part : Bytes) : Prop :=
  if m.typ.routable then
    ∃ code : Option UInt16, part = appendRoute code m.route ∧ m.compressed = code.isSome ∧
      (flag &&& msgRouteCompressMask = 1 ↔ code.isSome = true) ∧
      (∀ c, code = some c → d.codes.lookup c = some m.route) ∧
      (code = none → m.route.length ≤ 255)
  else part = [] ∧ m.route = [] ∧ m.compressed = false

/-- `part` is the payload part of `m`: the payload, or bytes that inflate to it. -/
def BodyPart (zlib : Compression) (flag : UInt8) (m : Message) (part : Bytes) : Prop :=
  if flag &&& gzipMask = gzipMask then zlib.inflateData part = .ok m.data else part = m.data

variable {d : Dictionary} {offset : ℕ}

/-- A route that `Decode` returned stands at the offset, and the new offset is
behind it. -/
theorem decodeRoute_sound {flag : UInt8} {data route : Bytes} {compressed : Bool} {offset' : ℕ}
    (h : decodeRoute d flag data offset = .ok (route, compressed, offset')) :
    ∃ code : Option UInt16, data.drop offset = appendRoute code route ++ data.drop offset' ∧
      compressed = code.isSome ∧
      (flag &&& msgRouteCompressMask = 1 ↔ code.isSome = true) ∧
      (∀ c, code = some c → d.codes.lookup c = some route) ∧
      (code = none → route.length ≤ 255) := by
  simp only [decodeRoute] at h
  split at h
  · next hflag =>
    split at h
    · cases h
    · next hin =>
      obtain ⟨code, hcode, h⟩ := bind_eq_ok h
      obtain ⟨bytes, hslice, hcode⟩ := bind_eq_ok hcode
      cases hlookup : d.codes.lookup code with
      | none => rw [hlookup] at h; cases h
      | some r =>
        rw [hlookup] at h
        obtain ⟨rfl, rfl, rfl⟩ : r = route ∧ true = compressed ∧ offset + 2 = offset' := by
          simpa using h
        have hbytes := slice_eq_ok hslice
        obtain ⟨hi, lo, rfl⟩ := length_eq_two.mp
          ((slice_length hslice).trans (Nat.add_sub_cancel_left offset 2))
        refine ⟨some code, ?_, rfl, by simp [hflag], ?_, by simp⟩
        · rw [appendRoute, BigEndian.bytes_uint16 hcode]
          exact hbytes
        · rintro c ⟨⟩
          exact hlookup
  · next hflag =>
    split at h
    · cases h
    · obtain ⟨rl, hrl, h⟩ := bind_eq_ok h
      split at h
      · cases h
      · obtain ⟨text, hslice, h⟩ := bind_eq_ok h
        obtain ⟨rfl, rfl, rfl⟩ :
            text = route ∧ false = compressed ∧ offset + 1 + rl.toNat = offset' := by
          simpa using h
        have hlen : text.length = rl.toNat := by
          rw [slice_length hslice]
          omega
        have hlt := rl.toNat_lt
        refine ⟨none, ?_, rfl, by simp [hflag], by simp, fun _ => by omega⟩
        rw [appendRoute, hlen, UInt8.ofNat_toNat, cons_append, ← slice_eq_ok hslice]
        exact index_eq_ok hrl

variable {zlib : Compression}

theorem decodeData_sound {flag : UInt8} {data payload : Bytes}
    (h : decodeData zlib flag data offset = .ok payload) :
    if flag &&& gzipMask = gzipMask then zlib.inflateData (data.drop offset) = .ok payload
    else data.drop offset = payload := by
  by_cases hout : offset > data.length
  · rw [decodeData, if_pos hout] at h
    cases h
  · rw [decodeData_of_drop (not_lt.mp hout) rfl] at h
    split at h
    · next hgzip =>
      rw [if_pos hgzip]
      cases hinflate : zlib.inflateData (data.drop offset) with
      | error => rw [hinflate] at h; cases h
      | ok =>
        rw [hinflate] at h
        exact congrArg Except.ok (ok.inj h)
    · next hplain =>
      rw [if_neg hplain]
      exact ok.inj h

variable {m : Message}

/-- **What `Decode` returns stands in its input.**  Behind the flag and whatever
the id loop consumed, the input is the route part and then the payload part. -/
theorem decode_sound {data : Bytes} (h : decode zlib d data = .ok m) :
    ∃ flag offset route body, data = flag :: data.drop 1 ∧
      m.typ = (flag >>> 1) &&& msgTypeMask ∧
      m.err = decide (flag &&& errorMask = errorMask) ∧
      (if m.typ.hasID then decodeID data 1 1 0 else pure (0, 1)) = .ok (m.id, offset) ∧
      data.drop offset = route ++ body ∧ RoutePart d flag m route ∧ BodyPart zlib flag m body := by
  rw [decode] at h
  split at h
  · cases h
  · obtain ⟨flag, hflag, h⟩ := bind_eq_ok h
    simp only at h
    split at h
    · cases h
    · obtain ⟨⟨id, offset⟩, hid, h⟩ := bind_eq_ok h
      obtain ⟨⟨route, compressed, offset'⟩, hroute, h⟩ := bind_eq_ok h
      obtain ⟨payload, hpayload, h⟩ := bind_eq_ok h
      obtain rfl := ok.inj h
      have hfirst := index_eq_ok hflag
      have hbody := decodeData_sound hpayload
      by_cases hhas : MessageType.routable ((flag >>> 1) &&& msgTypeMask) = true
      · rw [if_pos hhas] at hroute
        obtain ⟨code, hdrop, hcode⟩ := decodeRoute_sound hroute
        refine ⟨flag, offset, _, _, hfirst, rfl, rfl, hid, hdrop, ?_, hbody⟩
        rw [RoutePart, if_pos hhas]
        exact ⟨code, rfl, hcode⟩
      · rw [if_neg hhas] at hroute
        obtain ⟨rfl, rfl, rfl⟩ : [] = route ∧ false = compressed ∧ offset = offset' := by
          simpa using hroute
        refine ⟨flag, offset, [], _, hfirst, rfl, rfl, hid, rfl, ?_, hbody⟩
        rw [RoutePart, if_neg hhas]
        exact ⟨rfl, rfl, rfl⟩

/-! ## Well-formed ids -/

/-- The input is well formed for the message: flag, a complete varint below
`2 ^ 64` that denotes the id, route part and payload part are a partition of it. -/
def WellFormed (zlib : Compression) (d : Dictionary) (data : Bytes) (m : Message) : Prop :=
  ∃ flag groups route body, data = flag :: (groups ++ (route ++ body)) ∧
    m.typ = (flag >>> 1) &&& msgTypeMask ∧ m.err = decide (flag &&& errorMask = errorMask) ∧
    Varint.Complete groups ∧ Varint.value groups < 2 ^ 64 ∧ m.id.toNat = Varint.value groups ∧
    RoutePart d flag m route ∧ BodyPart zlib flag m body

theorem decodeID_of_unterminated (data : Bytes) (offset i : ℕ) (id : UInt64)
    (h : ∀ b ∈ data.drop i, ¬ b < 128) :
    ∃ id', decodeID data offset i id = .ok (id', offset) := by
  fun_induction decodeID data offset i id with
  | case1 i id hin ih =>
    have hdrop := drop_eq_getElem_cons hin
    rw [hdrop, forall_mem_cons] at h
    rw [index_of_drop hdrop, ok_bind]
    simp only [if_neg h.1]
    exact ih _ h.2
  | case2 i id => exact ⟨id, rfl⟩

/-- **When an accepted message is well formed.**  Of the byte strings with an id
that `Decode` accepts, the well-formed ones are those whose bytes after the flag
start with a complete varint below `2 ^ 64`.  If they start with a longer one the
id is its value modulo `2 ^ 64`; if the varint never ends, the bytes that made up
the id are read again as route and payload. -/
theorem decode_wellFormed_iff (zlib : Compression) (d : Dictionary) (data : Bytes) (m : Message)
    (h : decode zlib d data = .ok m) (hid : m.typ.hasID = true) :
    (WellFormed zlib d data m ↔ ∃ groups rest, data.drop 1 = groups ++ rest ∧
      Varint.Complete groups ∧ Varint.value groups < 2 ^ 64) ∧
    (∀ groups rest, data.drop 1 = groups ++ rest → Varint.Complete groups →
      m.id.toNat = Varint.value groups % 2 ^ 64) ∧
    ((∀ b ∈ data.drop 1, ¬ b < 128) → ∃ flag route body,
      data = flag :: (route ++ body) ∧ RoutePart d flag m route ∧ BodyPart zlib flag m body) := by
  obtain ⟨flag, offset, route, body, hdata, htyp, herr, hread, hdrop, hroute, hbody⟩ :=
    decode_sound h
  rw [if_pos hid] at hread
  -- a complete varint is what the id loop consumed
  have hcomplete : ∀ groups rest, data.drop 1 = groups ++ rest → Varint.Complete groups →
      m.id.toNat = Varint.value groups % 2 ^ 64 ∧ rest = route ++ body := by
    intro groups rest hgroups hcomplete
    rw [decodeID_of_drop data 1 groups 1 0 rest hcomplete (Nat.le_refl 1) hgroups] at hread
    obtain ⟨hvalue, rfl⟩ := Prod.mk.inj (Outcome.ok.inj hread)
    rw [← List.drop_drop, hgroups, List.drop_left] at hdrop
    refine ⟨?_, hdrop⟩
    rw [← hvalue]
    simp
  refine ⟨⟨?_, ?_⟩, fun groups rest hgroups hc => (hcomplete groups rest hgroups hc).1, ?_⟩
  · rintro ⟨flag', groups, route', body', rfl, -, -, hc, hlt, -⟩
    exact ⟨groups, route' ++ body', rfl, hc, hlt⟩
  · rintro ⟨groups, rest, hgroups, hc, hlt⟩
    obtain ⟨hvalue, rfl⟩ := hcomplete groups rest hgroups hc
    rw [Nat.mod_eq_of_lt hlt] at hvalue
    refine ⟨flag, groups, route, body, ?_, htyp, herr, hc, hlt, hvalue, hroute, hbody⟩
    rw [← hgroups]
    exact hdata
  · intro hmore
    obtain ⟨id, hnone⟩ := decodeID_of_unterminated data 1 1 0 hmore
    rw [hnone] at hread
    obtain ⟨-, rfl⟩ := Prod.mk.inj (Outcome.ok.inj hread)
    rw [hdrop] at hdata
    exact ⟨flag, route, body, hdata, hroute, hbody⟩

/-- A response with the two byte id 300 and one byte of payload. -/
theorem decode_wellFormed_iff_response :
    WellFormed markOnly Dictionary.empty [0x04, 0xAC, 0x02, 0x09]
      { typ := .response, id := 300, data := [0x09] } :=
  (decode_wellFormed_iff markOnly Dictionary.empty [0x04, 0xAC, 0x02, 0x09] _
    (by decide +kernel) rfl).1.mpr
    ⟨[0xAC, 0x02], [0x09], rfl, by simp [Varint.Complete], by decide⟩

/-- A response whose id never ends is accepted, with the byte of the id as its
payload; so is one whose id is `2 ^ 64`, with the id 0. -/
theorem decode_accepts_malformed :
    (decode markOnly Dictionary.empty [0x04, 0x80] =
        .ok { typ := .response, id := 0, data := [0x80] } ∧
      ¬ WellFormed markOnly Dictionary.empty [0x04, 0x80]
        { typ := .response, id := 0, data := [0x80] }) ∧
    (decode markOnly Dictionary.empty
        [0x04, 0x80, 0x80, 0x80, 0x80, 0x80, 0x80, 0x80, 0x80, 0x80, 0x02] =
        .ok { typ := .response, id := 0 } ∧
      Varint.value [0x80, 0x80, 0x80, 0x80, 0x80, 0x80, 0x80, 0x80, 0x80, 0x02] = 2 ^ 64) := by
  refine ⟨⟨by decide +kernel, ?_⟩, by decide +kernel, by decide⟩
  rintro ⟨flag, groups, route, body, hdata, -, -, hcomplete, -⟩
  obtain ⟨b, hmem, hlast⟩ := hcomplete.exists_last
  have hin : b ∈ ([0x80] : Bytes) := by
    rw [(List.cons.inj hdata).2]
    exact List.mem_append_left _ hmem
  rw [List.mem_singleton.mp hin] at hlast
  exact absurd hlast (by decide)

/-! ## Every input -/

/-- The route of the message fits: it is not written, the dictionary knows it, or
its length fits in a byte. -/
def Carried (d : Dictionary) (m : Message) : Prop :=
  m.typ.routable = true → d.routes.lookup m.route = none → m.route.length ≤ 255

/-- The two messages say the same. -/
structure SameContent (m₁ m₂ : Message) : Prop where
  typ : m₁.typ = m₂.typ
  err : m₁.err = m₂.err
  id : m₁.typ.hasID = true → m₁.id = m₂.id
  route : m₁.typ.routable = true → m₁.route = m₂.route
  data : m₁.data = m₂.data

theorem knownType_of_valid {typ : MessageType} (h : ¬ typ.invalidType = true) :
    KnownType typ := by
  have hle : typ.toNat ≤ 3 := by
    simp only [MessageType.invalidType, Bool.or_eq_true, decide_eq_true_eq, not_or,
      gt_iff_lt, UInt8.not_lt] at h
    exact UInt8.le_iff_toNat_le.mp h.2
  have heq : typ = UInt8.ofNat typ.toNat := UInt8.ofNat_toNat.symm
  rw [KnownType, heq]
  interval_cases typ.toNat <;> decide

variable {dataCompression : Bool} {bytes : Bytes}

theorem encode_eq_ok (h : (encode zlib dataCompression d m).1 = .ok bytes) :
    KnownType m.typ ∧ ∃ gzip payload, bytes = wire d m gzip payload ∧
      if gzip then zlib.deflateData m.data = .ok payload else payload = m.data := by
  by_cases hinvalid : m.typ.invalidType = true
  · rw [encode, if_pos hinvalid] at h
    cases h
  · have htype := knownType_of_valid hinvalid
    refine ⟨htype, ?_⟩
    rcases encode_eq_wire zlib dataCompression d htype with
      ⟨text, -, -, failed⟩ | plain | ⟨deflated, hdeflate, hencode⟩
    · rw [failed] at h
      cases h
    · rw [plain] at h
      exact ⟨false, m.data, (Except.ok.inj h).symm, rfl⟩
    · rw [hencode] at h
      exact ⟨true, deflated, (Except.ok.inj h).symm, hdeflate⟩

theorem decode_of_encode (hzlib : zlib.Inverts) (inv : d.Inverse)
    (h : (encode zlib dataCompression d m).1 = .ok bytes) (carried : Carried d m) :
    decode zlib d bytes = .ok (received d m) := by
  obtain ⟨htype, gzip, payload, rfl, hpayload⟩ := encode_eq_ok h
  refine decode_wire inv htype carried ?_
  cases gzip with
  | true => exact hzlib _ _ hpayload
  | false => exact hpayload

/-- Only a carried message is read back: the length byte of a plain route cannot
announce more than 255 bytes. -/
theorem carried_of_decode (h : (encode zlib dataCompression d m).1 = .ok bytes)
    (hdecode : decode zlib d bytes = .ok (received d m)) : Carried d m := by
  intro hroutable hunknown
  obtain ⟨htype, gzip, payload, rfl, -⟩ := encode_eq_ok h
  obtain ⟨flag, offset, route, body, hfirst, -, -, -, -, hroute, -⟩ := decode_sound hdecode
  have hflag : flagByte m.typ (d.routes.lookup m.route).isSome m.err gzip = flag :=
    (cons.inj hfirst).1
  have hplain := (flagByte_fields htype (d.routes.lookup m.route).isSome m.err gzip).2.2.1
  rw [RoutePart, if_pos (show (received d m).typ.routable = true from hroutable)] at hroute
  obtain ⟨code, -, -, hcode, -, hshort⟩ := hroute
  have hnone : code = none := by
    rw [← Option.not_isSome_iff_eq_none, ← hcode, ← hflag, hplain, hunknown]
    exact Bool.false_ne_true
  have hlength := hshort hnone
  rwa [received, if_pos hroutable] at hlength

/-- **Where `Encode` keeps messages apart.**  In every reachable state of the
route dictionary and for both settings of `DataCompression`, a message that
`Encode` accepts is read back from its bytes exactly when its route is carried,
and two carried messages with the same bytes say the same.  `Encode` itself does
not look: without compression it accepts every message of a known type. -/
theorem encode_separates (zlib : Compression) (hzlib : zlib.Inverts) (dataCompression : Bool)
    (calls : List (List (Bytes × UInt16))) :
    (∀ m bytes, (encode zlib dataCompression (Dictionary.after calls) m).1 = .ok bytes →
      (decode zlib (Dictionary.after calls) bytes = .ok (received (Dictionary.after calls) m) ↔
        Carried (Dictionary.after calls) m)) ∧
    (∀ m₁ m₂ bytes, (encode zlib dataCompression (Dictionary.after calls) m₁).1 = .ok bytes →
      (encode zlib dataCompression (Dictionary.after calls) m₂).1 = .ok bytes →
      Carried (Dictionary.after calls) m₁ → Carried (Dictionary.after calls) m₂ →
      SameContent m₁ m₂) ∧
    (∀ m, KnownType m.typ →
      ∃ bytes, (encode zlib false (Dictionary.after calls) m).1 = .ok bytes) := by
  have inv := Dictionary.inverse_after calls
  refine ⟨fun m bytes h => ⟨carried_of_decode h, decode_of_encode hzlib inv h⟩, ?_, ?_⟩
  · intro m₁ m₂ bytes h₁ h₂ carried₁ carried₂
    have hsame : received (Dictionary.after calls) m₁ = received (Dictionary.after calls) m₂ :=
      Outcome.ok.inj ((decode_of_encode hzlib inv h₁ carried₁).symm.trans
        (decode_of_encode hzlib inv h₂ carried₂))
    rw [received, received, Message.mk.injEq] at hsame
    obtain ⟨htyp, hid, hroute, hdata, -, herr⟩ := hsame
    refine ⟨htyp, herr, fun hhas => ?_, fun hhas => ?_, hdata⟩
    · rwa [if_pos hhas, if_pos (htyp ▸ hhas)] at hid
    · rwa [if_pos hhas, if_pos (htyp ▸ hhas)] at hroute
  · intro m htype
    exact ⟨_, encode_plain zlib (Dictionary.after calls) htype⟩

/-- A notify with a route of two bytes is read back. -/
theorem encode_separates_notify :
    decode markOnly (Dictionary.after []) [0x02, 0x02, 0x72, 0x6A, 0x09] =
      .ok (received (Dictionary.after [])
        { typ := .notify, route := [0x72, 0x6A], data := [0x09] }) :=
  ((encode_separates markOnly markOnly_inverts false []).1
    { typ := .notify, route := [0x72, 0x6A], data := [0x09] } [0x02, 0x02, 0x72, 0x6A, 0x09]
    (by decide +kernel)).mpr fun _ _ => by decide

/-- A notify with a route of 256 bytes and no payload, and one with no route and
those bytes as payload, are encoded alike. -/
theorem encode_wraps_route_length :
    ∃ bytes,
      (encode markOnly false Dictionary.empty
        { typ := .notify, route := List.replicate 256 0x61 }).1 = .ok bytes ∧
      (encode markOnly false Dictionary.empty
        { typ := .notify, data := List.replicate 256 0x61 }).1 = .ok bytes ∧
      ¬ SameContent { typ := .notify, route := List.replicate 256 0x61 }
        { typ := .notify, data := List.replicate 256 0x61 } := by
  have hlength : (List.replicate 256 (0x61 : UInt8)).length = 256 := List.length_replicate
  generalize List.replicate 256 (0x61 : UInt8) = text at hlength ⊢
  have hunknown : ∀ route, Dictionary.empty.routes.lookup route = none := Finmap.lookup_empty
  refine ⟨0x02 :: 0x00 :: text, ?_, ?_, ?_⟩
  · simp only [encode, hunknown, appendRoute, hlength]
    change Except.ok (0x02 :: 0x00 :: (text ++ [])) = _
    rw [List.append_nil]
  · simp only [encode, hunknown, appendRoute]
    rfl
  · intro same
    have hempty : text.length = 0 := (congrArg List.length same.data).symm
    omega

end Pitaya.Conn.Message
