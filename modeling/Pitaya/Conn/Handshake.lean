import Pitaya.Conn.Message

/-!
# The route dictionary of a handshake

The handshake response carries the server's route dictionary, and the client
hands it to `message.SetDictionary` (`receiveHandshakeResponseFrom`).  The tables
are global to the process and only ever grow, `SetDictionary` stops at the first
entry that clashes with them, and the client drops the error.

* `receiveHandshakeResponseFrom` — what one handshake does to the tables.  As in
  `Conn.Message`, a dictionary is given as the list of its entries in the order
  the loop visits them; every permutation is a possible order.
-/

namespace Pitaya.Conn.Message

open List Option Finmap

/-! ## One handshake -/

/-- The tables after the client received a handshake response with the given
`Sys.Dict`; `none` is the nil map. -/
def receiveHandshakeResponseFrom (d : Dictionary) (dict : Option (List (Bytes × UInt16))) :
    Dictionary :=
  match dict with
  | none => d
  | some dict => (d.setDictionary dict).2

/-- The tables of a process after a sequence of handshakes. -/
def afterHandshakes (dicts : List (Option (List (Bytes × UInt16)))) : Dictionary :=
  dicts.foldl receiveHandshakeResponseFrom Dictionary.empty

/-- A message whose route part is a code. -/
def coded (code : UInt16) (m : Message) : Bytes :=
  flagByte m.typ true m.err false ::
    (if m.typ.hasID then appendID m.id else []) ++ appendRoute (some code) m.route ++ m.data

/-- The client speaks an entry of a dictionary: it encodes a message on the route
with the code, and decodes the code to the route. -/
def Speaks (zlib : Compression) (d : Dictionary) (entry : Bytes × UInt16) : Prop :=
  ∀ m : Message, KnownType m.typ → m.typ.routable = true → m.route = entry.1 →
    (encode zlib false d m).1 = .ok (coded entry.2 m) ∧
      decode zlib d (coded entry.2 m) =
        .ok { m with id := if m.typ.hasID then m.id else 0, compressed := true }

namespace Dictionary

/-- The entry is in both tables. -/
def Knows (d : Dictionary) (entry : Bytes × UInt16) : Prop :=
  d.routes.lookup entry.1 = some entry.2 ∧ d.codes.lookup entry.2 = some entry.1

/-- Neither the route nor the code of the entry is in the tables, and the route
has no white space around it. -/
def New (d : Dictionary) (entry : Bytes × UInt16) : Prop :=
  entry.1.trimSpace = entry.1 ∧ d.routes.lookup entry.1 = none ∧ d.codes.lookup entry.2 = none

instance (d : Dictionary) (entry : Bytes × UInt16) : Decidable (d.Knows entry) :=
  inferInstanceAs (Decidable (_ ∧ _))

instance (d : Dictionary) (entry : Bytes × UInt16) : Decidable (d.New entry) :=
  inferInstanceAs (Decidable (_ ∧ _ ∧ _))

/-- `SetDictionary` would stop at the entry. -/
def Clashes (d : Dictionary) (entry : Bytes × UInt16) : Prop :=
  (d.routes.lookup entry.1.trimSpace).isSome = true ∨ (d.codes.lookup entry.2).isSome = true

/-! ## The loop of `SetDictionary` -/

/-- The tables with one more entry. -/
def insert (d : Dictionary) (route : Bytes) (code : UInt16) : Dictionary :=
  ⟨d.routes.insert route code, d.codes.insert code route⟩

variable {d : Dictionary} {entry : Bytes × UInt16}

theorem addRoute_of_clash (h : d.Clashes entry) : ∃ e, d.addRoute entry.1 entry.2 = .error e := by
  by_cases hroute : (d.routes.lookup entry.1.trimSpace).isSome = true
  · exact ⟨_, by rw [addRoute, if_pos hroute]⟩
  · have hcode := h.resolve_left hroute
    exact ⟨_, by rw [addRoute, if_neg hroute, if_pos hcode]⟩

theorem addRoute_of_not_clash (h : ¬ d.Clashes entry) :
    d.addRoute entry.1 entry.2 = .ok (d.insert entry.1.trimSpace entry.2) := by
  obtain ⟨hroute, hcode⟩ := not_or.mp h
  rw [addRoute, if_neg hroute, if_neg hcode]
  rfl

theorem setDictionary_of_clash (h : d.Clashes entry) (dict : List (Bytes × UInt16)) :
    (d.setDictionary (entry :: dict)).2 = d := by
  obtain ⟨e, he⟩ := addRoute_of_clash h
  rw [setDictionary, he]

theorem setDictionary_of_not_clash (h : ¬ d.Clashes entry) (dict : List (Bytes × UInt16)) :
    d.setDictionary (entry :: dict) = (d.insert entry.1.trimSpace entry.2).setDictionary dict := by
  rw [setDictionary, addRoute_of_not_clash h]

theorem lookup_codes_insert_self (d : Dictionary) (route : Bytes) (code : UInt16) :
    (d.insert route code).codes.lookup code = some route :=
  lookup_insert _

theorem lookup_setDictionary {route : Bytes} {code : UInt16} (dict : List (Bytes × UInt16)) :
    (d.routes.lookup route = some code →
      (d.setDictionary dict).2.routes.lookup route = some code) ∧
    (d.codes.lookup code = some route →
      (d.setDictionary dict).2.codes.lookup code = some route) := by
  induction dict generalizing d with
  | nil => exact ⟨fun h => h, fun h => h⟩
  | cons entry dict ih =>
    by_cases h : d.Clashes entry
    · rw [setDictionary_of_clash h]
      exact ⟨fun hlookup => hlookup, fun hlookup => hlookup⟩
    · obtain ⟨hroute, hcode⟩ := not_or.mp h
      rw [setDictionary_of_not_clash h]
      refine ⟨fun hlookup => ih.1 ?_, fun hlookup => ih.2 ?_⟩
      · have hne : route ≠ entry.1.trimSpace := by
          rintro rfl
          exact hroute (by rw [hlookup]; rfl)
        rw [insert, lookup_insert_of_ne _ hne, hlookup]
      · have hne : code ≠ entry.2 := by
          rintro rfl
          exact hcode (by rw [hlookup]; rfl)
        rw [insert, lookup_insert_of_ne _ hne, hlookup]

theorem New.not_clashes (h : d.New entry) : ¬ d.Clashes entry := by
  rw [Clashes, h.1, h.2.1, h.2.2]
  simp

theorem Knows.clashes (h : d.Knows entry) : d.Clashes entry :=
  Or.inr (by rw [h.2]; rfl)

theorem New.insert {other : Bytes × UInt16} (h : d.New entry) (hroute : entry.1 ≠ other.1)
    (hcode : entry.2 ≠ other.2) : (d.insert other.1 other.2).New entry := by
  refine ⟨h.1, ?_, ?_⟩
  · rw [Dictionary.insert, lookup_insert_of_ne _ hroute, h.2.1]
  · rw [Dictionary.insert, lookup_insert_of_ne _ hcode, h.2.2]

theorem knows_of_new {dict : List (Bytes × UInt16)} (hroutes : (dict.map Prod.fst).Nodup)
    (hcodes : (dict.map Prod.snd).Nodup) (hnew : ∀ entry ∈ dict, d.New entry) :
    ∀ entry ∈ dict, (d.setDictionary dict).2.Knows entry := by
  -- the induction stores one entry, which keeps the others new
  induction dict generalizing d with
  | nil => intro entry hentry; cases hentry
  | cons first dict ih =>
    rw [map_cons, nodup_cons] at hroutes hcodes
    have hfirst := hnew first mem_cons_self
    rw [setDictionary_of_not_clash hfirst.not_clashes, hfirst.1]
    intro entry hentry
    rcases mem_cons.mp hentry with rfl | hentry
    · exact ⟨(lookup_setDictionary dict).1 (lookup_insert _),
        (lookup_setDictionary dict).2 (lookup_insert _)⟩
    · refine ih hroutes.2 hcodes.2 (fun other hother => ?_) entry hentry
      refine (hnew other (mem_cons_of_mem first hother)).insert ?_ ?_
      · rintro heq
        exact hroutes.1 (heq ▸ mem_map_of_mem hother)
      · rintro heq
        exact hcodes.1 (heq ▸ mem_map_of_mem hother)

/-- **Which dictionaries are in the tables after `SetDictionary`, whatever the
order of its loop**: those that are wholly known already, and those that are
wholly new. -/
theorem forall_perm_knows_iff (d : Dictionary) {dict : List (Bytes × UInt16)}
    (hroutes : (dict.map Prod.fst).Nodup) (hcodes : (dict.map Prod.snd).Nodup) :
    (∀ order, order.Perm dict → ∀ entry ∈ dict, (d.setDictionary order).2.Knows entry) ↔
      (∀ entry ∈ dict, d.Knows entry) ∨ (∀ entry ∈ dict, d.New entry) := by
  constructor
  · intro h
    by_cases hclash : ∃ entry ∈ dict, d.Clashes entry
    · -- visit the clash first: nothing is stored
      obtain ⟨entry, hentry, hclash⟩ := hclash
      have hall := h _ (perm_cons_erase hentry).symm
      rw [setDictionary_of_clash hclash] at hall
      exact Or.inl hall
    · refine Or.inr fun entry hentry => ?_
      have hnone : ¬ d.Clashes entry := fun hc => hclash ⟨entry, hentry, hc⟩
      -- visit the entry first: its code goes to the trimmed route for good
      have hcode := (h _ (perm_cons_erase hentry).symm entry hentry).2
      rw [setDictionary_of_not_clash hnone,
        (lookup_setDictionary _).2 (lookup_codes_insert_self d entry.1.trimSpace entry.2)] at hcode
      have htrim := some.inj hcode
      obtain ⟨hroute, hcode⟩ := not_or.mp hnone
      rw [htrim, not_isSome_iff_eq_none] at hroute
      exact ⟨htrim, hroute, not_isSome_iff_eq_none.mp hcode⟩
  · rintro (hknown | hnew) order hperm entry hentry
    · cases order with
      | nil => exact absurd (hperm.mem_iff.mpr hentry) not_mem_nil
      | cons first =>
        have hfirst := hknown first (hperm.mem_iff.mp mem_cons_self)
        rw [setDictionary_of_clash hfirst.clashes]
        exact hknown entry hentry
    · exact knows_of_new ((hperm.map Prod.fst).nodup_iff.mpr hroutes)
        ((hperm.map Prod.snd).nodup_iff.mpr hcodes)
        (fun other hother => hnew other (hperm.mem_iff.mp hother)) entry
        (hperm.mem_iff.mpr hentry)

theorem inverse_afterHandshakes (dicts : List (Option (List (Bytes × UInt16)))) :
    (afterHandshakes dicts).Inverse := by
  have hfold : ∀ d : Dictionary, d.Inverse →
      (dicts.foldl receiveHandshakeResponseFrom d).Inverse := by
    induction dicts with
    | nil => exact fun d inv => inv
    | cons dict dicts ih =>
      intro d inv
      refine ih _ ?_
      cases dict with
      | none => exact inv
      | some dict => exact inv.setDictionary dict
  exact hfold empty inverse_empty

end Dictionary

/-! ## Speaking a dictionary -/

theorem appendRoute_code_injective {code code' : UInt16} {route route' : Bytes}
    (h : appendRoute (some code) route = appendRoute (some code') route') : code = code' := by
  have hread := congrArg (BigEndian.uint16 (ε := MessageError)) h
  simp only [appendRoute, BigEndian.uint16_bytes] at hread
  exact Outcome.ok.inj hread

theorem speaks_iff_knows (zlib : Compression) {d : Dictionary} (inv : d.Inverse)
    (entry : Bytes × UInt16) : Speaks zlib d entry ↔ d.Knows entry := by
  obtain ⟨route, code⟩ := entry
  constructor
  · -- a notify on the route shows what the route is encoded with
    intro h
    have hnotify : KnownType .notify := Or.inr (Or.inl rfl)
    have hencode := (h { typ := .notify, route := route } hnotify rfl rfl).1
    rw [encode_plain zlib d hnotify, Except.ok.injEq] at hencode
    obtain ⟨hflag, htail⟩ := cons.inj hencode
    have hbit := congrArg (fun flag : UInt8 => flag &&& msgRouteCompressMask) hflag
    cases hlookup : d.routes.lookup route with
    | none =>
      simp only [hlookup] at hbit
      exact absurd hbit (by decide)
    | some code' =>
      simp only [hlookup] at htail
      change appendRoute (some code') route ++ [] = appendRoute (some code) route ++ [] at htail
      obtain rfl := appendRoute_code_injective (append_cancel_right htail)
      exact ⟨hlookup, (inv _ _).mp hlookup⟩
  · rintro ⟨hroute, -⟩ m htype hroutable rfl
    have hwire : wire d m false m.data = coded code m := by
      rw [wire, coded, hroute, if_pos hroutable]
      rfl
    have hreceived : received d m =
        { m with id := if m.typ.hasID then m.id else 0, compressed := true } := by
      simp [received, hroutable, hroute]
    have hdecode : decode zlib d (wire d m false m.data) = .ok (received d m) :=
      decode_wire inv htype (fun _ hnone => absurd (hroute.symm.trans hnone) (by simp)) rfl
    rw [hwire, hreceived] at hdecode
    exact ⟨by rw [encode_plain zlib d htype, hwire], hdecode⟩

/-- **Which dictionaries a client speaks after a handshake.**  Whatever handshakes
the process has been through, it speaks the injective dictionary of the next one
in every order of the loop exactly when all of its entries were spoken before, or
all of them are new: routes and codes unknown so far, and no white space around
the routes. -/
theorem speaks_iff_new_or_known (zlib : Compression)
    (dicts : List (Option (List (Bytes × UInt16)))) (dict : List (Bytes × UInt16))
    (hroutes : (dict.map Prod.fst).Nodup) (hcodes : (dict.map Prod.snd).Nodup) :
    (∀ order, order.Perm dict →
      ∀ entry ∈ dict, Speaks zlib (afterHandshakes (dicts ++ [some order])) entry) ↔
      (∀ entry ∈ dict, Speaks zlib (afterHandshakes dicts) entry) ∨
        (∀ entry ∈ dict, (afterHandshakes dicts).New entry) := by
  have hlast : ∀ order, afterHandshakes (dicts ++ [some order]) =
      ((afterHandshakes dicts).setDictionary order).2 := fun order => by
    rw [afterHandshakes, List.foldl_append]
    rfl
  have hknows : ∀ order entry, Speaks zlib (afterHandshakes (dicts ++ [some order])) entry ↔
      ((afterHandshakes dicts).setDictionary order).2.Knows entry := fun order entry => by
    rw [speaks_iff_knows zlib (Dictionary.inverse_afterHandshakes _), hlast]
  simp only [hknows, speaks_iff_knows zlib (Dictionary.inverse_afterHandshakes dicts)]
  exact Dictionary.forall_perm_knows_iff _ hroutes hcodes

/-- In a fresh process the first dictionary is spoken. -/
theorem speaks_first_dictionary :
    Speaks markOnly (afterHandshakes [some [([0x62], 2), ([0x61], 1)]]) ([0x61], 1) ∧
      Speaks markOnly (afterHandshakes [some [([0x62], 2), ([0x61], 1)]]) ([0x62], 2) := by
  have hspeaks := (speaks_iff_new_or_known markOnly [] [([0x61], 1), ([0x62], 2)]
    (by decide) (by decide)).mpr (Or.inr (by decide +kernel)) _ (List.Perm.swap _ _ _)
  exact ⟨hspeaks _ (by decide), hspeaks _ (by decide)⟩

/-- The server restarts with one more route.  If the loop visits the known route
first, the client never hears of the new one; and if the server renumbers the
known route, the client keeps the old code. -/
theorem handshake_drops_added_route :
    ¬ Speaks markOnly
        (afterHandshakes [some [([0x61], 1)], some [([0x61], 1), ([0x62], 2)]]) ([0x62], 2) ∧
      ¬ Speaks markOnly (afterHandshakes [some [([0x61], 1)], some [([0x61], 2)]]) ([0x61], 2) := by
  constructor
  · rw [speaks_iff_knows markOnly (Dictionary.inverse_afterHandshakes _)]
    decide +kernel
  · rw [speaks_iff_knows markOnly (Dictionary.inverse_afterHandshakes _)]
    decide +kernel

end Pitaya.Conn.Message
