import Pitaya.Conn.Handshake
import Pitaya.Foundations.Ranges

/-!
# Setting the route dictionary

`SetDictionary` of `conn/message/message.go` checks and stores the entries of its argument one
after the other, in the order of a `range` loop over a map, and returns at the first clash.  What
it has stored by then stays.

* `half_added` — a map with one entry that clashes and one that does not.
-/

namespace Pitaya.Conn.Message.Dictionary

open Ranges List Finmap

/-- The argument of `SetDictionary`. -/
abbrev Dict : Type := Finmap fun _ : Bytes => UInt16

/-! ## One entry -/

/-- Two entries that can be in the tables together. -/
def Apart (e e' : Bytes × UInt16) : Prop := e.1.trimSpace ≠ e'.1.trimSpace ∧ e.2 ≠ e'.2

instance : Std.Symm Apart := ⟨fun _ _ h => ⟨h.1.symm, h.2.symm⟩⟩

variable {d : Dictionary} {entry entry' : Bytes × UInt16} {entries entries' : List (Bytes × UInt16)}

theorem setDictionary_ne_none_of_clash (h : d.Clashes entry) (entries : List (Bytes × UInt16)) :
    (d.setDictionary (entry :: entries)).1 ≠ none := by
  obtain ⟨e, he⟩ := addRoute_of_clash h
  rw [setDictionary, he]
  exact Option.some_ne_none e

theorem routes_lookup_insert (h : ¬ d.Clashes entry) (r : Bytes) (c : UInt16) :
    (d.insert entry.1.trimSpace entry.2).routes.lookup r = some c ↔
      d.routes.lookup r = some c ∨ entry.1.trimSpace = r ∧ entry.2 = c := by
  have hnone := Option.not_isSome_iff_eq_none.mp (not_or.mp h).1
  by_cases hr : r = entry.1.trimSpace
  · subst hr
    rw [insert, lookup_insert, hnone]
    simp
  · rw [insert, lookup_insert_of_ne _ hr]
    simp [Ne.symm hr]

theorem codes_lookup_insert (h : ¬ d.Clashes entry) (r : Bytes) (c : UInt16) :
    (d.insert entry.1.trimSpace entry.2).codes.lookup c = some r ↔
      d.codes.lookup c = some r ∨ entry.1.trimSpace = r ∧ entry.2 = c := by
  have hnone := Option.not_isSome_iff_eq_none.mp (not_or.mp h).2
  by_cases hc : c = entry.2
  · subst hc
    rw [insert, lookup_insert, hnone]
    simp
  · rw [insert, lookup_insert_of_ne _ hc]
    simp [Ne.symm hc]

theorem clashes_insert (h : ¬ d.Clashes entry) :
    (d.insert entry.1.trimSpace entry.2).Clashes entry' ↔
      d.Clashes entry' ∨ ¬ Apart entry entry' := by
  simp only [Clashes, Option.isSome_iff_exists, routes_lookup_insert h, codes_lookup_insert h,
    exists_or, Apart, not_and_or, not_not]
  constructor
  · rintro ((hroute | ⟨c, hroute, -⟩) | (hcode | ⟨r, -, hcode⟩))
    · exact .inl (.inl hroute)
    · exact .inr (.inl hroute)
    · exact .inl (.inr hcode)
    · exact .inr (.inr hcode)
  · rintro ((hroute | hcode) | (hroute | hcode))
    · exact .inl (.inl hroute)
    · exact .inr (.inl hcode)
    · exact .inl (.inr ⟨entry.2, hroute, rfl⟩)
    · exact .inr (.inr ⟨entry.1.trimSpace, rfl, hcode⟩)

/-! ## The loop -/

/-- A call succeeds if no entry clashes with the tables or with another one. -/
theorem setDictionary_eq_none_iff (d : Dictionary) (entries : List (Bytes × UInt16)) :
    (d.setDictionary entries).1 = none ↔
      (∀ entry ∈ entries, ¬ d.Clashes entry) ∧ entries.Pairwise Apart := by
  induction entries generalizing d with
  | nil => simp [setDictionary]
  | cons entry entries ih =>
    by_cases h : d.Clashes entry
    · refine iff_of_false (setDictionary_ne_none_of_clash h entries) fun hfresh => ?_
      exact hfresh.1 entry mem_cons_self h
    · rw [setDictionary_of_not_clash h, ih, pairwise_cons, forall_mem_cons]
      simp only [clashes_insert h, not_or, not_not, forall_and]
      constructor
      · rintro ⟨⟨hfresh, hapart⟩, hrest⟩
        exact ⟨⟨h, hfresh⟩, hapart, hrest⟩
      · rintro ⟨⟨-, hfresh⟩, hapart, hrest⟩
        exact ⟨⟨hfresh, hapart⟩, hrest⟩

theorem lookup_of_success (h : (d.setDictionary entries).1 = none) (r : Bytes) (c : UInt16) :
    ((d.setDictionary entries).2.routes.lookup r = some c ↔
      d.routes.lookup r = some c ∨ ∃ entry ∈ entries, entry.1.trimSpace = r ∧ entry.2 = c) ∧
    ((d.setDictionary entries).2.codes.lookup c = some r ↔
      d.codes.lookup c = some r ∨ ∃ entry ∈ entries, entry.1.trimSpace = r ∧ entry.2 = c) := by
  induction entries generalizing d with
  | nil => simp [setDictionary]
  | cons entry entries ih =>
    have hfresh : ¬ d.Clashes entry :=
      ((setDictionary_eq_none_iff d _).mp h).1 entry mem_cons_self
    rw [setDictionary_of_not_clash hfresh] at h ⊢
    obtain ⟨hroutes, hcodes⟩ := ih h
    rw [hroutes, hcodes, routes_lookup_insert hfresh, codes_lookup_insert hfresh, or_assoc,
      or_assoc, exists_mem_cons_iff]
    exact ⟨Iff.rfl, Iff.rfl⟩

/-- A call that leaves the tables as they were has stopped at its first entry. -/
theorem clashes_of_unchanged (h : (d.setDictionary (entry :: entries)).2 = d) :
    d.Clashes entry := by
  by_contra hfresh
  have hstored : (d.insert entry.1.trimSpace entry.2).routes.lookup entry.1.trimSpace =
      some entry.2 := (routes_lookup_insert hfresh _ _).mpr (.inr ⟨rfl, rfl⟩)
  have hkept := (lookup_setDictionary entries).1 hstored
  rw [← setDictionary_of_not_clash hfresh, h] at hkept
  exact hfresh (.inl (Option.isSome_of_eq_some hkept))

/-! ## Every order -/

/-- No entry of the map clashes, with the tables or inside the map. -/
structure Compatible (d : Dictionary) (dict : Dict) : Prop where
  fresh : ∀ route code, dict.lookup route = some code → ¬ d.Clashes (route, code)
  apart : ∀ route code route' code', dict.lookup route = some code →
    dict.lookup route' = some code' → route ≠ route' → Apart (route, code) (route', code')

/-- The tables have the entries of the map, and otherwise what they had. -/
structure Adds (d : Dictionary) (dict : Dict) (d' : Dictionary) : Prop where
  routes : ∀ r c, d'.routes.lookup r = some c ↔
    d.routes.lookup r = some c ∨ ∃ route, dict.lookup route = some c ∧ route.trimSpace = r
  codes : ∀ r c, d'.codes.lookup c = some r ↔
    d.codes.lookup c = some r ∨ ∃ route, dict.lookup route = some c ∧ route.trimSpace = r

/-- In whichever order the map is visited, the call adds every entry or returns an error and
leaves the tables as they were; and the order makes no difference. -/
structure AllOrNothing (d : Dictionary) (dict : Dict) : Prop where
  all : ∀ entries, Visits dict entries → (d.setDictionary entries).1 = none →
    Adds d dict (d.setDictionary entries).2
  nothing : ∀ entries, Visits dict entries → (d.setDictionary entries).1 ≠ none →
    (d.setDictionary entries).2 = d
  sameResult : ∀ entries entries', Visits dict entries → Visits dict entries' →
    ((d.setDictionary entries).1 = none ↔ (d.setDictionary entries').1 = none)
  sameTables : ∀ entries entries', Visits dict entries → Visits dict entries' →
    (d.setDictionary entries).2 = (d.setDictionary entries').2

variable {dict : Dict}

theorem Adds.unique {d' d'' : Dictionary} (h : Adds d dict d') (h' : Adds d dict d'') :
    d' = d'' := by
  obtain ⟨routes, codes⟩ := d'
  obtain ⟨routes', codes'⟩ := d''
  have hroutes : routes = routes' :=
    ext_lookup fun r => Option.ext fun c => (h.routes r c).trans (h'.routes r c).symm
  have hcodes : codes = codes' :=
    ext_lookup fun c => Option.ext fun r => (h.codes r c).trans (h'.codes r c).symm
  rw [hroutes, hcodes]

theorem setDictionary_eq_none_iff_compatible (hvisits : Visits dict entries) :
    (d.setDictionary entries).1 = none ↔ d.Compatible dict := by
  rw [setDictionary_eq_none_iff]
  constructor
  · rintro ⟨hfresh, hapart⟩
    refine ⟨fun route code h => hfresh (route, code) (hvisits.mem_iff.mpr h), ?_⟩
    intro route code route' code' h h' hne
    exact hapart.forall (hvisits.mem_iff.mpr h) (hvisits.mem_iff.mpr h') fun heq =>
      hne (congrArg Prod.fst heq)
  · intro h
    refine ⟨fun e he => h.fresh e.1 e.2 (hvisits.mem_iff.mp he), ?_⟩
    have hkeys : entries.Pairwise fun e e' => e.1 ≠ e'.1 := pairwise_map.mp hvisits.nodup
    refine hkeys.imp_of_mem fun {e e'} he he' hne => ?_
    exact h.apart e.1 e.2 e'.1 e'.2 (hvisits.mem_iff.mp he) (hvisits.mem_iff.mp he') hne

theorem adds_of_none (hvisits : Visits dict entries) (h : (d.setDictionary entries).1 = none) :
    Adds d dict (d.setDictionary entries).2 := by
  have hentry (r : Bytes) (c : UInt16) : (∃ e ∈ entries, e.1.trimSpace = r ∧ e.2 = c) ↔
      ∃ route, dict.lookup route = some c ∧ route.trimSpace = r := by
    constructor
    · rintro ⟨⟨route, _⟩, hmem, hroute, rfl⟩
      exact ⟨route, hvisits.mem_iff.mp hmem, hroute⟩
    · rintro ⟨route, hlookup, hroute⟩
      exact ⟨(route, c), hvisits.mem_iff.mpr hlookup, hroute, rfl⟩
  have hlookup := lookup_of_success h
  simp only [hentry] at hlookup
  exact ⟨fun r c => (hlookup r c).1, fun r c => (hlookup r c).2⟩

theorem setDictionary_of_all_clash (hvisits : Visits dict entries)
    (h : ∀ route code, dict.lookup route = some code → d.Clashes (route, code)) :
    (d.setDictionary entries).2 = d := by
  cases entries with
  | nil => rfl
  | cons entry entries => exact setDictionary_of_clash (h _ _ hvisits.lookup_head) entries

/-- **`SetDictionary` is all-or-nothing if and only if** no entry clashes with the tables or with
another one, or all of them clash with the tables. -/
theorem allOrNothing_iff (d : Dictionary) (dict : Dict) :
    d.AllOrNothing dict ↔ d.Compatible dict ∨
      ∀ route code, dict.lookup route = some code → d.Clashes (route, code) := by
  constructor
  · intro h
    refine or_iff_not_imp_left.mpr fun hclash route code hlookup => ?_
    -- in the order that begins with this entry the call fails, and has to leave the tables
    obtain ⟨entries, hvisits⟩ := exists_visits dict
    obtain ⟨rest, hfirst⟩ := hvisits.first hlookup
    refine clashes_of_unchanged (h.nothing _ hfirst fun hnone => hclash ?_)
    exact (setDictionary_eq_none_iff_compatible hfirst).mp hnone
  · rintro (h | h)
    · have hnone {entries} (hvisits : Visits dict entries) : (d.setDictionary entries).1 = none :=
        (setDictionary_eq_none_iff_compatible hvisits).mpr h
      refine ⟨fun _ hvisits _ => adds_of_none hvisits (hnone hvisits),
        fun _ hvisits hfails => absurd (hnone hvisits) hfails,
        fun _ _ hvisits hvisits' => iff_of_true (hnone hvisits) (hnone hvisits'), ?_⟩
      intro entries entries' hvisits hvisits'
      exact (adds_of_none hvisits (hnone hvisits)).unique (adds_of_none hvisits' (hnone hvisits'))
    · refine ⟨fun _ hvisits hnone => adds_of_none hvisits hnone,
        fun _ hvisits _ => setDictionary_of_all_clash hvisits h, ?_, ?_⟩
      · intro entries entries' hvisits hvisits'
        rw [setDictionary_eq_none_iff_compatible hvisits,
          setDictionary_eq_none_iff_compatible hvisits']
      · intro entries entries' hvisits hvisits'
        rw [setDictionary_of_all_clash hvisits h, setDictionary_of_all_clash hvisits' h]

/-! ## A map with one clash -/

/-- The tables of a server that knows the route "a" under the code 1. -/
def knowsA : Dictionary := (empty.setDictionary [([97], 1)]).2

/-- The route "b", and " a" under a code of its own. -/
def twoRoutes : Dict := ((∅ : Dict).insert [98] 2).insert [32, 97] 3

/-- Both orders end with an error, and after one of them "b" is in the tables. -/
theorem half_added :
    (Visits twoRoutes [([98], 2), ([32, 97], 3)] ∧
      (knowsA.setDictionary [([98], 2), ([32, 97], 3)]).1 = some ⟨[97], 3⟩ ∧
      (knowsA.setDictionary [([98], 2), ([32, 97], 3)]).2.codes.lookup 2 = some [98]) ∧
    (Visits twoRoutes [([32, 97], 3), ([98], 2)] ∧
      knowsA.setDictionary [([32, 97], 3), ([98], 2)] = (some ⟨[97], 3⟩, knowsA)) ∧
    ¬ knowsA.AllOrNothing twoRoutes := by
  have hvisits : Visits twoRoutes [([32, 97], 3), ([98], 2)] :=
    (visits_empty.cons (Finmap.notMem_empty) 2).cons (by decide +kernel) 3
  have hswapped := hvisits.of_perm (List.Perm.swap _ _ _)
  refine ⟨⟨hswapped, by decide +kernel, by decide +kernel⟩, ⟨hvisits, by decide +kernel⟩, ?_⟩
  intro h
  exact absurd (h.nothing _ hswapped (by decide +kernel)) (by decide +kernel)

end Pitaya.Conn.Message.Dictionary
