import Mathlib.Data.Finmap
import Mathlib.Data.List.Nodup

/-!
# Orders of a map

A loop over a hash map visits its entries one after the other, in an order that is not
specified.  `VisitsKeys m order` says that `order` is one of these orders, and `Visits m entries`
the same with the values beside the keys, so that a statement about every order is a statement
about every such list.

* `exists_visits` — there is an order.
* `Visits.of_perm` — a permutation of an order is one.
-/

universe u v

namespace Ranges

open Finmap List

variable {K : Type u} {V : Type v} [DecidableEq K]

/-- The keys of the map, each of them once. -/
def VisitsKeys (m : Finmap fun _ : K => V) (order : List K) : Prop :=
  order.Nodup ∧ order.toFinset = m.keys

instance (m : Finmap fun _ : K => V) (order : List K) : Decidable (VisitsKeys m order) :=
  inferInstanceAs (Decidable (_ ∧ _))

/-- The entries of the map, each of them once. -/
structure Visits (m : Finmap fun _ : K => V) (entries : List (K × V)) : Prop where
  keys : VisitsKeys m (entries.map Prod.fst)
  lookup : ∀ {k v}, (k, v) ∈ entries → m.lookup k = some v

variable {m : Finmap fun _ : K => V} {entries entries' : List (K × V)} {k k' : K} {v v' : V}

theorem VisitsKeys.mem_iff {order : List K} (h : VisitsKeys m order) :
    k ∈ order ↔ (m.lookup k).isSome = true := by
  rw [← mem_toFinset, h.2, Finmap.mem_keys, lookup_isSome]

theorem Visits.nodup (h : Visits m entries) : (entries.map Prod.fst).Nodup := h.keys.1

theorem Visits.mem_iff (h : Visits m entries) : (k, v) ∈ entries ↔ m.lookup k = some v := by
  refine ⟨h.lookup, fun hv => ?_⟩
  have hk : k ∈ entries.map Prod.fst := h.keys.mem_iff.mpr (by rw [hv, Option.isSome_some])
  obtain ⟨⟨_, v'⟩, hmem, rfl⟩ := mem_map.mp hk
  obtain rfl := Option.some.inj ((h.lookup hmem).symm.trans hv)
  exact hmem

theorem Visits.of_mem_iff (nodup : (entries.map Prod.fst).Nodup)
    (mem_iff : ∀ k v, (k, v) ∈ entries ↔ m.lookup k = some v) : Visits m entries where
  keys := by
    refine ⟨nodup, Finset.ext fun k => ?_⟩
    rw [mem_toFinset, mem_map, Finmap.mem_keys, ← lookup_isSome, Option.isSome_iff_exists]
    constructor
    · rintro ⟨⟨_, v⟩, hmem, rfl⟩
      exact ⟨v, (mem_iff _ v).mp hmem⟩
    · rintro ⟨v, hv⟩
      exact ⟨(k, v), (mem_iff k v).mpr hv, rfl⟩
  lookup := (mem_iff _ _).mp

theorem visits_empty : Visits (∅ : Finmap fun _ : K => V) [] :=
  .of_mem_iff List.nodup_nil (by simp)

theorem Visits.cons (h : Visits m entries) (hk : k ∉ m) (v : V) :
    Visits (m.insert k v) ((k, v) :: entries) := by
  refine of_mem_iff (nodup_cons.mpr ⟨fun hmem => hk ?_, h.nodup⟩) fun k' v' => ?_
  · obtain ⟨⟨_, v'⟩, hv', rfl⟩ := mem_map.mp hmem
    exact mem_of_lookup_eq_some (h.lookup hv')
  · rw [mem_cons, h.mem_iff, Prod.mk.injEq]
    by_cases hkey : k' = k
    · subst hkey
      rw [lookup_insert, lookup_eq_none.mpr hk]
      simp [eq_comm]
    · rw [lookup_insert_of_ne _ hkey]
      simp [hkey]

theorem exists_visits (m : Finmap fun _ : K => V) : ∃ entries, Visits m entries := by
  obtain ⟨sigmas, nodup⟩ := m
  induction sigmas using Quotient.inductionOn with
  | h sigmas =>
    refine ⟨sigmas.map fun e => (e.1, e.2), .of_mem_iff ?_ fun k v => ?_⟩
    · rw [map_map]
      exact Multiset.coe_nodupKeys.mp nodup
    · rw [← Option.mem_def, mem_lookup_iff, mem_map]
      constructor
      · rintro ⟨e, he, heq⟩
        cases heq
        exact he
      · exact fun he => ⟨⟨k, v⟩, he, rfl⟩

namespace Visits

theorem of_perm (h : Visits m entries) (hperm : entries.Perm entries') : Visits m entries' :=
  of_mem_iff ((hperm.map Prod.fst).nodup_iff.mp h.nodup) fun k v => by
    rw [← hperm.mem_iff, h.mem_iff]

/-- Any entry can be the first one. -/
theorem first (h : Visits m entries) (hk : m.lookup k = some v) :
    ∃ rest, Visits m ((k, v) :: rest) := by
  obtain ⟨before, after, rfl⟩ := append_of_mem (h.mem_iff.mpr hk)
  exact ⟨before ++ after, h.of_perm perm_middle⟩

/-- After the first entry, any other one can be the second. -/
theorem second (h : Visits m entries) (hk : m.lookup k = some v) (hk' : m.lookup k' = some v')
    (hne : k' ≠ k) : ∃ rest, Visits m ((k, v) :: (k', v') :: rest) := by
  obtain ⟨rest, hfirst⟩ := h.first hk
  have hmem : (k', v') ∈ rest := by
    refine (mem_cons.mp (hfirst.mem_iff.mpr hk')).resolve_left fun heq => hne ?_
    exact congrArg Prod.fst heq
  obtain ⟨before, after, rfl⟩ := append_of_mem hmem
  exact ⟨before ++ after, hfirst.of_perm (perm_middle.cons _)⟩

/-- The entries after the first one are those of the map without it. -/
theorem tail (h : Visits m ((k, v) :: entries)) : Visits (m.erase k) entries := by
  refine of_mem_iff (List.nodup_cons.mp h.nodup).2 fun k' v' => ?_
  have hmem : (k', v') ∈ (k, v) :: entries ↔ m.lookup k' = some v' := h.mem_iff
  by_cases hkey : k' = k
  · subst hkey
    rw [lookup_erase]
    refine iff_of_false (fun hin => (nodup_cons.mp h.nodup).1 ?_) (Option.some_ne_none v').symm
    exact mem_map.mpr ⟨(k', v'), hin, rfl⟩
  · rw [lookup_erase_ne hkey, ← hmem, mem_cons, Prod.mk.injEq]
    simp [hkey]

theorem lookup_head (h : Visits m ((k, v) :: entries)) : m.lookup k = some v :=
  h.lookup mem_cons_self

theorem eq_empty_of_nil (h : Visits m []) : m = ∅ := by
  refine ext_lookup fun k => ?_
  rw [lookup_empty, Option.eq_none_iff_forall_ne_some]
  exact fun v hv => not_mem_nil (h.mem_iff.mpr hv)

end Visits

end Ranges
