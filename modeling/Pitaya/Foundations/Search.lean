import Mathlib.Data.Set.Insert
import Mathlib.Logic.Relation
import Mathlib.Tactic.Common

/-!
# Searches that mark what they have seen

A search of a graph that never enters a marked node twice, described by the marks
before and after it.  While the search is under way the marked nodes are not closed
under the edges, as a node is marked before its neighbours are; what is closed is the
part that the search has added.  `Explores` says that, and it composes: nothing to
do, one search after the other, and a node followed by its neighbours.
-/

namespace Search

open Relation

variable {α : Type*} {next : α → α → Prop} {V V' V'' roots roots' : Set α} {x : α}

/-- Started with the marks `V`, the search from `roots` ends with the marks `V'`. -/
structure Explores (next : α → α → Prop) (roots V V' : Set α) : Prop where
  grows : V ⊆ V'
  root_mem : roots ⊆ V'
  step : ∀ x ∈ V', x ∉ V → ∀ y, next x y → y ∈ V'
  sound : ∀ y ∈ V', y ∈ V ∨ ∃ r ∈ roots, ReflTransGen next r y

theorem Explores.refl (h : roots ⊆ V) : Explores next roots V V where
  grows _ hx := hx
  root_mem := h
  step _ hx hn := absurd hx hn
  sound _ hx := .inl hx

theorem Explores.trans (h : Explores next roots V V') (h' : Explores next roots' V' V'') :
    Explores next (roots ∪ roots') V V'' where
  grows := h.grows.trans h'.grows
  root_mem := Set.union_subset (h.root_mem.trans h'.grows) h'.root_mem
  step x hx hn y hy := by
    by_cases hx' : x ∈ V'
    · exact h'.grows (h.step x hx' hn y hy)
    · exact h'.step x hx hx' y hy
  sound y hy := by
    rcases h'.sound y hy with hy' | ⟨r, hr, hp⟩
    · rcases h.sound y hy' with hV | ⟨r, hr, hp⟩
      · exact .inl hV
      · exact .inr ⟨r, .inl hr, hp⟩
    · exact .inr ⟨r, .inr hr, hp⟩

/-- A node is marked and its neighbours are searched. -/
theorem Explores.node (h : Explores next {y | next x y} (insert x V) V') :
    Explores next {x} V V' where
  grows _ hy := h.grows (.inr hy)
  root_mem := Set.singleton_subset_iff.mpr (h.grows (.inl rfl))
  step y hy hn z hz := by
    by_cases hyx : y = x
    · subst hyx
      exact h.root_mem hz
    · exact h.step y hy (fun hm => hm.elim hyx hn) z hz
  sound y hy := by
    rcases h.sound y hy with (rfl | hV) | ⟨r, hr, hp⟩
    · exact .inr ⟨y, rfl, .refl⟩
    · exact .inl hV
    · exact .inr ⟨x, rfl, .head hr hp⟩

/-- Started with closed marks, a search adds what can be reached from its roots. -/
theorem Explores.mem_iff (h : Explores next roots V V') (hV : ∀ x ∈ V, ∀ y, next x y → y ∈ V)
    (y : α) : y ∈ V' ↔ y ∈ V ∨ ∃ r ∈ roots, ReflTransGen next r y := by
  refine ⟨h.sound y, ?_⟩
  rintro (hy | ⟨r, hr, hp⟩)
  · exact h.grows hy
  · induction hp with
    | refl => exact h.root_mem hr
    | @tail a b _ hab ih =>
      by_cases ha : a ∈ V
      · exact h.grows (hV a ha b hab)
      · exact h.step a ih ha b hab

end Search
