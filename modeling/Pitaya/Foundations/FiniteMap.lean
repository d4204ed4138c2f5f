import Mathlib.Data.Finmap

/-!
# Sizes and values of finite maps

`Finmap` is the model of a hash map whose iteration order does not matter.  This
module adds what Mathlib leaves out: the number of entries and the multiset of
values with the effect of the updates on them, the entries on which a partial
function is defined, and assignments of several entries.
-/

universe u v w

namespace Finmap

open List

variable {α : Type u} {β : Type v} {γ : Type w}

/-! ## Size -/

/-- The number of entries. -/
def size (m : Finmap fun _ : α => β) : ℕ := m.keys.card

variable {m : Finmap fun _ : α => β}

theorem size_eq_zero_iff : m.size = 0 ↔ ∀ a, a ∉ m := by
  rw [size, Finset.card_eq_zero, Finset.eq_empty_iff_forall_notMem]
  simp only [mem_keys]

variable [DecidableEq α]

theorem eq_empty_of_size_eq_zero (h : m.size = 0) : m = ∅ :=
  ext_lookup fun a => by
    rw [lookup_eq_none.mpr (size_eq_zero_iff.mp h a), lookup_empty]

theorem keys_insert (a : α) (b : β) (m : Finmap fun _ : α => β) :
    (m.insert a b).keys = Insert.insert a m.keys := by
  ext a'
  rw [mem_keys, mem_insert, Finset.mem_insert, mem_keys]

variable {a : α}

theorem size_insert_of_notMem (h : a ∉ m) (b : β) : (m.insert a b).size = m.size + 1 := by
  rw [size, keys_insert, Finset.card_insert_of_notMem (by rwa [mem_keys])]
  rfl

theorem size_insert_of_mem (h : a ∈ m) (b : β) : (m.insert a b).size = m.size := by
  rw [size, keys_insert, Finset.insert_eq_of_mem (by rwa [mem_keys])]
  rfl

theorem size_erase_of_mem (h : a ∈ m) : (m.erase a).size + 1 = m.size := by
  rw [size, keys_erase, Finset.card_erase_add_one (by rwa [mem_keys])]
  rfl

theorem erase_of_notMem (h : a ∉ m) : m.erase a = m := by
  refine ext_lookup fun a' => ?_
  by_cases ha : a' = a
  · rw [ha, lookup_erase, lookup_eq_none.mpr h]
  · exact lookup_erase_ne ha

theorem size_erase_of_notMem (h : a ∉ m) : (m.erase a).size = m.size := by
  rw [erase_of_notMem h]

/-- Two maps agree if they do at one key and elsewhere. -/
theorem eq_iff_erase_eq_and_lookup_eq (a : α) {m' : Finmap fun _ : α => β} :
    m = m' ↔ m.erase a = m'.erase a ∧ m.lookup a = m'.lookup a := by
  constructor
  · rintro rfl
    exact ⟨rfl, rfl⟩
  · rintro ⟨herase, hlookup⟩
    refine ext_lookup fun a' => ?_
    by_cases ha : a' = a
    · rw [ha, hlookup]
    · rw [← lookup_erase_ne ha, herase, lookup_erase_ne ha]

/-! ## Values -/

/-- The values, with multiplicity. -/
def values (m : Finmap fun _ : α => β) : Multiset β := m.entries.map fun e => e.2

variable {b : β}

theorem mem_values : b ∈ m.values ↔ ∃ a, m.lookup a = some b := by
  rw [values, Multiset.mem_map]
  constructor
  · rintro ⟨e, he, rfl⟩
    exact ⟨e.1, mem_lookup_iff.mpr he⟩
  · rintro ⟨a, ha⟩
    exact ⟨⟨a, b⟩, mem_lookup_iff.mp ha, rfl⟩

theorem insert_erase_self : (m.erase a).insert a b = m.insert a b := by
  refine ext_lookup fun a' => ?_
  by_cases ha : a' = a
  · rw [ha, lookup_insert, lookup_insert]
  · rw [lookup_insert_of_ne _ ha, lookup_insert_of_ne _ ha, lookup_erase_ne ha]

theorem erase_insert_self : (m.insert a b).erase a = m.erase a := by
  refine ext_lookup fun a' => ?_
  by_cases ha : a' = a
  · rw [ha, lookup_erase, lookup_erase]
  · rw [lookup_erase_ne ha, lookup_erase_ne ha, lookup_insert_of_ne _ ha]

theorem insert_of_lookup (h : m.lookup a = some b) : m.insert a b = m := by
  refine ext_lookup fun a' => ?_
  by_cases ha : a' = a
  · rw [ha, lookup_insert, h]
  · rw [lookup_insert_of_ne _ ha]

theorem values_insert_of_notMem (h : a ∉ m) (b : β) : (m.insert a b).values = b ::ₘ m.values := by
  rw [values, entries_insert_of_notMem h, Multiset.map_cons]
  rfl

/-- Replacing a value. -/
theorem values_insert (a : α) (b : β) (m : Finmap fun _ : α => β) :
    (m.insert a b).values = b ::ₘ (m.erase a).values := by
  rw [← insert_erase_self, values_insert_of_notMem notMem_erase_self]

/-- Taking a value out. -/
theorem values_of_lookup (h : m.lookup a = some b) : m.values = b ::ₘ (m.erase a).values := by
  rw [← values_insert, insert_of_lookup h]

/-! ## Selecting entries -/

omit [DecidableEq α] in
private theorem nodupKeys_filterMap (f : (_ : α) × β → Option ((_ : α) × γ))
    (hkey : ∀ e e', f e = some e' → e'.1 = e.1) (l : List ((_ : α) × β)) (h : l.NodupKeys) :
    (l.filterMap f).NodupKeys := by
  rw [nodupKeys_iff_pairwise] at h ⊢
  rw [pairwise_filterMap]
  refine h.imp fun {e₁ e₂} hne b₁ h₁ b₂ h₂ => ?_
  rw [hkey _ _ h₁, hkey _ _ h₂]
  exact hne

/-- Keep the entries on which `f` is defined, with the value it gives. -/
def filterMapValues (f : α → β → Option γ) (m : Finmap fun _ : α => β) :
    Finmap fun _ : α => γ where
  entries := m.entries.filterMap fun e => (f e.1 e.2).map fun c => ⟨e.1, c⟩
  nodupKeys := by
    obtain ⟨entries, nodup⟩ := m
    induction entries using Quotient.inductionOn with
    | h l =>
      refine Multiset.coe_nodupKeys.mpr (nodupKeys_filterMap _ ?_ l nodup)
      rintro ⟨a, b⟩ e' h
      cases hf : f a b with
      | none => simp [hf] at h
      | some c =>
        simp only [hf, Option.map_some, Option.some.injEq] at h
        rw [← h]

/-- What is selected under a key. -/
theorem lookup_filterMapValues (f : α → β → Option γ) (m : Finmap fun _ : α => β) (a : α) :
    (m.filterMapValues f).lookup a = (m.lookup a).bind (f a) := by
  refine Option.ext fun c => ?_
  rw [← Option.mem_def, mem_lookup_iff]
  simp only [filterMapValues, Multiset.mem_filterMap, Option.map_eq_some_iff,
    Option.bind_eq_some_iff]
  constructor
  · rintro ⟨⟨a', b⟩, hmem, c', hf, heq⟩
    cases heq
    exact ⟨b, mem_lookup_iff.mpr hmem, hf⟩
  · rintro ⟨b, hlookup, hf⟩
    exact ⟨⟨a, b⟩, mem_lookup_iff.mp hlookup, c, hf, rfl⟩

/-! ## Several assignments -/

/-- Assign one entry after the other. -/
def assign (m : Finmap fun _ : α => β) (entries : List (α × β)) : Finmap fun _ : α => β :=
  entries.foldl (fun m e => m.insert e.1 e.2) m

/-- A key that is there or assigned, and assigned to one value only. -/
theorem lookup_assign {entries : List (α × β)} (hvalue : ∀ e ∈ entries, e.1 = a → e.2 = b)
    (h : m.lookup a = some b ∨ ∃ e ∈ entries, e.1 = a) : (m.assign entries).lookup a = some b := by
  induction entries generalizing m with
  | nil =>
    obtain h | ⟨e, he, -⟩ := h
    · exact h
    · exact absurd he not_mem_nil
  | cons e entries ih =>
    refine ih (fun e' he' => hvalue e' (mem_cons_of_mem _ he')) ?_
    by_cases ha : a = e.1
    · subst ha
      exact .inl (by rw [lookup_insert, hvalue e mem_cons_self rfl])
    · rw [lookup_insert_of_ne _ ha]
      refine h.imp_right ?_
      rintro ⟨e', he', heq⟩
      obtain rfl | hmem := mem_cons.mp he'
      · exact absurd heq.symm ha
      · exact ⟨e', hmem, heq⟩

end Finmap
