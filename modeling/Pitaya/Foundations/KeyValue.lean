import Mathlib.Data.Finset.Image
import Pitaya.Foundations.FiniteMap

/-!
# A key-value store with leases

The keys are strings, and a range of keys is given by its prefix.  An entry may be attached to a
lease, and all entries of a lease go when it expires.

* `Compare`, `Request`, `Store.commit` — transactions: if all comparisons hold, the requests are
  carried out together.  To attach an entry to a lease that is gone is an error, and then nothing
  is done.
* `Store.grant`, `Store.keepAliveOnce`, `Store.expire` — leases.

Of what etcd documents the store realises this: a transaction is atomic and isolated, so that
transactions follow one another in one order; a range is read from one state; what is written
stays until it is overwritten, deleted or its lease ends; a put with an unknown lease is refused;
with the lease go all its keys at once.  How long a lease lives is open: it may expire at any
time.  Revisions are left out: a key that has an entry was created at a revision greater than
zero.
-/

universe u v

namespace KeyValue

open Option Finmap Finset

/-- An entry: its value, and its lease, which is 0 if there is none. -/
structure Entry (V : Type v) where
  value : V
  lease : ℕ := 0
  deriving DecidableEq, Repr

/-- The entries, the leases that are alive, and the last lease that was granted. -/
structure Store (α : Type u) (V : Type v) where
  entries : Finmap fun _ : List α => Entry V := ∅
  leases : Finset ℕ := ∅
  lastLease : ℕ := 0

/-- A comparison of the revision a key was created at with 0. -/
inductive Compare (α : Type u) where
  /-- `CreateRevision(key) > 0`. -/
  | created (key : List α)
  /-- `CreateRevision(key) = 0`. -/
  | missing (key : List α)

/-- What a transaction does. -/
inductive Request (α : Type u) (V : Type v) where
  | put (key : List α) (value : V) (lease : ℕ)
  | get (key : List α)
  | getPrefix (start : List α)
  | delete (key : List α)
  | deletePrefix (start : List α)

/-- The only way a transaction can fail: a lease that is not there. -/
inductive TxnError where
  | leaseNotFound
  deriving DecidableEq, Repr

/-- The answer to a request: the keys in the range, if it asks for one. -/
inductive Response (α : Type u) where
  | done
  | range (keys : Finset (List α))

namespace Response

variable {α : Type u}

/-- The keys of the first response. -/
def firstKeys : List (Response α) → Finset (List α)
  | range keys :: _ => keys
  | _ => ∅

end Response

namespace Store

variable {α : Type u} {V : Type v} [DecidableEq α]

/-! ## Transactions -/

variable (s : Store α V)

/-- The keys that start with `start`. -/
def keysWithPrefix (start : List α) : Finset (List α) :=
  s.entries.keys.filter fun key => start <+: key

/-- Whether a comparison holds. -/
def holds (s : Store α V) : Compare α → Bool
  | .created key => decide (key ∈ s.entries)
  | .missing key => decide (key ∉ s.entries)

/-- One request of a transaction. -/
def apply : Request α V → Except TxnError (Store α V × Response α)
  | .put key value lease =>
    if lease = 0 ∨ lease ∈ s.leases then
      .ok ({ s with entries := s.entries.insert key ⟨value, lease⟩ }, .done)
    else .error .leaseNotFound
  | .get key => .ok (s, .range (s.entries.keys.filter fun k => k = key))
  | .getPrefix start => .ok (s, .range (s.keysWithPrefix start))
  | .delete key => .ok ({ s with entries := s.entries.erase key }, .done)
  | .deletePrefix start =>
    .ok ({ s with
      entries := s.entries.filterMapValues fun key e => if start <+: key then none else some e },
      .done)

/-- The requests of a transaction, one after the other. -/
def applyAll (s : Store α V) :
    List (Request α V) → Except TxnError (Store α V × List (Response α))
  | [] => .ok (s, [])
  | request :: requests => do
      let (s, response) ← s.apply request
      let (s, responses) ← s.applyAll requests
      return (s, response :: responses)

/-- A transaction.  There are no responses if a comparison fails. -/
def commit (compares : List (Compare α)) (requests : List (Request α V)) :
    Except TxnError (Store α V × Option (List (Response α))) :=
  if compares.all s.holds then do
    let (s, responses) ← s.applyAll requests
    return (s, some responses)
  else .ok (s, none)

/-! ## Leases -/

/-- A new lease. -/
def grant : Store α V × ℕ :=
  ({ s with leases := insert (s.lastLease + 1) s.leases, lastLease := s.lastLease + 1 },
    s.lastLease + 1)

/-- A lease is prolonged, if it is still there. -/
def keepAliveOnce (lease : ℕ) : Except TxnError Unit :=
  if lease ∈ s.leases then .ok () else .error .leaseNotFound

/-- A lease expires, and its entries go. -/
def expire (lease : ℕ) : Store α V :=
  { s with
    entries := s.entries.filterMapValues fun _ e => if e.lease = lease then none else some e
    leases := s.leases.erase lease }

/-! ## What the operations do -/

variable {s : Store α V}

/-- A transaction whose comparisons fail. -/
theorem commit_of_fails {compares : List (Compare α)} (h : compares.all s.holds = false)
    (requests : List (Request α V)) : s.commit compares requests = .ok (s, none) := by
  rw [commit, if_neg (Bool.eq_false_iff.mp h)]

/-- A transaction whose comparisons hold. -/
theorem commit_of_holds {compares : List (Compare α)} (h : compares.all s.holds = true)
    (requests : List (Request α V)) : s.commit compares requests =
      (s.applyAll requests).map fun result => (result.1, some result.2) := by
  rw [commit, if_pos h]
  cases s.applyAll requests <;> rfl

theorem applyAll_get (s : Store α V) (key : List α) :
    s.applyAll [.get key] = .ok (s, [.range (s.entries.keys.filter fun k => k = key)]) := rfl

theorem applyAll_getPrefix (s : Store α V) (start : List α) :
    s.applyAll [.getPrefix start] = .ok (s, [.range (s.keysWithPrefix start)]) := rfl

theorem card_filter_keys_pos {key : List α} :
    (s.entries.keys.filter fun k => k = key).card > 0 ↔ key ∈ s.entries := by
  rw [gt_iff_lt, card_pos, ← mem_keys]
  constructor
  · rintro ⟨k, hk⟩
    obtain ⟨hmem, rfl⟩ := mem_filter.mp hk
    exact hmem
  · intro h
    exact ⟨key, mem_filter.mpr ⟨h, rfl⟩⟩

variable {lease : ℕ}

theorem applyAll_put_of_alive (h : lease = 0 ∨ lease ∈ s.leases) (key : List α) (value : V) :
    s.applyAll [.put key value lease] =
      .ok ({ s with entries := s.entries.insert key ⟨value, lease⟩ }, [.done]) := by
  rw [applyAll, apply, if_pos h]
  rfl

theorem applyAll_put_of_gone (h : ¬ (lease = 0 ∨ lease ∈ s.leases)) (key : List α) (value : V) :
    s.applyAll [.put key value lease] = .error .leaseNotFound := by
  rw [applyAll, apply, if_neg h]
  rfl

theorem mem_keysWithPrefix {start key : List α} :
    key ∈ s.keysWithPrefix start ↔ key ∈ s.entries ∧ start <+: key := by
  rw [keysWithPrefix, mem_filter, mem_keys]

theorem lookup_deletePrefix (entries : Finmap fun _ : List α => Entry V) (start key : List α) :
    (entries.filterMapValues fun key e => if start <+: key then none else some e).lookup key =
      if start <+: key then none else entries.lookup key := by
  rw [lookup_filterMapValues]
  cases entries.lookup key with
  | none => split <;> rfl
  | some => rfl

/-! ## The leases of the entries -/

/-- The leases of the entries are alive. -/
def Leased (s : Store α V) : Prop :=
  ∀ key e, s.entries.lookup key = some e → e.lease = 0 ∨ e.lease ∈ s.leases

variable {s : Store α V}

theorem leased_start : Leased (α := α) (V := V) {} := by
  intro key e h
  cases h

theorem Leased.put (hs : s.Leased) (h : lease = 0 ∨ lease ∈ s.leases) (key : List α) (value : V) :
    Leased { s with entries := s.entries.insert key ⟨value, lease⟩ } := by
  intro key' e he
  by_cases hkey : key' = key
  · subst hkey
    rw [lookup_insert] at he
    obtain rfl := some.inj he
    exact h
  · rw [lookup_insert_of_ne _ hkey] at he
    exact hs key' e he

/-- Entries may go. -/
theorem Leased.of_lookup (hs : s.Leased) {entries : Finmap fun _ : List α => Entry V}
    (hle : ∀ key e, entries.lookup key = some e → s.entries.lookup key = some e) :
    Leased { s with entries := entries } :=
  fun key e h => hs key e (hle key e h)

theorem Leased.grant (hs : s.Leased) : s.grant.1.Leased :=
  fun key e h => (hs key e h).imp_right mem_insert_of_mem

theorem Leased.expire (hs : s.Leased) (lease : ℕ) : (s.expire lease).Leased := by
  intro key e h
  rw [Store.expire, lookup_filterMapValues, bind_eq_some_iff] at h
  obtain ⟨e', he', h⟩ := h
  obtain ⟨hne, h⟩ := ite_none_left_eq_some.mp h
  obtain rfl := some.inj h
  exact (hs key e' he').imp_right fun hmem => mem_erase.mpr ⟨hne, hmem⟩

end Store

end KeyValue
