import Mathlib.Data.Finset.Card
import Pitaya.Foundations.ByteString
import Pitaya.Foundations.FiniteMap

/-!
# Group services

`groups/group_service.go`: the interface that the two back ends implement, and what it is for.

* `Call`, `Value`, `Answer` — the methods of `GroupService` with their arguments, and what they
  return.  The type of the members is a parameter, since a back end returns them as a slice.
* `GroupMap.call` — a group service as a map of sets: the members of a group, and when it expires.
-/

namespace Pitaya.Groups

open Nat

/-- The errors of the group services. -/
inductive GroupError where
  /-- `ErrGroupAlreadyExists`, "group already exists". -/
  | groupAlreadyExists
  /-- `ErrGroupNotFound`, "group not found". -/
  | groupNotFound
  /-- `ErrMemberAlreadyExists`, "member already exists in group". -/
  | memberAlreadyExists
  /-- `ErrMemberNotFound`, "member not found in the group". -/
  | memberNotFound
  /-- `ErrMemoryTTLNotFound`, "memory group TTL not found". -/
  | memoryTTLNotFound
  /-- `ErrEtcdLeaseNotFound`, "etcd lease not found in group". -/
  | etcdLeaseNotFound
  /-- The store refuses a request because of its lease. -/
  | storeLeaseNotFound
  deriving DecidableEq, Repr

/-- The methods of `GroupService`. -/
inductive Call where
  | groupCreate (groupName : Bytes)
  | groupCreateWithTTL (groupName : Bytes) (ttlTime : ℤ)
  | groupMembers (groupName : Bytes)
  | groupContainsMember (groupName uid : Bytes)
  | groupAddMember (groupName uid : Bytes)
  | groupRemoveMember (groupName uid : Bytes)
  | groupRemoveAll (groupName : Bytes)
  | groupDelete (groupName : Bytes)
  | groupCountMembers (groupName : Bytes)
  | groupRenewTTL (groupName : Bytes)
  deriving DecidableEq, Repr

/-- The group a call is about. -/
def Call.groupName : Call → Bytes
  | groupCreate name | groupCreateWithTTL name _ | groupMembers name | groupContainsMember name _
  | groupAddMember name _ | groupRemoveMember name _ | groupRemoveAll name | groupDelete name
  | groupCountMembers name | groupRenewTTL name => name

/-- What a call returns if it does not fail. -/
inductive Value (M : Type) where
  | done
  | members (uids : M)
  | contains (found : Bool)
  | count (amount : ℕ)
  deriving DecidableEq, Repr

/-- A result, or an error. -/
abbrev Answer (M : Type) : Type := Except GroupError (Value M)

/-- The loop of `elementIndex`, from an index on. -/
def elementIndexFrom (element : Bytes) : ℕ → List Bytes → ℕ × Bool
  | _, [] => (0, false)
  | i, sliceElement :: rest =>
    if element = sliceElement then (i, true) else elementIndexFrom element (i + 1) rest

def elementIndex (slice : List Bytes) (element : Bytes) : ℕ × Bool :=
  elementIndexFrom element 0 slice

theorem elementIndexFrom_eq (element : Bytes) (i : ℕ) (slice : List Bytes) :
    elementIndexFrom element i slice =
      if element ∈ slice then (i + slice.idxOf element, true) else (0, false) := by
  induction slice generalizing i with
  | nil => rfl
  | cons sliceElement rest ih =>
    rw [elementIndexFrom, ih]
    by_cases h : element = sliceElement
    · subst h
      rw [if_pos rfl, if_pos List.mem_cons_self, List.idxOf_cons_self, add_zero]
    · rw [if_neg h, List.idxOf_cons_ne _ (Ne.symm h), succ_eq_add_one, add_assoc,
        add_comm 1]
      simp only [List.mem_cons, h, false_or]

theorem elementIndex_eq (slice : List Bytes) (element : Bytes) :
    elementIndex slice element =
      if element ∈ slice then (slice.idxOf element, true) else (0, false) := by
  rw [elementIndex, elementIndexFrom_eq, zero_add]

/-! ## A map of sets -/

/-- How long a group may stay without a refresh, and the last refresh. -/
structure Expiry where
  ttl : ℤ
  lastRefresh : ℤ
  deriving DecidableEq, Repr

/-- A group: its members, and its expiry if it has one. -/
structure Group where
  uids : Finset Bytes := ∅
  expiry : Option Expiry := none
  deriving DecidableEq

/-- The groups by name. -/
abbrev GroupMap : Type := Finmap fun _ : Bytes => Group

/-- The group is due at a time. -/
def Group.Expired (g : Group) (now : ℤ) : Prop :=
  ∃ e ∈ g.expiry, e.ttl < now - e.lastRefresh

namespace GroupMap

/-- A time to live of zero means that the group stays. -/
def expiryOf (ttl now : ℤ) : Option Expiry := if ttl = 0 then none else some ⟨ttl, now⟩

/-- A call at a time: the groups after it, and its answer. -/
def call (t : GroupMap) (now : ℤ) : Call → GroupMap × Answer (Finset Bytes)
  | .groupCreate name =>
    match t.lookup name with
    | some _ => (t, .error .groupAlreadyExists)
    | none => (t.insert name {}, .ok .done)
  | .groupCreateWithTTL name ttl =>
    match t.lookup name with
    | some _ => (t, .error .groupAlreadyExists)
    | none => (t.insert name { expiry := expiryOf ttl now }, .ok .done)
  | .groupMembers name =>
    match t.lookup name with
    | none => (t, .error .groupNotFound)
    | some g => (t, .ok (.members g.uids))
  | .groupContainsMember name uid =>
    match t.lookup name with
    | none => (t, .error .groupNotFound)
    | some g => (t, .ok (.contains (decide (uid ∈ g.uids))))
  | .groupAddMember name uid =>
    match t.lookup name with
    | none => (t, .error .groupNotFound)
    | some g =>
      if uid ∈ g.uids then (t, .error .memberAlreadyExists)
      else (t.insert name { g with uids := insert uid g.uids }, .ok .done)
  | .groupRemoveMember name uid =>
    match t.lookup name with
    | none => (t, .error .groupNotFound)
    | some g =>
      if uid ∈ g.uids then (t.insert name { g with uids := g.uids.erase uid }, .ok .done)
      else (t, .error .memberNotFound)
  | .groupRemoveAll name =>
    match t.lookup name with
    | none => (t, .error .groupNotFound)
    | some g => (t.insert name { g with uids := ∅ }, .ok .done)
  | .groupDelete name =>
    match t.lookup name with
    | none => (t, .error .groupNotFound)
    | some _ => (t.erase name, .ok .done)
  | .groupCountMembers name =>
    match t.lookup name with
    | none => (t, .error .groupNotFound)
    | some g => (t, .ok (.count g.uids.card))
  | .groupRenewTTL name =>
    match t.lookup name with
    | none => (t, .error .groupNotFound)
    | some g =>
      match g.expiry with
      | some e => (t.insert name { g with expiry := some { e with lastRefresh := now } }, .ok .done)
      | none => (t, .error .memoryTTLNotFound)

instance (g : Group) (now : ℤ) : Decidable (g.Expired now) :=
  inferInstanceAs (Decidable (∃ e ∈ g.expiry, e.ttl < now - e.lastRefresh))

/-- The groups that are due are removed. -/
def tick (t : GroupMap) (now : ℤ) : GroupMap :=
  t.filterMapValues fun _ g => if g.Expired now then none else some g

end GroupMap

/-- A slice of members stands for the set it lists without repetition. -/
def Value.Agrees : Value (List Bytes) → Value (Finset Bytes) → Prop
  | members uids, members set => (uids : Multiset Bytes) = set.val
  | done, done => True
  | contains found, contains found' => found = found'
  | count amount, count amount' => amount = amount'
  | _, _ => False

/-- The same error, or results that agree. -/
def Agrees : Answer (List Bytes) → Answer (Finset Bytes) → Prop
  | .ok value, .ok value' => value.Agrees value'
  | .error e, .error e' => e = e'
  | _, _ => False

end Pitaya.Groups
