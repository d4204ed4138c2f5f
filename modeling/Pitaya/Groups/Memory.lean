import Mathlib.Data.List.Perm.Basic
import Pitaya.Foundations.Transition
import Pitaya.Groups.GroupService

/-!
# The group service in memory

`groups/memory_group_service.go`: the groups of a server, in a map under one mutex, and the loop
that removes the groups whose time is over.

* `MemoryGroups.call` — the ten methods; each holds the mutex from its first to its last line.
* `memory` — calls and ticks one after the other, as the mutex orders them.

The members are a slice, and a member is removed by moving the last one to its place.  That removes
the member only because it is in the slice once (`MemoryGroup.Proper`).  `Represents` relates the
map to a `GroupMap`; one lemma for each call says that it is kept, and that the answers agree.
-/

namespace Pitaya.Groups

open Transition Finmap Option

structure MemoryGroup where
  uids : List Bytes := []
  lastRefresh : ℤ := 0
  ttl : ℤ := 0
  deriving DecidableEq, Repr

abbrev MemoryGroups : Type := Finmap fun _ : Bytes => MemoryGroup

namespace MemoryGroups

variable (s : MemoryGroups) (groupName : Bytes)

def groupCreate : MemoryGroups × Answer (List Bytes) :=
  if groupName ∈ s then (s, .error .groupAlreadyExists)
  else (s.insert groupName {}, .ok .done)

def groupCreateWithTTL (now : ℤ) (groupName : Bytes) (ttlTime : ℤ) :
    MemoryGroups × Answer (List Bytes) :=
  if groupName ∈ s then (s, .error .groupAlreadyExists)
  else (s.insert groupName { lastRefresh := now, ttl := ttlTime }, .ok .done)

def groupMembers : Answer (List Bytes) :=
  match s.lookup groupName with
  | none => .error .groupNotFound
  | some mg => .ok (.members mg.uids)

def groupContainsMember (groupName uid : Bytes) : Answer (List Bytes) :=
  match s.lookup groupName with
  | none => .error .groupNotFound
  | some mg => .ok (.contains (elementIndex mg.uids uid).2)

def groupAddMember (groupName uid : Bytes) :
    MemoryGroups × Answer (List Bytes) :=
  match s.lookup groupName with
  | none => (s, .error .groupNotFound)
  | some mg =>
    if (elementIndex mg.uids uid).2 then (s, .error .memberAlreadyExists)
    else (s.insert groupName { mg with uids := mg.uids ++ [uid] }, .ok .done)

/-- The last element takes the place at `index`, and the slice gets shorter by one. -/
def swapRemove (uids : List Bytes) (index : ℕ) : List Bytes :=
  (uids.set index (uids.getLastD [])).dropLast

def groupRemoveMember (groupName uid : Bytes) :
    MemoryGroups × Answer (List Bytes) :=
  match s.lookup groupName with
  | none => (s, .error .groupNotFound)
  | some mg =>
    match elementIndex mg.uids uid with
    | (index, true) =>
      (s.insert groupName { mg with uids := swapRemove mg.uids index }, .ok .done)
    | (_, false) => (s, .error .memberNotFound)

def groupRemoveAll : MemoryGroups × Answer (List Bytes) :=
  match s.lookup groupName with
  | none => (s, .error .groupNotFound)
  | some mg => (s.insert groupName { mg with uids := [] }, .ok .done)

def groupDelete : MemoryGroups × Answer (List Bytes) :=
  if groupName ∈ s then (s.erase groupName, .ok .done) else (s, .error .groupNotFound)

def groupCountMembers : Answer (List Bytes) :=
  match s.lookup groupName with
  | none => .error .groupNotFound
  | some mg => .ok (.count mg.uids.length)

def groupRenewTTL (now : ℤ) (groupName : Bytes) :
    MemoryGroups × Answer (List Bytes) :=
  match s.lookup groupName with
  | none => (s, .error .groupNotFound)
  | some mg =>
    if mg.ttl ≠ 0 then (s.insert groupName { mg with lastRefresh := now }, .ok .done)
    else (s, .error .memoryTTLNotFound)

/-- A call, and the time the clock shows in it. -/
def call (s : MemoryGroups) (now : ℤ) : Call → MemoryGroups × Answer (List Bytes)
  | .groupCreate groupName => s.groupCreate groupName
  | .groupCreateWithTTL groupName ttlTime => s.groupCreateWithTTL now groupName ttlTime
  | .groupMembers groupName => (s, s.groupMembers groupName)
  | .groupContainsMember groupName uid => (s, s.groupContainsMember groupName uid)
  | .groupAddMember groupName uid => s.groupAddMember groupName uid
  | .groupRemoveMember groupName uid => s.groupRemoveMember groupName uid
  | .groupRemoveAll groupName => s.groupRemoveAll groupName
  | .groupDelete groupName => s.groupDelete groupName
  | .groupCountMembers groupName => (s, s.groupCountMembers groupName)
  | .groupRenewTTL groupName => s.groupRenewTTL now groupName

/-- The condition in the loop of `groupTTLCleanup`. -/
def due (mg : MemoryGroup) (now : ℤ) : Bool :=
  decide (mg.ttl ≠ 0) && decide (now - mg.lastRefresh > mg.ttl)

/-- The body of the loop of `groupTTLCleanup`, for one name. -/
def cleanup (now : ℤ) (s : MemoryGroups) (groupName : Bytes) : MemoryGroups :=
  match s.lookup groupName with
  | none => s
  | some mg => if due mg now then s.erase groupName else s

/-- One tick of `groupTTLCleanup`; `order` is the order in which the map is visited. -/
def groupTTLCleanup (s : MemoryGroups) (now : ℤ) (order : List Bytes) : MemoryGroups :=
  order.foldl (cleanup now) s

end MemoryGroups

/-- What happens to the service, in the order of the mutex. -/
inductive MemoryEvent where
  | call (now : ℤ) (c : Call)
  | tick (now : ℤ) (order : List Bytes)

/-- The service: calls of any clients and ticks, at any times. -/
def memory : System MemoryGroups MemoryEvent where
  start := ∅
  step s
    | .call now c => some (s.call now c).1
    | .tick now order =>
      if order.Nodup ∧ order.toFinset = s.keys then some (s.groupTTLCleanup now order) else none

/-! ## What the map stands for -/

/-- The group that an entry of the map stands for. -/
def MemoryGroup.toGroup (mg : MemoryGroup) : Group :=
  ⟨mg.uids.toFinset, GroupMap.expiryOf mg.ttl mg.lastRefresh⟩

/-- No member is in the slice twice. -/
def MemoryGroups.Proper (s : MemoryGroups) : Prop :=
  ∀ groupName mg, s.lookup groupName = some mg → mg.uids.Nodup

/-- The map stands for these groups. -/
def MemoryGroups.Represents (s : MemoryGroups) (t : GroupMap) : Prop :=
  ∀ groupName, t.lookup groupName = (s.lookup groupName).map MemoryGroup.toGroup

/-- The same event on a map of sets. -/
def GroupMap.step (t : GroupMap) : MemoryEvent → GroupMap
  | .call now c => (t.call now c).1
  | .tick now _ => t.tick now

namespace MemoryGroups

variable {s : MemoryGroups} {t : GroupMap}

theorem Represents.lookup_none (hrep : s.Represents t) {groupName : Bytes}
    (h : s.lookup groupName = none) : t.lookup groupName = none := by
  rw [hrep, h]
  rfl

variable {mg : MemoryGroup}

theorem Represents.lookup_some (hrep : s.Represents t) {groupName : Bytes}
    (h : s.lookup groupName = some mg) : t.lookup groupName = some mg.toGroup := by
  rw [hrep, h]
  rfl

theorem Represents.insert (hrep : s.Represents t) (groupName : Bytes) (mg : MemoryGroup) :
    Represents (Finmap.insert groupName mg s) (Finmap.insert groupName mg.toGroup t) := by
  intro name
  by_cases h : name = groupName
  · subst h
    rw [lookup_insert, lookup_insert]
    rfl
  · rw [lookup_insert_of_ne _ h, lookup_insert_of_ne _ h, hrep]

theorem Represents.erase (hrep : s.Represents t) (groupName : Bytes) :
    Represents (Finmap.erase groupName s) (Finmap.erase groupName t) := by
  intro name
  by_cases h : name = groupName
  · subst h
    rw [lookup_erase, lookup_erase]
    rfl
  · rw [lookup_erase_ne h, lookup_erase_ne h, hrep]

theorem Proper.insert (hs : s.Proper) (groupName : Bytes) (hmg : mg.uids.Nodup) :
    Proper (Finmap.insert groupName mg s) := by
  intro name mg' h
  by_cases hname : name = groupName
  · subst hname
    rw [lookup_insert] at h
    obtain rfl := some.inj h
    exact hmg
  · rw [lookup_insert_of_ne _ hname] at h
    exact hs name mg' h

theorem Proper.of_lookup {s' : MemoryGroups} (hs : s.Proper)
    (hle : ∀ name mg, s'.lookup name = some mg → s.lookup name = some mg) : s'.Proper :=
  fun name mg h => hs name mg (hle name mg h)

theorem Proper.erase (hs : s.Proper) (groupName : Bytes) : Proper (Finmap.erase groupName s) := by
  refine hs.of_lookup fun name mg h => ?_
  by_cases hname : name = groupName
  · subst hname
    rw [lookup_erase] at h
    cases h
  · rwa [lookup_erase_ne hname] at h

/-! ## Removing a member -/

/-- Moving the last element to an index and shortening the slice takes that index out. -/
theorem swapRemove_perm {uids : List Bytes} {index : ℕ} (h : index < uids.length) :
    (swapRemove uids index).Perm (uids.eraseIdx index) := by
  rcases List.eq_nil_or_concat uids with rfl | ⟨front, last, rfl⟩
  · cases h
  · rw [List.concat_eq_append] at h ⊢
    rw [List.length_append, List.length_singleton] at h
    rw [swapRemove, List.getLastD_concat]
    rcases Nat.lt_succ_iff_lt_or_eq.mp h with hlt | rfl
    · rw [List.set_append_left _ _ hlt, List.dropLast_concat, List.eraseIdx_append_of_lt_length hlt]
      exact (List.set_perm_cons_eraseIdx hlt last).trans (List.perm_append_singleton _ _).symm
    · rw [List.set_append_right _ _ le_rfl, Nat.sub_self, List.set_cons_zero, List.dropLast_concat,
        List.eraseIdx_append_of_length_le le_rfl, Nat.sub_self, List.eraseIdx_cons_zero,
        List.append_nil]

theorem swapRemove_idxOf_perm {uids : List Bytes} {uid : Bytes} (h : uid ∈ uids) :
    (swapRemove uids (uids.idxOf uid)).Perm (uids.erase uid) := by
  rw [List.erase_eq_eraseIdx_of_idxOf rfl]
  exact swapRemove_perm (List.idxOf_lt_length_of_mem h)

/-! ## The cleanup -/

theorem lookup_cleanup (now : ℤ) (s : MemoryGroups) (groupName name : Bytes) :
    (cleanup now s groupName).lookup name =
      if name = groupName then (s.lookup name).filter fun mg => !due mg now
      else s.lookup name := by
  rw [cleanup]
  by_cases hname : name = groupName
  · subst hname
    rw [if_pos rfl]
    cases hlookup : s.lookup name with
    | none => exact hlookup
    | some mg =>
      rw [filter_some]
      dsimp only
      cases hdue : due mg now with
      | true => exact lookup_erase _ _
      | false => exact hlookup
  · rw [if_neg hname]
    cases s.lookup groupName with
    | none => rfl
    | some =>
      dsimp only
      split
      · exact lookup_erase_ne hname
      · rfl

theorem lookup_foldl_cleanup (now : ℤ) (order : List Bytes) (s : MemoryGroups) (name : Bytes) :
    (order.foldl (cleanup now) s).lookup name =
      if name ∈ order then (s.lookup name).filter fun mg => !due mg now
      else s.lookup name := by
  induction order generalizing s with
  | nil => rfl
  | cons groupName order ih =>
    rw [List.foldl_cons, ih, lookup_cleanup]
    by_cases hname : name = groupName
    · subst hname
      rw [if_pos rfl, if_pos List.mem_cons_self, filter_filter]
      simp only [Bool.and_self, ite_self]
    · simp only [List.mem_cons, hname, false_or, if_false]

variable {order : List Bytes}

/-- **A tick removes exactly the groups that are due**, in whatever order it visits them. -/
theorem lookup_groupTTLCleanup (s : MemoryGroups) (now : ℤ) (horder : order.toFinset = s.keys)
    (name : Bytes) : (s.groupTTLCleanup now order).lookup name =
      (s.lookup name).filter fun mg => !due mg now := by
  rw [groupTTLCleanup, lookup_foldl_cleanup]
  split
  · rfl
  · rename_i hname
    rw [← List.mem_toFinset, horder, mem_keys] at hname
    rw [lookup_eq_none.mpr hname]
    rfl

theorem not_due (mg : MemoryGroup) (now : ℤ) :
    (!due mg now) = decide (mg.ttl = 0 ∨ now - mg.lastRefresh ≤ mg.ttl) := by
  rw [due, Bool.not_and, ← decide_not, ← decide_not, ← Bool.decide_or, decide_eq_decide, not_not,
    gt_iff_lt, not_lt]

theorem due_iff (mg : MemoryGroup) (now : ℤ) : due mg now = true ↔ mg.toGroup.Expired now := by
  rw [due, Bool.and_eq_true, decide_eq_true_iff, decide_eq_true_iff, Group.Expired,
    MemoryGroup.toGroup, GroupMap.expiryOf]
  by_cases h : mg.ttl = 0
  · simp only [h, ne_eq, not_true, false_and, if_true, not_mem_none, exists_false]
  · simp only [h, ne_eq, not_false_eq_true, true_and, if_false, mem_some_iff, gt_iff_lt,
      exists_eq_left']

theorem Represents.tick (hrep : s.Represents t) (now : ℤ) (horder : order.toFinset = s.keys) :
    Represents (s.groupTTLCleanup now order) (GroupMap.tick t now) := by
  intro name
  rw [GroupMap.tick, lookup_filterMapValues, hrep, lookup_groupTTLCleanup s now horder]
  cases s.lookup name with
  | none => rfl
  | some mg =>
    rw [map_some, bind_some, filter_some]
    by_cases hdue : due mg now = true
    · rw [if_pos ((due_iff mg now).mp hdue), hdue]
      rfl
    · rw [if_neg (mt (due_iff mg now).mpr hdue), Bool.eq_false_of_not_eq_true hdue]
      rfl

theorem Proper.tick (hs : s.Proper) (now : ℤ) (horder : order.toFinset = s.keys) :
    Proper (s.groupTTLCleanup now order) := by
  refine hs.of_lookup fun name mg h => ?_
  rw [lookup_groupTTLCleanup s now horder, filter_eq_some_iff] at h
  exact h.1

/-! ## The calls -/

/-- A call on the map and the same call on the groups it stands for: the map stands for the
groups again, no member is in a slice twice, the answers agree, an error changes nothing, and no
other group is changed. -/
structure Follows (s : MemoryGroups) (groupName : Bytes) (next : MemoryGroups × Answer (List Bytes))
    (next' : GroupMap × Answer (Finset Bytes)) : Prop where
  represents : next.1.Represents next'.1
  proper : next.1.Proper
  agrees : Agrees next.2 next'.2
  unchanged : ∀ e, next.2 = .error e → next.1 = s
  frame : ∀ other, other ≠ groupName → next.1.lookup other = s.lookup other

theorem Follows.read (hrep : s.Represents t) (hs : s.Proper) (groupName : Bytes)
    {answer : Answer (List Bytes)} {answer' : Answer (Finset Bytes)} (h : Agrees answer answer') :
    Follows s groupName (s, answer) (t, answer') :=
  ⟨hrep, hs, h, fun _ _ => rfl, fun _ _ => rfl⟩

theorem Follows.write (hrep : s.Represents t) (hs : s.Proper) (groupName : Bytes) {g : Group}
    (hmg : mg.uids.Nodup) (hg : mg.toGroup = g) :
    Follows s groupName (Finmap.insert groupName mg s, .ok .done)
      (Finmap.insert groupName g t, .ok .done) := by
  subst hg
  refine ⟨hrep.insert groupName mg, hs.insert groupName hmg, trivial, ?_, ?_⟩
  · intro e h
    cases h
  · intro other hother
    exact lookup_insert_of_ne _ hother

theorem Follows.delete (hrep : s.Represents t) (hs : s.Proper) (groupName : Bytes) :
    Follows s groupName (Finmap.erase groupName s, .ok .done)
      (Finmap.erase groupName t, .ok .done) := by
  refine ⟨hrep.erase groupName, hs.erase groupName, trivial, ?_, ?_⟩
  · intro e h
    cases h
  · intro other hother
    exact lookup_erase_ne hother

section Calls

variable (hrep : s.Represents t) (hs : s.Proper)
include hrep hs

theorem follows_missing (now : ℤ) {c : Call} (hlookup : s.lookup c.groupName = none) :
    Follows s c.groupName (s.call now c) (t.call now c) := by
  have ht := hrep.lookup_none hlookup
  have hmissing := lookup_eq_none.mp hlookup
  cases c <;> dsimp only [Call.groupName] at hlookup ht hmissing <;>
    simp only [call, groupCreate, groupCreateWithTTL, groupMembers, groupContainsMember,
      groupAddMember, groupRemoveMember, groupRemoveAll, groupDelete, groupCountMembers,
      groupRenewTTL, GroupMap.call, hlookup, ht, hmissing, if_false]
  case groupCreate name => exact .write hrep hs name List.nodup_nil rfl
  case groupCreateWithTTL name ttlTime => exact .write hrep hs name List.nodup_nil rfl
  -- the other calls need the group
  all_goals exact .read hrep hs _ rfl

/-- A call on a group that exists.  A member is removed exactly, since it is in the slice once. -/
theorem follows_existing (now : ℤ) {c : Call} (hlookup : s.lookup c.groupName = some mg) :
    Follows s c.groupName (s.call now c) (t.call now c) := by
  have ht := hrep.lookup_some hlookup
  have hmem := mem_of_lookup_eq_some hlookup
  have hnodup := hs c.groupName mg hlookup
  cases c <;> dsimp only [Call.groupName] at hlookup ht hmem <;>
    simp only [call, groupCreate, groupCreateWithTTL, groupMembers, groupContainsMember,
      groupAddMember, groupRemoveMember, groupRemoveAll, groupDelete, groupCountMembers,
      groupRenewTTL, GroupMap.call, hlookup, ht, hmem, if_true, elementIndex_eq,
      MemoryGroup.toGroup, List.mem_toFinset]
  case groupCreate name => exact .read hrep hs name rfl
  case groupCreateWithTTL name ttlTime => exact .read hrep hs name rfl
  case groupMembers name =>
    refine .read hrep hs name ?_
    show (mg.uids : Multiset Bytes) = mg.uids.toFinset.val
    rw [List.toFinset_val, hnodup.dedup]
  case groupContainsMember name uid =>
    refine .read hrep hs name ?_
    by_cases huid : uid ∈ mg.uids
    · rw [if_pos huid, decide_eq_true huid]
      rfl
    · rw [if_neg huid, decide_eq_false huid]
      rfl
  case groupAddMember name uid =>
    by_cases huid : uid ∈ mg.uids
    · simp only [huid, if_true]
      exact .read hrep hs name rfl
    · simp only [huid, if_false, Bool.false_eq_true]
      refine .write hrep hs name ?_ ?_
      · exact List.concat_eq_append ▸ hnodup.concat huid
      · rw [MemoryGroup.toGroup, List.toFinset_append, List.toFinset_cons, List.toFinset_nil,
          insert_empty_eq, Finset.union_comm, ← Finset.insert_eq]
  case groupRemoveMember name uid =>
    by_cases huid : uid ∈ mg.uids
    · simp only [huid, if_true]
      have hperm := swapRemove_idxOf_perm huid
      refine .write hrep hs name (hperm.nodup_iff.mpr (hnodup.erase uid)) ?_
      rw [MemoryGroup.toGroup, List.toFinset_eq_of_perm _ _ hperm]
      refine congrArg (fun uids => Group.mk uids _) (Finset.ext fun other => ?_)
      rw [List.mem_toFinset, hnodup.mem_erase_iff, Finset.mem_erase, List.mem_toFinset]
    · simp only [huid, if_false]
      exact .read hrep hs name rfl
  case groupRemoveAll name => exact .write hrep hs name List.nodup_nil rfl
  case groupDelete name => exact .delete hrep hs name
  case groupCountMembers name =>
    refine .read hrep hs name ?_
    show mg.uids.length = mg.uids.toFinset.card
    rw [List.toFinset_card_of_nodup hnodup]
  case groupRenewTTL name =>
    by_cases httl : mg.ttl = 0
    · simp only [GroupMap.expiryOf, httl, ne_eq, not_true, if_false, if_true]
      exact .read hrep hs name rfl
    · simp only [GroupMap.expiryOf, httl, ne_eq, not_false_eq_true, if_true, if_false]
      refine .write hrep hs name hnodup ?_
      simp only [MemoryGroup.toGroup, GroupMap.expiryOf, httl, if_false]

/-- **Every call** does to the map what it should do to the groups. -/
theorem follows_call (now : ℤ) (c : Call) :
    Follows s c.groupName (s.call now c) (t.call now c) := by
  cases hlookup : s.lookup c.groupName with
  | none => exact follows_missing hrep hs now hlookup
  | some => exact follows_existing hrep hs now hlookup

end Calls

/-! ## Runs -/

theorem represents_start : Represents ∅ ∅ := by
  intro name
  rfl

theorem proper_start : Proper ∅ := by
  intro name mg h
  cases h

theorem step_follows {s' : MemoryGroups} {event : MemoryEvent} (hrep : s.Represents t)
    (hs : s.Proper) (hstep : memory.step s event = some s') :
    s'.Represents (t.step event) ∧ s'.Proper := by
  cases event with
  | call now c =>
    obtain rfl := some.inj hstep
    have h := follows_call hrep hs now c
    exact ⟨h.represents, h.proper⟩
  | tick now =>
    obtain ⟨⟨-, horder⟩, hstep⟩ := ite_none_right_eq_some.mp hstep
    obtain rfl := some.inj hstep
    exact ⟨hrep.tick now horder, hs.tick now horder⟩

theorem represents_of_run {events : List MemoryEvent} (hrun : memory.run events = some s) :
    s.Represents (events.foldl GroupMap.step ∅) ∧ s.Proper := by
  apply System.run_induction
    ⟨represents_start, proper_start⟩ ?_ hrun
  rintro events event s s' - ⟨hrep, hs⟩ hstep
  rw [List.foldl_concat]
  exact step_follows hrep hs hstep

/-- The map stands for a map of sets, and does what a map of sets does. -/
structure ImplementsSets (s : MemoryGroups) (t : GroupMap) : Prop where
  represents : s.Represents t
  proper : s.Proper
  /-- The result or the error of a call is the one it should be. -/
  answers : ∀ now c, Agrees (s.call now c).2 (t.call now c).2
  /-- A call that fails changes nothing. -/
  unchanged : ∀ now c e, (s.call now c).2 = .error e → (s.call now c).1 = s
  /-- A call changes no group but its own. -/
  frame : ∀ now c groupName, groupName ≠ c.groupName →
    (s.call now c).1.lookup groupName = s.lookup groupName
  /-- A member that is removed is the only one that goes. -/
  removes : ∀ now groupName uid mg, s.lookup groupName = some mg → uid ∈ mg.uids →
    ∃ mg', (s.call now (.groupRemoveMember groupName uid)).1.lookup groupName = some mg' ∧
      mg'.uids.Perm (mg.uids.erase uid)
  /-- A tick removes the groups whose last refresh is longer ago than their time to live, unless
  that is zero, and no others. -/
  ticks : ∀ now order s', memory.step s (.tick now order) = some s' → ∀ groupName,
    s'.lookup groupName = (s.lookup groupName).filter fun mg =>
      decide (mg.ttl = 0 ∨ now - mg.lastRefresh ≤ mg.ttl)

/-- **The service in memory is a map of sets**, after every sequence of calls and ticks. -/
theorem memory_implementsSets {events : List MemoryEvent} {s : MemoryGroups}
    (hrun : memory.run events = some s) : s.ImplementsSets (events.foldl GroupMap.step ∅) := by
  obtain ⟨hrep, hs⟩ := represents_of_run hrun
  refine ⟨hrep, hs, ?_, ?_, ?_, ?_, ?_⟩
  · intro now c
    exact (follows_call hrep hs now c).agrees
  · intro now c
    exact (follows_call hrep hs now c).unchanged
  · intro now c
    exact (follows_call hrep hs now c).frame
  · intro now groupName uid mg hlookup huid
    refine ⟨{ mg with uids := swapRemove mg.uids (mg.uids.idxOf uid) }, ?_,
      swapRemove_idxOf_perm huid⟩
    simp only [call, groupRemoveMember, hlookup, elementIndex_eq, huid, if_true]
    exact Finmap.lookup_insert _
  · intro now order s' hstep groupName
    obtain ⟨⟨-, horder⟩, hstep⟩ := Option.ite_none_right_eq_some.mp hstep
    obtain rfl := Option.some.inj hstep
    rw [lookup_groupTTLCleanup s now horder]
    refine congrArg (fun p => (s.lookup groupName).filter p) (funext fun mg => ?_)
    exact not_due mg now

/-- Two groups: one loses a member in the middle, the other has had its time. -/
theorem memory_implementsSets_removed_and_due : ∃ events s, memory.run events = some s ∧
    s.ImplementsSets (events.foldl GroupMap.step ∅) ∧ s.lookup [1] = none ∧
    s.lookup [2] = some { uids := [[7], [9]] } := by
  refine ⟨[.call 0 (.groupCreateWithTTL [1] 10), .call 1 (.groupCreate [2]),
    .call 2 (.groupAddMember [2] [7]), .call 3 (.groupAddMember [2] [8]),
    .call 4 (.groupAddMember [2] [9]), .call 5 (.groupRemoveMember [2] [8]),
    .tick 11 [[2], [1]]], ?_⟩
  exact reaches_and (by decide +kernel) fun s hs _ => memory_implementsSets hs

end MemoryGroups

end Pitaya.Groups
