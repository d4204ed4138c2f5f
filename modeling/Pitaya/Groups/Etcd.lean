import Pitaya.Foundations.KeyValue
import Pitaya.Foundations.Transition
import Pitaya.Groups.GroupService

/-!
# The group service in etcd

`groups/etcd_group_service.go`: a group is a key, each member is a key below it, and a group with a
time to live is attached to a lease together with its members.

* `EtcdStore.getGroupKV`, `createGroup`, `addMember`, … — the requests.  Each is one step of the
  store; only `GroupCreateWithTTL`, `GroupAddMember` and `GroupRenewTTL` make two.
* `EtcdStore.call` — the ten methods, each without anything in between.
* `Owns` — the keys a group reads and writes.  Two groups are isolated from each other if and only
  if no key is owned by both, which is a condition on their names (`Separate`).
-/

namespace Pitaya.Groups

open KeyValue Transition List Store

/-- The store; the values of the keys are empty strings. -/
abbrev EtcdStore : Type := Store UInt8 Bytes

/-- `groupKey`: `groups/<name>`. -/
def groupKey (groupName : Bytes) : Bytes := [103, 114, 111, 117, 112, 115, 47] ++ groupName

/-- `memberKey`: `groups/<name>/uids/<uid>`. -/
def memberKey (groupName uid : Bytes) : Bytes :=
  groupKey groupName ++ [47, 117, 105, 100, 115, 47] ++ uid

namespace EtcdStore

variable (s : EtcdStore)

/-- What a method makes of the answer to its transaction. -/
def txn (compares : List (Compare UInt8)) (requests : List (Request UInt8 Bytes))
    (notSucceeded : GroupError) (succeeded : List (Response UInt8) → Value (Finset Bytes)) :
    EtcdStore × Answer (Finset Bytes) :=
  match s.commit compares requests with
  | .error .leaseNotFound => (s, .error .storeLeaseNotFound)
  | .ok (s', none) => (s', .error notSucceeded)
  | .ok (s', some responses) => (s', .ok (succeeded responses))

variable (groupName : Bytes)

def getGroupKV : Except GroupError (Entry Bytes) :=
  match s.entries.lookup (groupKey groupName) with
  | none => .error .groupNotFound
  | some kv => .ok kv

/-- `createGroup`.  A lease of 0 is no lease. -/
def createGroup (s : EtcdStore) (groupName : Bytes) (leaseID : ℕ) :
    EtcdStore × Answer (Finset Bytes) :=
  s.txn [.missing (groupKey groupName)] [.put (groupKey groupName) [] leaseID]
    .groupAlreadyExists fun _ => .done

def groupCreate : EtcdStore × Answer (Finset Bytes) :=
  s.createGroup groupName 0

def groupCreateWithTTL : EtcdStore × Answer (Finset Bytes) :=
  let (s, lease) := s.grant
  createGroup s groupName lease

def groupMembers : EtcdStore × Answer (Finset Bytes) :=
  s.txn [.created (groupKey groupName)] [.getPrefix (memberKey groupName [])]
    .groupNotFound fun responses =>
      .members ((Response.firstKeys responses).image (List.drop (memberKey groupName []).length))

def groupContainsMember (groupName uid : Bytes) :
    EtcdStore × Answer (Finset Bytes) :=
  s.txn [.created (groupKey groupName)] [.get (memberKey groupName uid)]
    .groupNotFound fun responses => .contains (decide ((Response.firstKeys responses).card > 0))

/-- The transaction of `GroupAddMember`, with the lease that was read before. -/
def addMember (groupName uid : Bytes) (lease : ℕ) :
    EtcdStore × Answer (Finset Bytes) :=
  s.txn [.created (groupKey groupName), .missing (memberKey groupName uid)]
    [.put (memberKey groupName uid) [] lease] .memberAlreadyExists fun _ => .done

def groupAddMember (groupName uid : Bytes) : EtcdStore × Answer (Finset Bytes) :=
  match s.getGroupKV groupName with
  | .error e => (s, .error e)
  | .ok kv => s.addMember groupName uid kv.lease

def groupRemoveMember (groupName uid : Bytes) :
    EtcdStore × Answer (Finset Bytes) :=
  s.txn [.created (memberKey groupName uid)] [.delete (memberKey groupName uid)]
    .memberNotFound fun _ => .done

def groupRemoveAll : EtcdStore × Answer (Finset Bytes) :=
  s.txn [.created (groupKey groupName)] [.deletePrefix (memberKey groupName [])]
    .groupNotFound fun _ => .done

def groupDelete : EtcdStore × Answer (Finset Bytes) :=
  s.txn [.created (groupKey groupName)]
    [.deletePrefix (memberKey groupName []), .delete (groupKey groupName)]
    .groupNotFound fun _ => .done

/-- `GroupCountMembers`: it does not ask for the group. -/
def groupCountMembers : Answer (Finset Bytes) :=
  .ok (.count (s.keysWithPrefix (memberKey groupName [])).card)

def groupRenewTTL : Answer (Finset Bytes) :=
  match s.getGroupKV groupName with
  | .error e => .error e
  | .ok kv =>
    if kv.lease ≠ 0 then
      match s.keepAliveOnce kv.lease with
      | .error .leaseNotFound => .error .storeLeaseNotFound
      | .ok () => .ok .done
    else .error .etcdLeaseNotFound

/-- A call. -/
def call (s : EtcdStore) : Call → EtcdStore × Answer (Finset Bytes)
  | .groupCreate groupName => s.groupCreate groupName
  | .groupCreateWithTTL groupName _ => s.groupCreateWithTTL groupName
  | .groupMembers groupName => s.groupMembers groupName
  | .groupContainsMember groupName uid => s.groupContainsMember groupName uid
  | .groupAddMember groupName uid => s.groupAddMember groupName uid
  | .groupRemoveMember groupName uid => s.groupRemoveMember groupName uid
  | .groupRemoveAll groupName => s.groupRemoveAll groupName
  | .groupDelete groupName => s.groupDelete groupName
  | .groupCountMembers groupName => (s, s.groupCountMembers groupName)
  | .groupRenewTTL groupName => (s, s.groupRenewTTL groupName)

end EtcdStore

/-- What happens to the store: a call, or a lease expires. -/
inductive EtcdEvent where
  | call (c : Call)
  | expire (lease : ℕ)

/-- The service: calls on any groups one after the other, and leases that expire. -/
def etcd : System EtcdStore EtcdEvent where
  start := {}
  step s
    | .call c => some (s.call c).1
    | .expire lease => if lease ∈ s.leases then some (s.expire lease) else none

/-! ## What the requests do -/

namespace EtcdStore

variable {s : EtcdStore}

section Txn

variable {compares : List (Compare UInt8)} {requests : List (Request UInt8 Bytes)}
variable (notSucceeded : GroupError) (succeeded : List (Response UInt8) → Value (Finset Bytes))

theorem txn_of_fails (h : compares.all s.holds = false) :
    s.txn compares requests notSucceeded succeeded = (s, .error notSucceeded) := by
  rw [txn, commit_of_fails h]

theorem txn_of_done {s' : EtcdStore} {responses : List (Response UInt8)}
    (h : compares.all s.holds = true) (hdone : s.applyAll requests = .ok (s', responses)) :
    s.txn compares requests notSucceeded succeeded = (s', .ok (succeeded responses)) := by
  rw [txn, commit_of_holds h, hdone]
  rfl

theorem txn_of_error (h : compares.all s.holds = true)
    (herror : s.applyAll requests = .error .leaseNotFound) :
    s.txn compares requests notSucceeded succeeded = (s, .error .storeLeaseNotFound) := by
  rw [txn, commit_of_holds h, herror]
  rfl

theorem txn_put_eq (h : compares.all s.holds = true) (key : Bytes) (lease : ℕ) :
    s.txn compares [.put key [] lease] notSucceeded succeeded =
      if lease = 0 ∨ lease ∈ s.leases then
        ({ s with entries := s.entries.insert key ⟨[], lease⟩ }, .ok (succeeded [.done]))
      else (s, .error .storeLeaseNotFound) := by
  by_cases hlease : lease = 0 ∨ lease ∈ s.leases
  · rw [if_pos hlease]
    exact txn_of_done _ _ h (applyAll_put_of_alive hlease _ _)
  · rw [if_neg hlease]
    exact txn_of_error _ _ h (applyAll_put_of_gone hlease _ _)

end Txn

theorem holds_created {key : Bytes} :
    [Compare.created key].all s.holds = decide (key ∈ s.entries) :=
  Bool.and_true _

theorem holds_missing {key : Bytes} :
    [Compare.missing key].all s.holds = decide (key ∉ s.entries) :=
  Bool.and_true _

theorem createGroup_eq (s : EtcdStore) (groupName : Bytes) (leaseID : ℕ) :
    s.createGroup groupName leaseID =
      if groupKey groupName ∈ s.entries then (s, .error .groupAlreadyExists)
      else if leaseID = 0 ∨ leaseID ∈ s.leases then
        ({ s with entries := s.entries.insert (groupKey groupName) ⟨[], leaseID⟩ }, .ok .done)
      else (s, .error .storeLeaseNotFound) := by
  by_cases hgroup : groupKey groupName ∈ s.entries
  · rw [if_pos hgroup]
    exact txn_of_fails _ _ (holds_missing.trans (decide_eq_false (not_not.mpr hgroup)))
  · have hholds := holds_missing.trans (decide_eq_true hgroup)
    rw [if_neg hgroup]
    exact txn_put_eq _ _ hholds _ _

theorem addMember_eq (s : EtcdStore) (groupName uid : Bytes) (lease : ℕ) :
    s.addMember groupName uid lease =
      if groupKey groupName ∈ s.entries ∧ memberKey groupName uid ∉ s.entries then
        if lease = 0 ∨ lease ∈ s.leases then
          ({ s with entries := s.entries.insert (memberKey groupName uid) ⟨[], lease⟩ }, .ok .done)
        else (s, .error .storeLeaseNotFound)
      else (s, .error .memberAlreadyExists) := by
  have hall : [Compare.created (groupKey groupName),
      .missing (memberKey groupName uid)].all s.holds =
      decide (groupKey groupName ∈ s.entries ∧ memberKey groupName uid ∉ s.entries) := by
    rw [Bool.decide_and]
    exact congrArg _ (Bool.and_true _)
  by_cases hif : groupKey groupName ∈ s.entries ∧ memberKey groupName uid ∉ s.entries
  · have hholds := hall.trans (decide_eq_true hif)
    rw [if_pos hif]
    exact txn_put_eq _ _ hholds _ _
  · rw [if_neg hif]
    exact txn_of_fails _ _ (hall.trans (decide_eq_false hif))

theorem txn_created_eq (s : EtcdStore) (key : Bytes) {requests : List (Request UInt8 Bytes)}
    {s' : EtcdStore} {responses : List (Response UInt8)}
    (hdone : s.applyAll requests = .ok (s', responses)) (notSucceeded : GroupError)
    (succeeded : List (Response UInt8) → Value (Finset Bytes)) :
    s.txn [.created key] requests notSucceeded succeeded =
      if key ∈ s.entries then (s', .ok (succeeded responses)) else (s, .error notSucceeded) := by
  by_cases hkey : key ∈ s.entries
  · rw [if_pos hkey]
    exact txn_of_done _ _ (holds_created.trans (decide_eq_true hkey)) hdone
  · rw [if_neg hkey]
    exact txn_of_fails _ _ (holds_created.trans (decide_eq_false hkey))

/-- The members of a group, whether the group exists or not. -/
def members (s : EtcdStore) (groupName : Bytes) : Finset Bytes :=
  (s.keysWithPrefix (memberKey groupName [])).image (List.drop (memberKey groupName []).length)

/-- The store without the members of a group. -/
def clear (s : EtcdStore) (groupName : Bytes) : EtcdStore :=
  { s with
    entries := s.entries.filterMapValues fun key e =>
      if memberKey groupName [] <+: key then none else some e }

theorem groupMembers_eq (s : EtcdStore) (groupName : Bytes) :
    s.groupMembers groupName =
      if groupKey groupName ∈ s.entries then (s, .ok (.members (s.members groupName)))
      else (s, .error .groupNotFound) :=
  txn_created_eq s _ (s.applyAll_getPrefix _) _ _

theorem groupContainsMember_eq (s : EtcdStore) (groupName uid : Bytes) :
    s.groupContainsMember groupName uid =
      if groupKey groupName ∈ s.entries then
        (s, .ok (.contains (decide (memberKey groupName uid ∈ s.entries))))
      else (s, .error .groupNotFound) := by
  refine (txn_created_eq s _ (s.applyAll_get _) _ _).trans ?_
  simp only [Response.firstKeys, card_filter_keys_pos]

theorem groupRemoveMember_eq (s : EtcdStore) (groupName uid : Bytes) :
    s.groupRemoveMember groupName uid =
      if memberKey groupName uid ∈ s.entries then
        ({ s with entries := s.entries.erase (memberKey groupName uid) }, .ok .done)
      else (s, .error .memberNotFound) :=
  txn_created_eq s _ rfl _ _

theorem groupRemoveAll_eq (s : EtcdStore) (groupName : Bytes) :
    s.groupRemoveAll groupName =
      if groupKey groupName ∈ s.entries then (s.clear groupName, .ok .done)
      else (s, .error .groupNotFound) :=
  txn_created_eq s _ rfl _ _

theorem groupDelete_eq (s : EtcdStore) (groupName : Bytes) :
    s.groupDelete groupName =
      if groupKey groupName ∈ s.entries then
        ({ s.clear groupName with
          entries := (s.clear groupName).entries.erase (groupKey groupName) }, .ok .done)
      else (s, .error .groupNotFound) :=
  txn_created_eq s _ rfl _ _

end EtcdStore

/-! ## The keys of a group -/

variable (groupName : Bytes) (uid : Bytes)

theorem memberKey_eq : memberKey groupName uid = memberKey groupName [] ++ uid := by
  rw [memberKey, memberKey, append_nil]

theorem memberKey_inj {groupName uid uid' : Bytes} :
    memberKey groupName uid = memberKey groupName uid' ↔ uid = uid' :=
  append_right_inj _

theorem prefix_memberKey : memberKey groupName [] <+: memberKey groupName uid :=
  ⟨uid, (memberKey_eq groupName uid).symm⟩

theorem groupKey_length_lt : (groupKey groupName).length < (memberKey groupName uid).length := by
  rw [memberKey, append_assoc, length_append, length_append, length_cons]
  omega

theorem not_prefix_groupKey : ¬ memberKey groupName [] <+: groupKey groupName :=
  fun h => absurd h.length_le (Nat.not_le.mpr (groupKey_length_lt groupName []))

theorem groupKey_ne_memberKey : groupKey groupName ≠ memberKey groupName uid :=
  fun h => absurd (congrArg length h) (Nat.ne_of_lt (groupKey_length_lt groupName uid))

/-- The keys a group reads and writes: its own, and those of its members. -/
def Owns (groupName key : Bytes) : Prop :=
  key = groupKey groupName ∨ memberKey groupName [] <+: key

theorem owns_memberKey : Owns groupName (memberKey groupName uid) :=
  .inr (prefix_memberKey groupName uid)

/-- Neither of `<g>/uids/` and `<h>/uids/` is the beginning of the other. -/
def Separate (g h : Bytes) : Prop :=
  ¬ memberKey g [] <+: memberKey h [] ∧ ¬ memberKey h [] <+: memberKey g []

instance (g h : Bytes) : Decidable (Separate g h) :=
  inferInstanceAs (Decidable (_ ∧ _))

theorem Separate.not_owns {g h key : Bytes} (hsep : Separate g h) (hne : g ≠ h) (hg : Owns g key) :
    ¬ Owns h key := by
  intro hh
  rcases hg with rfl | hg <;> rcases hh with hh | hh
  · exact hne (append_cancel_left hh)
  · -- the key of `g` is the key of a member of `h`
    refine hsep.2 (hh.trans ?_)
    rw [memberKey, append_assoc]
    exact prefix_append _ _
  · subst hh
    refine hsep.1 (hg.trans ?_)
    rw [memberKey, append_assoc]
    exact prefix_append _ _
  · rcases prefix_or_prefix_of_prefix hg hh with h | h
    · exact hsep.1 h
    · exact hsep.2 h

namespace EtcdStore

variable {s : EtcdStore}

theorem mem_members {groupName uid : Bytes} :
    uid ∈ s.members groupName ↔ memberKey groupName uid ∈ s.entries := by
  rw [members, Finset.mem_image]
  constructor
  · rintro ⟨key, hkey, rfl⟩
    obtain ⟨hmem, rest, rfl⟩ := mem_keysWithPrefix.mp hkey
    rw [drop_left, memberKey_eq]
    exact hmem
  · intro h
    refine ⟨memberKey groupName uid, mem_keysWithPrefix.mpr ⟨h, prefix_memberKey _ _⟩, ?_⟩
    rw [memberKey_eq groupName uid, drop_left]

theorem card_members (s : EtcdStore) (groupName : Bytes) :
    (s.members groupName).card = (s.keysWithPrefix (memberKey groupName [])).card := by
  refine Finset.card_image_of_injOn ?_
  intro key hkey key' hkey' heq
  obtain ⟨-, rest, rfl⟩ := mem_keysWithPrefix.mp hkey
  obtain ⟨-, rest', rfl⟩ := mem_keysWithPrefix.mp hkey'
  rw [drop_left, drop_left] at heq
  rw [heq]

/-! ## The answers -/

/-- The answer to a call, given the key of its group, if it is there, and the members of the
group. -/
def answer (kv : Option (Entry Bytes)) (uids : Finset Bytes) : Call → Answer (Finset Bytes)
  | .groupCreate _ | .groupCreateWithTTL _ _ =>
    if kv.isSome then .error .groupAlreadyExists else .ok .done
  | .groupMembers _ => if kv.isSome then .ok (.members uids) else .error .groupNotFound
  | .groupContainsMember _ uid =>
    if kv.isSome then .ok (.contains (decide (uid ∈ uids))) else .error .groupNotFound
  | .groupAddMember _ uid =>
    if kv.isSome then
      if uid ∈ uids then .error .memberAlreadyExists else .ok .done
    else .error .groupNotFound
  | .groupRemoveMember _ uid => if uid ∈ uids then .ok .done else .error .memberNotFound
  | .groupRemoveAll _ | .groupDelete _ =>
    if kv.isSome then .ok .done else .error .groupNotFound
  | .groupCountMembers _ => .ok (.count uids.card)
  | .groupRenewTTL _ =>
    match kv with
    | none => .error .groupNotFound
    | some kv => if kv.lease ≠ 0 then .ok .done else .error .etcdLeaseNotFound

/-- **The key and the members of a group decide the answers** to all calls on it. -/
theorem answer_eq (hs : s.Leased) (c : Call) :
    (s.call c).2 = answer (s.entries.lookup (groupKey c.groupName)) (s.members c.groupName) c := by
  have hsome (name : Bytes) :
      (s.entries.lookup (groupKey name)).isSome = true ↔ groupKey name ∈ s.entries :=
    Finmap.lookup_isSome
  cases c with
  | groupCreate =>
    simp only [call, groupCreate, createGroup_eq, answer, Call.groupName, hsome, true_or, if_true]
    split <;> rfl
  | groupCreateWithTTL =>
    have halive : s.grant.2 = 0 ∨ s.grant.2 ∈ s.grant.1.leases :=
      .inr (Finset.mem_insert_self _ _)
    simp only [call, groupCreateWithTTL, createGroup_eq, answer, Call.groupName, hsome, halive,
      if_true]
    have hentries : s.grant.1.entries = s.entries := rfl
    rw [hentries]
    split <;> rfl
  | groupMembers =>
    simp only [call, groupMembers_eq, answer, Call.groupName, hsome]
    split <;> rfl
  | groupContainsMember =>
    simp only [call, groupContainsMember_eq, answer, Call.groupName, hsome, mem_members]
    split <;> rfl
  | groupAddMember name uid =>
    simp only [call, groupAddMember, getGroupKV, answer, Call.groupName, mem_members]
    cases hkv : s.entries.lookup (groupKey name) with
    | none => rfl
    | some =>
      have hgroup := Finmap.mem_of_lookup_eq_some hkv
      simp only [addMember_eq, hgroup, true_and, hs _ _ hkv, if_true, Option.isSome_some]
      by_cases hmember : memberKey name uid ∈ s.entries
      · rw [if_neg (not_not.mpr hmember), if_pos hmember]
      · rw [if_pos hmember, if_neg hmember]
  | groupRemoveMember =>
    simp only [call, groupRemoveMember_eq, answer, Call.groupName, mem_members]
    split <;> rfl
  | groupRemoveAll =>
    simp only [call, groupRemoveAll_eq, answer, Call.groupName, hsome]
    split <;> rfl
  | groupDelete =>
    simp only [call, groupDelete_eq, answer, Call.groupName, hsome]
    split <;> rfl
  | groupCountMembers =>
    rw [call, groupCountMembers, ← card_members]
    rfl
  | groupRenewTTL name =>
    simp only [call, groupRenewTTL, getGroupKV, answer, Call.groupName]
    cases hkv : s.entries.lookup (groupKey name) with
    | none => rfl
    | some =>
      dsimp only
      split
      · rename_i hlease
        rw [keepAliveOnce, if_pos ((hs _ _ hkv).resolve_left hlease)]
      · rfl

end EtcdStore

end Pitaya.Groups
