import Pitaya.Foundations.Threads
import Pitaya.Groups.Etcd

/-!
# Members and the lease of their group

Any number of clients work on one group in etcd, and leases expire.  A request is one step of the
store; between the two requests of a call anything may happen.

* `clients` — the calls on a group, request by request.

`GroupAddMember` reads the lease of the group first, and its transaction asks only whether the
group is there.  If the group was deleted and created again in between, the member gets the lease
of the group that was deleted (`left_behind`).
-/

namespace Pitaya.Groups

open KeyValue Threads Transition Finmap Option EtcdStore

/-- The requests of the clients that are still to be made, and leases that are to expire. -/
inductive Pending where
  | groupCreate
  | groupCreateWithTTL
  /-- The transaction of `createGroup`, with the lease that was granted. -/
  | createGroup (lease : ℕ)
  | groupAddMember (uid : Bytes)
  /-- The transaction of `GroupAddMember`, with the lease of the group as it was read. -/
  | addMember (uid : Bytes) (lease : ℕ)
  | groupRemoveMember (uid : Bytes)
  | groupRemoveAll
  | groupDelete
  | expire (lease : ℕ)
  deriving DecidableEq

/-- Whether a request reaches the store. -/
inductive Choice where
  | go
  | fail

namespace Pending

/-- A request, and what the client does after it. -/
def step (groupName : Bytes) (s : EtcdStore) :
    Pending → Choice → Option (EtcdStore × Option Pending)
  | _, .fail => some (s, none)
  | .groupCreate, .go => some ((s.groupCreate groupName).1, none)
  | .groupCreateWithTTL, .go => some (s.grant.1, some (.createGroup s.grant.2))
  | .createGroup lease, .go => some ((s.createGroup groupName lease).1, none)
  | .groupAddMember uid, .go =>
    match s.getGroupKV groupName with
    | .error _ => some (s, none)
    | .ok kv => some (s, some (.addMember uid kv.lease))
  | .addMember uid lease, .go => some ((s.addMember groupName uid lease).1, none)
  | .groupRemoveMember uid, .go => some ((s.groupRemoveMember groupName uid).1, none)
  | .groupRemoveAll, .go => some ((s.groupRemoveAll groupName).1, none)
  | .groupDelete, .go => some ((s.groupDelete groupName).1, none)
  | .expire lease, .go => if lease ∈ s.leases then some (s.expire lease, none) else none

/-- The calls, and the leases. -/
def entry : Pending → Bool
  | createGroup _ | addMember _ _ => false
  | _ => true

end Pending

/-- The clients of one group. -/
def clients (groupName : Bytes) : Program EtcdStore Pending Choice where
  start := {}
  main := 0
  entry := Pending.entry
  step := Pending.step groupName

/-- Every member belongs to a group that is there, and has the lease of the group. -/
def Together (groupName : Bytes) (s : EtcdStore) : Prop :=
  ∀ uid e, s.entries.lookup (memberKey groupName uid) = some e →
    ∃ kv, s.entries.lookup (groupKey groupName) = some kv ∧ kv.lease = e.lease

/-- A member that is added now gets the lease that the group has now. -/
def KeepsLease (groupName : Bytes) (c : Config EtcdStore Pending) : Event Pending Choice → Prop
  | .run (.addMember uid lease) .go =>
    memberKey groupName uid ∉ c.shared.entries → (lease = 0 ∨ lease ∈ c.shared.leases) →
      ∀ kv ∈ c.shared.entries.lookup (groupKey groupName), kv.lease = lease
  | _ => True

instance (groupName : Bytes) (c : Config EtcdStore Pending) (event : Event Pending Choice) :
    Decidable (KeepsLease groupName c event) := by
  rcases event with p | ⟨p, choice⟩
  · exact .isTrue trivial
  · cases p <;> cases choice <;> unfold KeepsLease <;> infer_instance

/-! ## What the requests keep -/

namespace Together

variable {groupName : Bytes} {s : EtcdStore} (h : Together groupName s)
include h

theorem notMem (hgroup : groupKey groupName ∉ s.entries) (uid : Bytes) :
    memberKey groupName uid ∉ s.entries := by
  intro hmem
  obtain ⟨e, he⟩ := mem_iff.mp hmem
  obtain ⟨kv, hkv, -⟩ := h uid e he
  exact hgroup (mem_of_lookup_eq_some hkv)

theorem createGroup (lease : ℕ) : Together groupName (s.createGroup groupName lease).1 := by
  rw [createGroup_eq]
  split_ifs with hgroup hlease
  · exact h
  · -- the group is new, so it has no members yet
    intro uid e he
    rw [lookup_insert_of_ne _ (groupKey_ne_memberKey groupName uid).symm,
      lookup_eq_none.mpr (h.notMem hgroup uid)] at he
    cases he
  · exact h

theorem of_lookup {s' : EtcdStore}
    (hgroup : s'.entries.lookup (groupKey groupName) = s.entries.lookup (groupKey groupName))
    (hmembers : ∀ uid e, s'.entries.lookup (memberKey groupName uid) = some e →
      s.entries.lookup (memberKey groupName uid) = some e) : Together groupName s' := by
  intro uid e he
  rw [hgroup]
  exact h uid e (hmembers uid e he)

theorem groupRemoveMember (uid : Bytes) :
    Together groupName (s.groupRemoveMember groupName uid).1 := by
  rw [groupRemoveMember_eq]
  split_ifs
  · refine h.of_lookup (lookup_erase_ne (groupKey_ne_memberKey groupName uid)) ?_
    intro uid' e he
    by_cases heq : memberKey groupName uid' = memberKey groupName uid
    · rw [heq, lookup_erase] at he
      cases he
    · rwa [lookup_erase_ne heq] at he
  · exact h

omit h in
theorem lookup_member_clear (uid : Bytes) :
    (s.clear groupName).entries.lookup (memberKey groupName uid) = none := by
  rw [clear, Store.lookup_deletePrefix, if_pos (prefix_memberKey groupName uid)]

theorem groupRemoveAll : Together groupName (s.groupRemoveAll groupName).1 := by
  rw [groupRemoveAll_eq]
  split_ifs
  · intro uid e he
    rw [lookup_member_clear] at he
    cases he
  · exact h

theorem groupDelete : Together groupName (s.groupDelete groupName).1 := by
  rw [groupDelete_eq]
  split_ifs
  · intro uid e he
    rw [lookup_erase_ne (groupKey_ne_memberKey groupName uid).symm, lookup_member_clear] at he
    cases he
  · exact h

theorem expire (lease : ℕ) : Together groupName (s.expire lease) := by
  intro uid e he
  rw [Store.expire, lookup_filterMapValues, bind_eq_some_iff] at he
  obtain ⟨e', he', he⟩ := he
  obtain ⟨hne, he⟩ := ite_none_left_eq_some.mp he
  obtain rfl := some.inj he
  obtain ⟨kv, hkv, hlease⟩ := h uid e' he'
  refine ⟨kv, ?_, hlease⟩
  rw [Store.expire, lookup_filterMapValues, hkv, bind_some, if_neg (hlease.trans_ne hne)]

theorem addMember_iff (uid : Bytes) (lease : ℕ) :
    Together groupName (s.addMember groupName uid lease).1 ↔
      (memberKey groupName uid ∉ s.entries → (lease = 0 ∨ lease ∈ s.leases) →
        ∀ kv ∈ s.entries.lookup (groupKey groupName), kv.lease = lease) := by
  rw [addMember_eq]
  split_ifs with hif hlease
  · have hgroup' (e : Entry Bytes) :
        (s.entries.insert (memberKey groupName uid) e).lookup (groupKey groupName) =
          s.entries.lookup (groupKey groupName) :=
      lookup_insert_of_ne _ (groupKey_ne_memberKey groupName uid)
    constructor
    · intro hnew _ _ kv hkv
      obtain ⟨kv', hkv', hlease'⟩ := hnew uid ⟨[], lease⟩ (lookup_insert _)
      rw [hgroup', hkv] at hkv'
      obtain rfl := some.inj hkv'
      exact hlease'
    · intro hall uid' e he
      dsimp only at he ⊢
      rw [hgroup']
      by_cases heq : uid' = uid
      · subst heq
        rw [lookup_insert] at he
        obtain rfl := some.inj he
        obtain ⟨kv, hkv⟩ := mem_iff.mp hif.1
        exact ⟨kv, hkv, hall hif.2 hlease kv hkv⟩
      · rw [lookup_insert_of_ne _ (mt memberKey_inj.mp heq)] at he
        exact h uid' e he
  · exact iff_of_true h fun _ hlease' => absurd hlease' hlease
  · refine iff_of_true h fun hnew _ kv hkv => ?_
    exact absurd ⟨mem_of_lookup_eq_some hkv, hnew⟩ hif

end Together

theorem together_start (groupName : Bytes) : Together groupName {} := by
  intro uid e he
  cases he

/-- **One request** keeps members and group together if and only if it does not add a member with
another lease. -/
theorem step_together_iff {groupName : Bytes} {s s' : EtcdStore} {threads : Multiset Pending}
    {p : Pending} {p' : Option Pending} {choice : Choice} (h : Together groupName s)
    (hstep : p.step groupName s choice = some (s', p')) :
    Together groupName s' ↔ KeepsLease groupName ⟨s, threads⟩ (.run p choice) := by
  cases choice with
  | fail =>
    cases p <;> cases hstep <;> exact iff_of_true h trivial
  | go =>
    cases p with
    | groupCreate =>
      cases hstep
      exact iff_of_true (h.createGroup 0) trivial
    | groupCreateWithTTL =>
      cases hstep
      exact iff_of_true h trivial
    | createGroup lease =>
      cases hstep
      exact iff_of_true (h.createGroup lease) trivial
    | groupAddMember =>
      dsimp only [Pending.step] at hstep
      split at hstep <;> cases hstep <;> exact iff_of_true h trivial
    | addMember uid lease =>
      cases hstep
      exact h.addMember_iff uid lease
    | groupRemoveMember uid =>
      cases hstep
      exact iff_of_true (h.groupRemoveMember uid) trivial
    | groupRemoveAll =>
      cases hstep
      exact iff_of_true h.groupRemoveAll trivial
    | groupDelete =>
      cases hstep
      exact iff_of_true h.groupDelete trivial
    | expire lease =>
      obtain ⟨-, ⟨⟩⟩ := ite_none_right_eq_some.mp hstep
      exact iff_of_true (h.expire lease) trivial

/-- **Members live and die with their group if and only if** every member is added with the lease
that the group has at that moment. -/
theorem together_iff_keepsLease {groupName : Bytes} {events : Run Pending Choice}
    {c : Config EtcdStore Pending} (hrun : (clients groupName).system.run events = some c) :
    (∀ before c', before <+: events → (clients groupName).system.run before = some c' →
      Together groupName c'.shared) ↔
    (clients groupName).system.Meets (KeepsLease groupName) events := by
  refine System.forall_prefix_iff_meets
    (together_start groupName) ?_ hrun
  rintro ⟨s, threads⟩ event c' - h hstep
  rcases Program.system_step hstep with
    ⟨p, rfl, -, rfl⟩ | ⟨p, rest, choice, s', p', rfl, -, hp, rfl⟩
  · exact iff_of_true h trivial
  · exact step_together_iff h hp

/-- A group with a time to live gets a member, and both expire. -/
theorem together_until_expiry : ∃ added expired c,
    (clients [103]).system.run (added ++ expired) = some c ∧
    (∀ before c', before <+: added ++ expired → (clients [103]).system.run before = some c' →
      Together [103] c'.shared) ∧
    memberKey [103] [49] ∉ c.shared.entries ∧ groupKey [103] ∉ c.shared.entries ∧
    ∃ c₀, (clients [103]).system.run added = some c₀ ∧
      memberKey [103] [49] ∈ c₀.shared.entries := by
  refine ⟨[.call .groupCreateWithTTL, .run .groupCreateWithTTL .go, .run (.createGroup 1) .go,
    .call (.groupAddMember [49]), .run (.groupAddMember [49]) .go, .run (.addMember [49] 1) .go],
    [.call (.expire 1), .run (.expire 1) .go], ?_⟩
  refine reaches_and (by decide +kernel) fun c hc _ => (together_iff_keepsLease hc).mpr ?_
  exact System.meets_of_meetsFrom (by decide +kernel)

/-- The group is deleted and created again, now with a time to live, while a member is being added;
the member is left when the group has expired. -/
theorem left_behind : ∃ events c, (clients [103]).system.run events = some c ∧
    ¬ Together [103] c.shared ∧
    memberKey [103] [49] ∈ c.shared.entries ∧ groupKey [103] ∉ c.shared.entries := by
  refine ⟨[.call .groupCreate, .run .groupCreate .go, .call (.groupAddMember [49]),
    .run (.groupAddMember [49]) .go, .call .groupDelete, .run .groupDelete .go,
    .call .groupCreateWithTTL, .run .groupCreateWithTTL .go, .run (.createGroup 1) .go,
    .run (.addMember [49] 0) .go, .call (.expire 1), .run (.expire 1) .go], ?_⟩
  exact reaches_and (by decide +kernel) fun c _ ⟨hmember, hgroup⟩ h => h.notMem hgroup [49] hmember

end Pitaya.Groups
