import Pitaya.Groups.Etcd

/-!
# Groups in etcd do not interfere, unless their keys do

All keys of the groups share one key space, and a name or a uid may be any string.  A call on a
group writes only keys that the group owns (`Frame`), so it does not change what a group sees with
which it owns no key together.

Two groups do own a key together if one name continues the other with `/uids`: the member `b` of
the group `a` has the key of the group `a/uids/b`.
-/

namespace Pitaya.Groups

open KeyValue Transition Finmap Option

/-- What a call on `groupName` does to the store: keys that the group does not own keep their
entries, and the leases of the entries stay alive. -/
structure Frame (groupName : Bytes) (s s' : EtcdStore) : Prop where
  lookup : ∀ key, ¬ Owns groupName key → s'.entries.lookup key = s.entries.lookup key
  leased : s.Leased → s'.Leased

namespace Frame

variable {groupName : Bytes} {s s' s'' : EtcdStore}

theorem refl (groupName : Bytes) (s : EtcdStore) : Frame groupName s s :=
  ⟨fun _ _ => rfl, id⟩

theorem trans (h : Frame groupName s s') (h' : Frame groupName s' s'') : Frame groupName s s'' :=
  ⟨fun key hkey => (h'.lookup key hkey).trans (h.lookup key hkey),
    fun hs => h'.leased (h.leased hs)⟩

theorem grant (groupName : Bytes) (s : EtcdStore) : Frame groupName s s.grant.1 :=
  ⟨fun _ _ => rfl, fun hs => hs.grant⟩

theorem put {key value : Bytes} {lease : ℕ} (hkey : Owns groupName key)
    (hlease : lease = 0 ∨ lease ∈ s.leases) :
    Frame groupName s { s with entries := s.entries.insert key ⟨value, lease⟩ } := by
  refine ⟨fun key' hkey' => ?_, fun hs => hs.put hlease key value⟩
  exact lookup_insert_of_ne _ fun heq => hkey' (heq ▸ hkey)

theorem erase {key : Bytes} (hkey : Owns groupName key) :
    Frame groupName s { s with entries := s.entries.erase key } := by
  refine ⟨fun key' hkey' => ?_, fun hs => hs.of_lookup fun key' e he => ?_⟩
  · exact lookup_erase_ne fun heq => hkey' (heq ▸ hkey)
  · by_cases heq : key' = key
    · subst heq
      rw [lookup_erase] at he
      cases he
    · rwa [lookup_erase_ne heq] at he

theorem clear (groupName : Bytes) (s : EtcdStore) : Frame groupName s (s.clear groupName) := by
  refine ⟨fun key hkey => ?_, fun hs => hs.of_lookup fun key e he => ?_⟩
  · rw [EtcdStore.clear, Store.lookup_deletePrefix, if_neg fun h => hkey (.inr h)]
  · rw [Store.lookup_deletePrefix] at he
    exact (ite_none_left_eq_some.mp he).2

theorem createGroup (groupName : Bytes) (s : EtcdStore) (leaseID : ℕ) :
    Frame groupName s (s.createGroup groupName leaseID).1 := by
  rw [EtcdStore.createGroup_eq]
  split_ifs with hgroup hlease
  · exact refl groupName s
  · exact put (.inl rfl) hlease
  · exact refl groupName s

theorem addMember (groupName uid : Bytes) (s : EtcdStore) (lease : ℕ) :
    Frame groupName s (s.addMember groupName uid lease).1 := by
  rw [EtcdStore.addMember_eq]
  split_ifs with hif hlease
  · exact put (owns_memberKey groupName uid) hlease
  · exact refl groupName s
  · exact refl groupName s

/-- **A call touches the keys of its group only.** -/
theorem call (s : EtcdStore) (c : Call) : Frame c.groupName s (s.call c).1 := by
  cases c with
  | groupCreate name => exact createGroup name s 0
  | groupCreateWithTTL name => exact (grant name s).trans (createGroup name _ _)
  | groupMembers name =>
    rw [EtcdStore.call, EtcdStore.groupMembers_eq, apply_ite Prod.fst, ite_self]
    exact refl name s
  | groupContainsMember name =>
    rw [EtcdStore.call, EtcdStore.groupContainsMember_eq, apply_ite Prod.fst, ite_self]
    exact refl name s
  | groupAddMember name uid =>
    rw [EtcdStore.call, EtcdStore.groupAddMember]
    split
    · exact refl name s
    · exact addMember name uid s _
  | groupRemoveMember name uid =>
    rw [EtcdStore.call, EtcdStore.groupRemoveMember_eq]
    split_ifs
    · exact erase (owns_memberKey name uid)
    · exact refl name s
  | groupRemoveAll name =>
    rw [EtcdStore.call, EtcdStore.groupRemoveAll_eq]
    split_ifs
    · exact clear name s
    · exact refl name s
  | groupDelete name =>
    rw [EtcdStore.call, EtcdStore.groupDelete_eq]
    split_ifs
    · exact (clear name s).trans (erase (.inl rfl))
    · exact refl name s
  | groupCountMembers name => exact refl name s
  | groupRenewTTL name => exact refl name s

end Frame

theorem leased_of_reachable {s : EtcdStore} (h : etcd.Reachable s) : s.Leased := by
  refine System.reachable_induction Store.leased_start ?_ h
  intro s event s' _ hs hstep
  cases event with
  | call c =>
    obtain rfl := some.inj hstep
    exact (Frame.call s c).leased hs
  | expire lease =>
    obtain ⟨-, hstep⟩ := ite_none_right_eq_some.mp hstep
    obtain rfl := some.inj hstep
    exact hs.expire lease

/-! ## What another group sees -/

/-- Nothing has changed for a group: whether it exists, its members, and what a call on it
returns. -/
structure Unaffected (groupName : Bytes) (s s' : EtcdStore) : Prop where
  group : groupKey groupName ∈ s'.entries ↔ groupKey groupName ∈ s.entries
  members : s'.members groupName = s.members groupName
  answers : ∀ c : Call, c.groupName = groupName → (s'.call c).2 = (s.call c).2

theorem Frame.members_eq {g h : Bytes} {s s' : EtcdStore} (hframe : Frame g s s')
    (hsep : ∀ uid, ¬ Owns g (memberKey h uid)) : s'.members h = s.members h := by
  ext uid
  rw [EtcdStore.mem_members, EtcdStore.mem_members, ← lookup_isSome, ← lookup_isSome,
    hframe.lookup _ (hsep uid)]

theorem Frame.unaffected {g h : Bytes} {s s' : EtcdStore} (hframe : Frame g s s') (hs : s.Leased)
    (hsep : Separate g h) (hne : g ≠ h) : Unaffected h s s' := by
  have hgroup : s'.entries.lookup (groupKey h) = s.entries.lookup (groupKey h) :=
    hframe.lookup _ fun hg => hsep.not_owns hne hg (.inl rfl)
  have hmembers := hframe.members_eq fun uid hg => hsep.not_owns hne hg (owns_memberKey h uid)
  refine ⟨?_, hmembers, ?_⟩
  · rw [← lookup_isSome, ← lookup_isSome, hgroup]
  · rintro c rfl
    rw [EtcdStore.answer_eq hs, EtcdStore.answer_eq (hframe.leased hs), hgroup, hmembers]

/-! ## Groups that share a key -/

/-- If the names are not separate, some member of `g` has the key of a member of `h`. -/
theorem exists_memberKey_eq {g h : Bytes} (hsep : ¬ Separate g h) :
    ∃ uid uid', memberKey g uid = memberKey h uid' := by
  rw [Separate, not_and_or, not_not, not_not] at hsep
  rcases hsep with ⟨rest, hrest⟩ | ⟨rest, hrest⟩
  · exact ⟨rest, [], (memberKey_eq g rest).trans hrest⟩
  · exact ⟨[], rest, hrest.symm.trans (memberKey_eq h rest).symm⟩

/-- The store in which only the group `g` was created. -/
def onlyGroup (g : Bytes) : EtcdStore := { entries := Finmap.insert (groupKey g) ⟨[], 0⟩ ∅ }

theorem reachable_onlyGroup (g : Bytes) : etcd.Reachable (onlyGroup g) := by
  refine ⟨[.call (.groupCreate g)], ?_⟩
  rfl

theorem mem_onlyGroup {g key : Bytes} : key ∈ (onlyGroup g).entries ↔ key = groupKey g := by
  rw [onlyGroup, mem_insert, or_iff_left notMem_empty]

theorem mem_members_of_shared {g h uid uid' : Bytes} (hkey : memberKey g uid = memberKey h uid') :
    uid' ∈ ((onlyGroup g).call (.groupAddMember g uid)).1.members h := by
  have hkv : (onlyGroup g).entries.lookup (groupKey g) = some ⟨[], 0⟩ := lookup_insert _
  have hnew : memberKey g uid ∉ (onlyGroup g).entries :=
    fun hmem => groupKey_ne_memberKey g uid (mem_onlyGroup.mp hmem).symm
  rw [EtcdStore.mem_members, ← hkey]
  simp only [EtcdStore.call, EtcdStore.groupAddMember, EtcdStore.getGroupKV, hkv,
    EtcdStore.addMember_eq, mem_onlyGroup.mpr rfl, hnew, not_false_eq_true, and_self, true_or,
    if_true]
  exact mem_insert.mpr (.inl rfl)

theorem notMem_members_onlyGroup {g h uid uid' : Bytes}
    (hkey : memberKey g uid = memberKey h uid') : uid' ∉ (onlyGroup g).members h := by
  rw [EtcdStore.mem_members, ← hkey, mem_onlyGroup]
  exact (groupKey_ne_memberKey g uid).symm

/-- **Groups are isolated from each other if and only if their names are separate**: neither of
`<g>/uids/` and `<h>/uids/` is the beginning of the other. -/
theorem unaffected_iff_separate {g h : Bytes} (hne : g ≠ h) :
    (∀ s, etcd.Reachable s → ∀ c : Call, c.groupName = g → Unaffected h s (s.call c).1) ↔
      Separate g h := by
  constructor
  · intro hall
    by_contra hsep
    obtain ⟨uid, uid', hkey⟩ := exists_memberKey_eq hsep
    have h := hall (onlyGroup g) (reachable_onlyGroup g) (.groupAddMember g uid) rfl
    have hmem := mem_members_of_shared hkey
    rw [h.members] at hmem
    exact notMem_members_onlyGroup hkey hmem
  · rintro hsep s hs c rfl
    exact (Frame.call s c).unaffected (leased_of_reachable hs) hsep hne

/-- Groups `a` and `b`. -/
theorem unaffected_iff_separate_a_b : Separate [97] [98] ∧
    ∀ s, etcd.Reachable s → ∀ c : Call, c.groupName = [97] → Unaffected [98] s (s.call c).1 :=
  have hsep : Separate [97] [98] := by decide
  ⟨hsep, (unaffected_iff_separate (by decide)).mpr hsep⟩

/-- The group `a/uids/b` comes to exist when the group `a` gets the member `b`. -/
theorem not_unaffected_a : ∃ s, etcd.Reachable s ∧
    groupKey [97, 47, 117, 105, 100, 115, 47, 98] ∉ s.entries ∧
    groupKey [97, 47, 117, 105, 100, 115, 47, 98] ∈
      (s.call (.groupAddMember [97] [98])).1.entries := by
  refine ⟨onlyGroup [97], reachable_onlyGroup [97], ?_, ?_⟩ <;> decide +kernel

end Pitaya.Groups
