import Pitaya.Groups.Isolation
import Pitaya.Groups.Memory

/-!
# The two group services side by side

The same calls, without times to live, on a service in memory and a service in etcd.  Both stand
for the same map of sets at all times (`Matches`), so they agree on every answer that depends on it
alone.

They differ on a group that does not exist.  `GroupRemoveMember` of the service in etcd asks only
for the member, and `GroupCountMembers` asks for nothing, so the one returns another error, and the
other no error at all.
-/

namespace Pitaya.Groups

open KeyValue Transition Finmap List Option EtcdStore Except

/-- The calls that have nothing to do with a time to live. -/
def Call.Plain : Call → Prop
  | groupCreateWithTTL _ _ | groupRenewTTL _ => False
  | _ => True

instance (c : Call) : Decidable c.Plain := by
  cases c <;> unfold Call.Plain <;> infer_instance

/-- The slice of members as a set. -/
def Value.asSet : Value (List Bytes) → Value (Finset Bytes)
  | done => done
  | members uids => members uids.toFinset
  | contains found => contains found
  | count amount => count amount

/-- The same result, up to the order of the members, or the same error. -/
def SameAnswer (a : Answer (List Bytes)) (b : Answer (Finset Bytes)) : Prop :=
  a.map Value.asSet = b

instance (a : Answer (List Bytes)) (b : Answer (Finset Bytes)) : Decidable (SameAnswer a b) :=
  inferInstanceAs (Decidable (_ = _))

/-- A call at a time, made to both services. -/
def sideBySide : System (MemoryGroups × EtcdStore) (ℤ × Call) where
  start := (∅, {})
  step s c := some ((s.1.call c.1 c.2).1, (s.2.call c.2).1)

/-! ## The members of a group after a request -/

namespace EtcdStore

variable (s : EtcdStore) (groupName uid : Bytes) (e : Entry Bytes)

theorem members_put_member :
    members { s with entries := s.entries.insert (memberKey groupName uid) e } groupName =
      insert uid (s.members groupName) := by
  ext uid'
  rw [Finset.mem_insert, mem_members, mem_members, mem_insert, memberKey_inj]

theorem members_put_group :
    members { s with entries := s.entries.insert (groupKey groupName) e } groupName =
      s.members groupName := by
  ext uid'
  rw [mem_members, mem_members, mem_insert,
    or_iff_right (groupKey_ne_memberKey groupName uid').symm]

theorem members_erase_member :
    members { s with entries := s.entries.erase (memberKey groupName uid) } groupName =
      (s.members groupName).erase uid := by
  ext uid'
  rw [Finset.mem_erase, mem_members, mem_members, mem_erase, Ne, memberKey_inj]

theorem members_erase_group :
    members { s with entries := s.entries.erase (groupKey groupName) } groupName =
      s.members groupName := by
  ext uid'
  rw [mem_members, mem_members, mem_erase,
    and_iff_right (groupKey_ne_memberKey groupName uid').symm]

theorem members_clear : (s.clear groupName).members groupName = ∅ := by
  refine Finset.eq_empty_of_forall_notMem fun uid' h => ?_
  rw [mem_members, ← lookup_isSome, clear, Store.lookup_deletePrefix,
    if_pos (prefix_memberKey groupName uid')] at h
  cases h

theorem groupKey_mem_clear :
    groupKey groupName ∈ (s.clear groupName).entries ↔ groupKey groupName ∈ s.entries := by
  rw [← lookup_isSome, ← lookup_isSome, clear, Store.lookup_deletePrefix,
    if_neg (not_prefix_groupKey groupName)]

end EtcdStore

/-! ## The store stands for the same groups -/

/-- The store has this group under a name, or none. -/
def SameGroup (s : EtcdStore) (groupName : Bytes) : Option Group → Prop
  | none => groupKey groupName ∉ s.entries ∧ s.members groupName = ∅
  | some g => groupKey groupName ∈ s.entries ∧ s.members groupName = g.uids

/-- The store has these groups, under the names without a slash. -/
def Matches (s : EtcdStore) (t : GroupMap) : Prop :=
  ∀ groupName, 47 ∉ groupName → SameGroup s groupName (t.lookup groupName)

theorem separate_of_notMem {g h : Bytes} (hg : 47 ∉ g) (hh : 47 ∉ h) (hne : g ≠ h) :
    Separate g h := by
  -- up to its first slash, the key of a member is the name of its group
  have hname {name : Bytes} (h : 47 ∉ name) (rest : Bytes) :
      ((name ++ 47 :: rest).takeWhile fun b => b ≠ 47) = name := by
    rw [takeWhile_append_of_pos]
    · rw [takeWhile_cons_of_neg (by decide), append_nil]
    · intro b hb
      exact decide_eq_true fun heq => h (heq ▸ hb)
  have hnot {g h : Bytes} (hg : 47 ∉ g) (hh : 47 ∉ h) (hpre : memberKey g [] <+: memberKey h []) :
      g = h := by
    obtain ⟨rest, hrest⟩ := hpre
    simp only [memberKey, groupKey, append_assoc, append_cancel_left_eq] at hrest
    have hbegin := congrArg (takeWhile fun b => b ≠ 47) hrest
    rwa [cons_append, hname hg, cons_append, hname hh] at hbegin
  exact ⟨fun h => hne (hnot hg hh h), fun h => hne (hnot hh hg h).symm⟩

theorem SameGroup.of_frame {g h : Bytes} {s s' : EtcdStore} (hframe : Frame g s s') (hs : s.Leased)
    (hsep : Separate g h) (hne : g ≠ h) {group : Option Group} (hsame : SameGroup s h group) :
    SameGroup s' h group := by
  have hun := hframe.unaffected hs hsep hne
  cases group with
  | none => exact ⟨mt hun.group.mp hsame.1, hun.members.trans hsame.2⟩
  | some => exact ⟨hun.group.mpr hsame.1, hun.members.trans hsame.2⟩

section OwnGroup

variable {s : EtcdStore} {t : GroupMap} {c : Call} (hplain : c.Plain) (now : ℤ)
include hplain

theorem SameGroup.call_missing (hlookup : t.lookup c.groupName = none)
    (hgroup : groupKey c.groupName ∉ s.entries) (hmembers : s.members c.groupName = ∅) :
    SameGroup (s.call c).1 c.groupName ((t.call now c).1.lookup c.groupName) := by
  have hsame : SameGroup s c.groupName (t.lookup c.groupName) := by
    rw [hlookup]
    exact ⟨hgroup, hmembers⟩
  have hmember (uid : Bytes) : memberKey c.groupName uid ∉ s.entries := by
    rw [← mem_members, hmembers]
    exact Finset.notMem_empty uid
  cases c <;> dsimp only [Call.groupName] at hlookup hgroup hmembers hsame hmember ⊢
  case groupCreate name =>
    simp only [call, groupCreate, createGroup_eq, hgroup, true_or,
      if_true, if_false, GroupMap.call, hlookup, lookup_insert]
    exact ⟨mem_insert.mpr (.inl rfl), (s.members_put_group name _).trans hmembers⟩
  case groupCreateWithTTL name ttl => exact hplain.elim
  -- the other calls change nothing on either side
  all_goals
    simpa only [call, groupMembers_eq, groupContainsMember_eq,
      groupAddMember, getGroupKV, lookup_eq_none.mpr hgroup,
      groupRemoveMember_eq, groupRemoveAll_eq, groupDelete_eq, hgroup,
      hmember, if_false, GroupMap.call, hlookup] using hsame

theorem SameGroup.call_existing {g : Group} (hlookup : t.lookup c.groupName = some g)
    (hs : s.Leased) (hgroup : groupKey c.groupName ∈ s.entries)
    (hmembers : s.members c.groupName = g.uids) :
    SameGroup (s.call c).1 c.groupName ((t.call now c).1.lookup c.groupName) := by
  have hsame : SameGroup s c.groupName (t.lookup c.groupName) := by
    rw [hlookup]
    exact ⟨hgroup, hmembers⟩
  have hmem (uid : Bytes) : memberKey c.groupName uid ∈ s.entries ↔ uid ∈ g.uids := by
    rw [← mem_members, hmembers]
  cases c <;> dsimp only [Call.groupName] at hlookup hgroup hmembers hsame hmem ⊢
  case groupCreateWithTTL name ttl => exact hplain.elim
  case groupRenewTTL name => exact hplain.elim
  case groupAddMember name uid =>
    obtain ⟨kv, hkv⟩ := mem_iff.mp hgroup
    by_cases huid : uid ∈ g.uids
    · simpa only [call, groupAddMember, getGroupKV, hkv,
        addMember_eq, hmem, huid, not_true, and_false, if_false, GroupMap.call,
        hlookup, if_true] using hsame
    · simp only [call, groupAddMember, getGroupKV, hkv,
        addMember_eq, hgroup, hmem, huid, not_false_eq_true, and_self, hs _ _ hkv,
        if_true, if_false, GroupMap.call, hlookup, lookup_insert]
      refine ⟨mem_insert.mpr (.inr hgroup), ?_⟩
      rw [members_put_member, hmembers]
  case groupRemoveMember name uid =>
    by_cases huid : uid ∈ g.uids
    · simp only [call, groupRemoveMember_eq, hmem, huid, if_true,
        GroupMap.call, hlookup, lookup_insert]
      refine ⟨mem_erase.mpr ⟨groupKey_ne_memberKey name uid, hgroup⟩, ?_⟩
      rw [members_erase_member, hmembers]
    · simpa only [call, groupRemoveMember_eq, hmem, huid, if_false,
        GroupMap.call, hlookup] using hsame
  case groupRemoveAll name =>
    simp only [call, groupRemoveAll_eq, hgroup, if_true, GroupMap.call, hlookup, lookup_insert]
    exact ⟨(s.groupKey_mem_clear name).mpr hgroup, s.members_clear name⟩
  case groupDelete name =>
    simp only [call, groupDelete_eq, hgroup, if_true, GroupMap.call, hlookup, lookup_erase]
    refine ⟨notMem_erase_self, ?_⟩
    rw [members_erase_group, members_clear]
  -- the other calls change nothing on either side
  all_goals
    simpa only [call, groupCreate, createGroup_eq,
      groupMembers_eq, groupContainsMember_eq, hgroup, if_true, GroupMap.call,
      hlookup] using hsame

/-- **A call on a group** does to it in the store what it should do. -/
theorem SameGroup.call (hs : s.Leased) (hsame : SameGroup s c.groupName (t.lookup c.groupName)) :
    SameGroup (s.call c).1 c.groupName ((t.call now c).1.lookup c.groupName) := by
  cases hlookup : t.lookup c.groupName with
  | none =>
    rw [hlookup] at hsame
    exact call_missing hplain now hlookup hsame.1 hsame.2
  | some =>
    rw [hlookup] at hsame
    exact call_existing hplain now hlookup hs hsame.1 hsame.2

end OwnGroup

/-! ## The answers -/

/-- `GroupRemoveMember` and `GroupCountMembers` are called on groups that exist. -/
def FindsGroup {β : Type} (groups : Finmap fun _ : Bytes => β) : Call → Prop
  | .groupRemoveMember name _ | .groupCountMembers name => name ∈ groups
  | _ => True

instance {β : Type} (groups : Finmap fun _ : Bytes => β) (c : Call) :
    Decidable (FindsGroup groups c) := by
  cases c <;> unfold FindsGroup <;> infer_instance

section Answers

variable {s : EtcdStore} {t : GroupMap} {c : Call} (hplain : c.Plain) (now : ℤ)

/-- On a group that does not exist the answers differ where the store does not ask for it. -/
theorem answer_missing (hlookup : t.lookup c.groupName = none) :
    (t.call now c).2 = EtcdStore.answer none ∅ c ↔ FindsGroup t c := by
  have ht := lookup_eq_none.mp hlookup
  cases c <;> dsimp only [Call.groupName] at hlookup ht <;>
    simp [GroupMap.call, hlookup, answer, FindsGroup, ht]

include hplain in
theorem answer_existing {g : Group} (hlookup : t.lookup c.groupName = some g) (kv : Entry Bytes) :
    (t.call now c).2 = EtcdStore.answer (some kv) g.uids c := by
  cases c <;> dsimp only [Call.groupName] at hlookup <;>
    simp only [GroupMap.call, hlookup, answer, isSome_some, if_true]
  case groupAddMember name uid => split <;> rfl
  case groupRemoveMember name uid => split <;> rfl
  case groupRenewTTL name => exact hplain.elim

include hplain in
/-- The answer of the store is the one a map of sets gives, if the group is there where the store
does not ask for it. -/
theorem answer_eq_iff (hs : s.Leased) (hsame : SameGroup s c.groupName (t.lookup c.groupName)) :
    (t.call now c).2 = (s.call c).2 ↔ FindsGroup t c := by
  rw [answer_eq hs]
  cases hlookup : t.lookup c.groupName with
  | none =>
    rw [hlookup] at hsame
    rw [lookup_eq_none.mpr hsame.1, hsame.2]
    exact answer_missing now hlookup
  | some =>
    rw [hlookup] at hsame
    obtain ⟨kv, hkv⟩ := mem_iff.mp hsame.1
    rw [hkv, hsame.2]
    refine iff_of_true (answer_existing hplain now hlookup kv) ?_
    have ht := mem_of_lookup_eq_some hlookup
    cases c <;> first | exact ht | exact trivial

end Answers

theorem sameAnswer_iff {a : Answer (List Bytes)} {a' b : Answer (Finset Bytes)} (h : Agrees a a') :
    SameAnswer a b ↔ a' = b := by
  have heq : a.map Value.asSet = a' := by
    rcases a with e | v <;> rcases a' with e' | v'
    · exact congrArg error h
    · exact h.elim
    · exact h.elim
    · cases v <;> cases v' <;> try exact h.elim
      · rfl
      · rename_i uids set
        refine congrArg (fun set => ok (Value.members set)) (Finset.val_inj.mp ?_)
        have hnodup : uids.Nodup := Multiset.coe_nodup.mp (h ▸ set.nodup)
        rw [toFinset_val, hnodup.dedup]
        exact h
      · exact congrArg (fun found => ok (Value.contains found)) h
      · exact congrArg (fun amount => ok (Value.count amount)) h
  rw [SameAnswer, heq]

/-! ## Runs -/

/-- Both services stand for the same groups. -/
structure Alike (m : MemoryGroups) (s : EtcdStore) (t : GroupMap) : Prop where
  represents : m.Represents t
  proper : m.Proper
  leased : s.Leased
  sameGroups : Matches s t

theorem Alike.call {m : MemoryGroups} {s : EtcdStore} {t : GroupMap} (h : Alike m s t) {c : Call}
    (hplain : c.Plain) (hname : 47 ∉ c.groupName) (now : ℤ) :
    Alike (m.call now c).1 (s.call c).1 (t.call now c).1 := by
  have hfollows := MemoryGroups.follows_call h.represents h.proper now c
  have hframe := Frame.call s c
  refine ⟨hfollows.represents, hfollows.proper, hframe.leased h.leased, ?_⟩
  intro groupName hslash
  by_cases hne : c.groupName = groupName
  · subst hne
    exact SameGroup.call hplain now h.leased (h.sameGroups _ hname)
  · -- nothing happens to the other groups, on either side
    have hother : (t.call now c).1.lookup groupName = t.lookup groupName := by
      rw [hfollows.represents, hfollows.frame groupName (Ne.symm hne), h.represents]
    rw [hother]
    exact (h.sameGroups groupName hslash).of_frame hframe h.leased
      (separate_of_notMem hname hslash hne) hne

theorem alike_start : Alike ∅ {} ∅ := by
  refine ⟨MemoryGroups.represents_start, MemoryGroups.proper_start, Store.leased_start, ?_⟩
  intro groupName _
  refine ⟨notMem_empty, Finset.eq_empty_of_forall_notMem fun uid h => ?_⟩
  exact notMem_empty (mem_members.mp h)

/-- **The two services stand for the same groups** after any calls. -/
theorem alike_of_run {calls : List (ℤ × Call)} {s : MemoryGroups × EtcdStore}
    (hcalls : ∀ c ∈ calls, c.2.Plain ∧ 47 ∉ c.2.groupName) (hrun : sideBySide.run calls = some s) :
    ∃ t, Alike s.1 s.2 t := by
  refine System.run_induction
    (P := fun calls s => (∀ c ∈ calls, c.2.Plain ∧ 47 ∉ c.2.groupName) → ∃ t, Alike s.1 s.2 t)
    (fun _ => ⟨∅, alike_start⟩) ?_ hrun hcalls
  intro calls c s s' _ ih hstep hcalls
  obtain ⟨t, ht⟩ := ih fun c hc => hcalls c (mem_append_left _ hc)
  obtain ⟨hplain, hname⟩ := hcalls c (mem_append_right _ (mem_singleton_self c))
  obtain rfl := some.inj hstep
  exact ⟨_, ht.call hplain hname c.1⟩

theorem Alike.sameAnswer_iff {m : MemoryGroups} {s : EtcdStore} {t : GroupMap} (h : Alike m s t)
    {c : Call} (hplain : c.Plain) (hname : 47 ∉ c.groupName) (now : ℤ) :
    SameAnswer (m.call now c).2 (s.call c).2 ↔ FindsGroup m c := by
  have hfollows := MemoryGroups.follows_call h.represents h.proper now c
  rw [Groups.sameAnswer_iff hfollows.agrees,
    answer_eq_iff hplain now h.leased (h.sameGroups _ hname)]
  have hmem (name : Bytes) : name ∈ t ↔ name ∈ m := by
    rw [← lookup_isSome, ← lookup_isSome, h.represents, isSome_map]
  cases c <;> first | exact hmem _ | exact Iff.rfl

/-- **The services are interchangeable if and only if** `GroupRemoveMember` and
`GroupCountMembers` are called only on groups that exist. -/
theorem sameAnswers_iff_findsGroup {calls : List (ℤ × Call)}
    (hcalls : ∀ c ∈ calls, c.2.Plain ∧ 47 ∉ c.2.groupName) :
    sideBySide.Meets (fun s c => SameAnswer (s.1.call c.1 c.2).2 (s.2.call c.2).2) calls ↔
      sideBySide.Meets (fun s c => FindsGroup s.1 c.2) calls := by
  have hone (before : List (ℤ × Call)) (c : ℤ × Call) (after : List (ℤ × Call))
      (s : MemoryGroups × EtcdStore) (hsplit : calls = before ++ c :: after)
      (hrun : sideBySide.run before = some s) :
      SameAnswer (s.1.call c.1 c.2).2 (s.2.call c.2).2 ↔ FindsGroup s.1 c.2 := by
    subst hsplit
    obtain ⟨t, ht⟩ := alike_of_run (fun c hc => hcalls c (List.mem_append_left _ hc)) hrun
    obtain ⟨hplain, hname⟩ := hcalls c (List.mem_append_right _ List.mem_cons_self)
    exact ht.sameAnswer_iff hplain hname c.1
  constructor
  · intro h before c after s hsplit hrun
    exact (hone before c after s hsplit hrun).mp (h before c after s hsplit hrun)
  · intro h before c after s hsplit hrun
    exact (hone before c after s hsplit hrun).mpr (h before c after s hsplit hrun)

/-- A group that is created, gets and loses members, and is counted. -/
theorem sameAnswers_counted : ∃ calls : List (ℤ × Call),
    (∀ c ∈ calls, c.2.Plain ∧ 47 ∉ c.2.groupName) ∧ calls.length = 5 ∧
    sideBySide.Meets (fun s c => SameAnswer (s.1.call c.1 c.2).2 (s.2.call c.2).2) calls := by
  let calls : List (ℤ × Call) :=
    [(0, .groupCreate [103]), (1, .groupAddMember [103] [49]), (2, .groupAddMember [103] [50]),
      (3, .groupRemoveMember [103] [49]), (4, .groupCountMembers [103])]
  have hcalls : ∀ c ∈ calls, c.2.Plain ∧ 47 ∉ c.2.groupName := by decide
  have hfinds : sideBySide.MeetsFrom (fun s c => FindsGroup s.1 c.2) sideBySide.start calls := by
    decide +kernel
  exact ⟨calls, hcalls, rfl,
    (sameAnswers_iff_findsGroup hcalls).mpr (System.meets_of_meetsFrom hfinds)⟩

/-- On a group that does not exist, counting its members fails in memory and gives 0 in etcd, and
removing a member fails with different errors. -/
theorem answers_differ_on_missing :
    (MemoryGroups.call ∅ 0 (.groupCountMembers [103])).2 = .error .groupNotFound ∧
    (EtcdStore.call {} (.groupCountMembers [103])).2 = .ok (.count 0) ∧
    (MemoryGroups.call ∅ 0 (.groupRemoveMember [103] [49])).2 = .error .groupNotFound ∧
    (EtcdStore.call {} (.groupRemoveMember [103] [49])).2 = .error .memberNotFound := by
  decide +kernel

end Pitaya.Groups
