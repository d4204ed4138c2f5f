import Pitaya.Cluster.Cache

/-!
# The cache is etcd at the applied revision

* `Registered`, `Visible` — the registrations in a store of etcd, and those that are
  not left out.
* `Mirrors` — the cache holds exactly the visible registrations of a store.  A snapshot
  establishes it (`syncServersLocked_mirrors`), and an event of the history keeps it if
  it is applied to the cache and the store alike (`applyEvent_mirrors`).
-/

namespace Pitaya.Cluster

open Revisions Transition Finmap Option Discovery Except

variable {cfg : Config}

/-! ## Registrations -/

theorem parseEtcdKey_inj {k k' typ id : Bytes} (h : parseEtcdKey k = .ok (typ, id))
    (h' : parseEtcdKey k' = .ok (typ, id)) : k = k' := by
  have hsplit {k : Bytes} (h : parseEtcdKey k = .ok (typ, id)) :
      k.splitOn separator = [directory, typ, id] := by
    unfold parseEtcdKey at h
    split at h
    · next first typ' id' hk =>
      split at h
      · cases h
      · next hgood =>
        cases h
        rw [hk, not_not.mp fun hfirst => hgood (.inl hfirst)]
    · cases h
  have hjoin (k : Bytes) : [separator].intercalate (k.splitOn separator) = k :=
    List.intercalate_splitOn separator
  rw [← hjoin k, hsplit h, ← hsplit h', hjoin]

theorem readRegistration_eq_ok {key typ id value : Bytes} {sv : Server} :
    readRegistration cfg key typ id value = .ok sv ↔
      parseServer cfg value = .ok sv ∧ sv.id = id ∧ sv.typ = typ := by
  unfold readRegistration
  cases parseServer cfg value with
  | error => simp
  | ok sv' =>
    by_cases hmatch : sv'.id ≠ id ∨ sv'.typ ≠ typ
    · simp only [if_pos hmatch, reduceCtorEq, ok.injEq, false_iff]
      rintro ⟨rfl, hid, htyp⟩
      rcases hmatch with hne | hne
      · exact hne hid
      · exact hne htyp
    · obtain ⟨hid, htyp⟩ := not_or.mp hmatch
      simp only [if_neg hmatch, ok.injEq]
      refine ⟨fun heq => ?_, fun heq => heq.1⟩
      subst heq
      exact ⟨rfl, not_not.mp hid, not_not.mp htyp⟩

/-- A server is registered in a store of etcd. -/
def Registered (cfg : Config) (store : Store Bytes Bytes) (sv : Server) : Prop :=
  ∃ key value, store.lookup key = some value ∧ parseEtcdKey key = .ok (sv.typ, sv.id) ∧
    parseServer cfg value = .ok sv

/-- A server is registered, and not left out because its type is blacklisted. -/
def Visible (cfg : Config) (store : Store Bytes Bytes) (sv : Server) : Prop :=
  Registered cfg store sv ∧
    ¬(sv.typ ∈ cfg.serverTypesBlacklist ∧ sv.id ≠ cfg.server.id)

theorem hidden_eq_false {typ id : Bytes} :
    hidden cfg typ id = false ↔ ¬(typ ∈ cfg.serverTypesBlacklist ∧ id ≠ cfg.server.id) := by
  rw [← Bool.not_eq_true, hidden, Bool.and_eq_true, bne_iff_ne, isServerTypeBlacklisted,
    List.any_eq_true]
  simp

/-- **What is assumed of the registrations**: every value below `servers/` is one
`addServerIntoEtcd` writes, and an id is registered under one type only. -/
structure WellRegistered (cfg : Config) (etcd : History Bytes Bytes) : Prop where
  puts : ∀ r key value, (key, some value) ∈ etcd.txn r →
    ∃ sv, parseEtcdKey key = .ok (sv.typ, sv.id) ∧ parseServer cfg value = .ok sv
  oneType : ∀ r r' key key' value value' typ typ' id, (key, some value) ∈ etcd.txn r →
    (key', some value') ∈ etcd.txn r' → parseEtcdKey key = .ok (typ, id) →
    parseEtcdKey key' = .ok (typ', id) → typ = typ'

/-- A store all of whose entries were put at some revision. -/
def PutInto (etcd : History Bytes Bytes) (store : Store Bytes Bytes) : Prop :=
  ∀ key value, store.lookup key = some value → ∃ r, (key, some value) ∈ etcd.txn r

variable {etcd : History Bytes Bytes} {store : Store Bytes Bytes}

theorem PutInto.apply {e : Event Bytes Bytes} (h : PutInto etcd store) (he : etcd.Has e) :
    PutInto etcd (e.apply store) := by
  intro key value hlookup
  by_cases hkey : key = e.key
  · subst hkey
    rw [Event.lookup_apply_self] at hlookup
    rw [History.Has, hlookup] at he
    exact ⟨_, he⟩
  · rw [Event.lookup_apply_of_ne _ hkey] at hlookup
    exact h key value hlookup

theorem WellRegistered.key_eq (h : WellRegistered cfg etcd) {r r' : ℕ}
    {key key' value value' typ typ' id : Bytes} (hkey : (key, some value) ∈ etcd.txn r)
    (hkey' : (key', some value') ∈ etcd.txn r') (hparse : parseEtcdKey key = .ok (typ, id))
    (hparse' : parseEtcdKey key' = .ok (typ', id)) : key = key' := by
  obtain rfl := h.oneType r r' key key' value value' typ typ' id hkey hkey' hparse hparse'
  exact parseEtcdKey_inj hparse hparse'

/-! ## The cache mirrors a store -/

/-- The cache holds exactly the visible registrations of a store. -/
def Mirrors (cfg : Config) (sd : Discovery) (store : Store Bytes Bytes) : Prop :=
  ∀ id sv, sd.serverMapByID.lookup id = some sv ↔ sv.id = id ∧ Visible cfg store sv

/-- The server of a key-value pair, unless it is left out. -/
def readVisible (cfg : Config) (kv : Bytes × Bytes) : Option Server :=
  match parseEtcdKey kv.1 with
  | .error _ => none
  | .ok (typ, id) =>
    if hidden cfg typ id then none else (readRegistration cfg kv.1 typ id kv.2).toOption

theorem readVisible_eq_some {kv : Bytes × Bytes} {sv : Server} :
    readVisible cfg kv = some sv ↔ parseEtcdKey kv.1 = .ok (sv.typ, sv.id) ∧
      parseServer cfg kv.2 = .ok sv ∧ hidden cfg sv.typ sv.id = false := by
  unfold readVisible
  cases hkey : parseEtcdKey kv.1 with
  | error => simp
  | ok parsed =>
    obtain ⟨typ, id⟩ := parsed
    dsimp only
    constructor
    · intro h
      split at h
      · cases h
      · next hshown =>
        cases hread : readRegistration cfg kv.1 typ id kv.2 with
        | error =>
          rw [hread] at h
          cases h
        | ok =>
          rw [hread] at h
          obtain rfl := some.inj h
          obtain ⟨hparse, rfl, rfl⟩ := readRegistration_eq_ok.mp hread
          exact ⟨rfl, hparse, eq_false_of_ne_true hshown⟩
    · rintro ⟨hsame, hparse, hshown⟩
      cases hsame
      rw [hshown, readRegistration_eq_ok.mpr ⟨hparse, rfl, rfl⟩]
      rfl

theorem visible_iff {sv : Server} :
    Visible cfg store sv ↔
      ∃ key value, store.lookup key = some value ∧ readVisible cfg (key, value) = some sv := by
  simp only [readVisible_eq_some, hidden_eq_false]
  constructor
  · rintro ⟨⟨key, value, hlookup, hkey, hvalue⟩, hshown⟩
    exact ⟨key, value, hlookup, hkey, hvalue, hshown⟩
  · rintro ⟨key, value, hlookup, hkey, hvalue, hshown⟩
    exact ⟨⟨key, value, hlookup, hkey, hvalue⟩, hshown⟩

namespace Discovery

theorem readSnapshot_keyed {sd : Discovery} (h : Indexed cfg sd) (kvs : List (Bytes × Bytes)) :
    ∀ id sv, (readSnapshot cfg sd kvs).lookup id = some sv → sv.id = id := by
  have hinsert {servers : Finmap fun _ : Bytes => Server} {id' : Bytes} {sv' : Server}
      (hservers : ∀ id sv, servers.lookup id = some sv → sv.id = id) (hid : sv'.id = id') :
      ∀ id sv, (servers.insert id' sv').lookup id = some sv → sv.id = id := by
    intro id sv hlookup
    by_cases hsame : id = id'
    · subst hsame
      obtain rfl := some.inj ((lookup_insert _).symm.trans hlookup)
      exact hid
    · exact hservers id sv ((lookup_insert_of_ne _ hsame).symm.trans hlookup)
  refine List.foldlRecOn (motive := fun servers : Finmap fun _ : Bytes => Server =>
    ∀ id sv, servers.lookup id = some sv → sv.id = id) kvs _ ?_ ?_
  · exact fun id sv hlookup => by cases (lookup_empty id).symm.trans hlookup
  · intro servers hservers kv _
    unfold readKv
    split
    · exact hservers
    · split
      · exact hservers
      · split
        · next hread => exact hinsert hservers (readRegistration_eq_ok.mp hread).2.1
        · split
          · next hold => exact hinsert hservers (h.keyed _ _ hold)
          · exact hservers

theorem syncServersLocked_serverMapByID {sd : Discovery} (h : Indexed cfg sd)
    {snapshot : Snapshot} {stores removes : List Bytes} {r : Discovery × Except SyncError Unit}
    (hactive : sd.cancelled = false) (hfresh : sd.appliedRevision ≤ snapshot.revision)
    (hsync : sd.syncServersLocked cfg (.ok snapshot) stores removes = some r) :
    r.1.serverMapByID = readSnapshot cfg sd snapshot.kvs := by
  unfold syncServersLocked at hsync
  simp only [hactive, if_neg (not_lt.mpr hfresh)] at hsync
  obtain ⟨hvisits, ⟨⟩⟩ := ite_none_right_eq_some.mp hsync
  exact (loops_spec h (readSnapshot_keyed h snapshot.kvs) hvisits.1 hvisits.2).2

theorem readKv_eq (h : WellRegistered cfg etcd) {r : ℕ} {kv : Bytes × Bytes}
    (hput : (kv.1, some kv.2) ∈ etcd.txn r) (sd : Discovery)
    (servers : Finmap fun _ : Bytes => Server) :
    readKv cfg sd servers kv
      = match readVisible cfg kv with
        | some sv => servers.insert sv.id sv
        | none => servers := by
  obtain ⟨sv, hkey, hparse⟩ := h.puts r kv.1 kv.2 hput
  have hread : readRegistration cfg kv.1 sv.typ sv.id kv.2 = .ok sv :=
    readRegistration_eq_ok.mpr ⟨hparse, rfl, rfl⟩
  cases hshown : hidden cfg sv.typ sv.id with
  | true => simp [readKv, readVisible, hkey, hshown]
  | false =>
    simp only [readKv, readVisible, hkey, hshown, hread]
    rfl

/-- **What a snapshot is read as.** -/
theorem readSnapshot_spec (h : WellRegistered cfg etcd) (sd : Discovery)
    {kvs : List (Bytes × Bytes)} (nodup : (kvs.map Prod.fst).Nodup)
    (hput : ∀ kv ∈ kvs, ∃ r, (kv.1, some kv.2) ∈ etcd.txn r) (id : Bytes) (sv : Server) :
    (readSnapshot cfg sd kvs).lookup id = some sv
      ↔ sv.id = id ∧ ∃ kv ∈ kvs, readVisible cfg kv = some sv := by
  induction kvs using List.reverseRecOn generalizing sv with
  | nil => simp [readSnapshot]
  | append_singleton kvs kv ih =>
    obtain ⟨r, hr⟩ := hput kv (List.mem_append_right _ List.mem_cons_self)
    have hbefore : ∀ kv' ∈ kvs, ∃ r, (kv'.1, some kv'.2) ∈ etcd.txn r :=
      fun kv' hin => hput kv' (List.mem_append_left _ hin)
    rw [List.map_append, List.nodup_append] at nodup
    have ih := ih nodup.1 hbefore
    rw [readSnapshot, List.foldl_append]
    change (readKv cfg sd (readSnapshot cfg sd kvs) kv).lookup id = some sv ↔ _
    rw [readKv_eq h hr]
    simp only [List.mem_append, List.mem_singleton, or_and_right, exists_or, exists_eq_left,
      and_or_left]
    cases hlast : readVisible cfg kv with
    | none => simp [ih]
    | some sv₀ =>
      obtain ⟨hkey₀, -⟩ := readVisible_eq_some.mp hlast
      -- no other pair of the snapshot has the id of the last one
      have hother : ∀ kv' ∈ kvs, ∀ sv', readVisible cfg kv' = some sv' → sv'.id ≠ sv₀.id := by
        intro kv' hin sv' hread hsame
        obtain ⟨r', hr'⟩ := hbefore kv' hin
        obtain ⟨hkey', -⟩ := readVisible_eq_some.mp hread
        rw [hsame] at hkey'
        have hkeys := h.key_eq hr' hr hkey' hkey₀
        exact nodup.2.2 kv'.1 (List.mem_map_of_mem hin) kv.1 List.mem_cons_self hkeys
      by_cases hid : id = sv₀.id
      · subst hid
        rw [lookup_insert]
        constructor
        · intro heq
          obtain rfl := some.inj heq
          exact .inr ⟨rfl, rfl⟩
        · rintro (⟨hsame, kv', hin, hread⟩ | ⟨-, heq⟩)
          · exact absurd hsame (hother kv' hin sv hread)
          · exact heq
      · rw [lookup_insert_of_ne _ hid, ih]
        refine ⟨.inl, ?_⟩
        rintro (hbefore | ⟨hsame, heq⟩)
        · exact hbefore
        · obtain rfl := some.inj heq
          exact absurd hsame.symm hid

theorem mem_kvs {snapshot : Snapshot} (h : Answers etcd (.ok snapshot)) {kv : Bytes × Bytes} :
    kv ∈ snapshot.kvs ↔ (etcd.store snapshot.revision).lookup kv.1 = some kv.2 := by
  rw [← Multiset.mem_coe, show (snapshot.kvs : Multiset (Bytes × Bytes)) = _ from h,
    Multiset.mem_map]
  constructor
  · rintro ⟨e, he, rfl⟩
    exact mem_lookup_iff.mpr he
  · intro hlookup
    exact ⟨⟨kv.1, kv.2⟩, mem_lookup_iff.mp hlookup, rfl⟩

theorem kvs_nodup {snapshot : Snapshot} (h : Answers etcd (.ok snapshot)) :
    (snapshot.kvs.map Prod.fst).Nodup := by
  rw [← Multiset.coe_nodup, ← Multiset.map_coe,
    show (snapshot.kvs : Multiset (Bytes × Bytes)) = _ from h, Multiset.map_map]
  exact (etcd.store snapshot.revision).keys.nodup

/-- **A snapshot**: the cache mirrors the store at `appliedRevision` again, which does
not go back. -/
theorem syncServersLocked_mirrors (h : WellRegistered cfg etcd) {sd sd' : Discovery}
    {reply : Except Bytes Snapshot} {stores removes : List Bytes} {result : Except SyncError Unit}
    (answers : Answers etcd reply) (hindexed : Indexed cfg sd)
    (hmirrors : Mirrors cfg sd (etcd.store sd.appliedRevision))
    (hsync : sd.syncServersLocked cfg reply stores removes = some (sd', result)) :
    Indexed cfg sd' ∧ Mirrors cfg sd' (etcd.store sd'.appliedRevision) ∧
      sd.appliedRevision ≤ sd'.appliedRevision := by
  unfold syncServersLocked at hsync
  split at hsync
  · cases hsync
    exact ⟨hindexed, hmirrors, le_rfl⟩
  · next snapshot =>
    split at hsync
    · cases hsync
      exact ⟨hindexed, hmirrors, le_rfl⟩
    · split at hsync
      · cases hsync
        exact ⟨hindexed, hmirrors, le_rfl⟩
      · next hfresh =>
        dsimp only at hsync
        split at hsync
        · next hvisits =>
          cases hsync
          have hread := readSnapshot_spec h sd (kvs_nodup answers) fun kv hkv =>
            History.put_of_lookup ((mem_kvs answers).mp hkv)
          obtain ⟨hloops, hmap⟩ := loops_spec hindexed
            (fun id sv hlookup => ((hread id sv).mp hlookup).1) hvisits.1 hvisits.2
          refine ⟨⟨hloops.keyed, hloops.byType, hloops.byNode⟩, fun id sv => ?_, not_lt.mp hfresh⟩
          change (serverMapByID (Prod.fst _)).lookup id = some sv ↔ _
          rw [hmap, hread, visible_iff]
          refine and_congr_right fun _ => ⟨?_, ?_⟩
          · rintro ⟨kv, hkv, hsv⟩
            exact ⟨kv.1, kv.2, (mem_kvs answers).mp hkv, hsv⟩
          · rintro ⟨key, value, hlookup, hsv⟩
            exact ⟨(key, value), (mem_kvs answers).mpr hlookup, hsv⟩
        · cases hsync

/-! ## Watch responses -/

theorem visible_apply (h : WellRegistered cfg etcd) (hstore : PutInto etcd store)
    {e : Event Bytes Bytes} (he : etcd.Has e) {typ id : Bytes}
    (hkey : parseEtcdKey e.key = .ok (typ, id)) {sv : Server} :
    Visible cfg (e.apply store) sv ↔
      (sv.id ≠ id ∧ Visible cfg store sv) ∨
      (sv.id = id ∧ ∃ value, e.change = some value ∧ readVisible cfg (e.key, value) = some sv) := by
  obtain ⟨r, value₀, hput⟩ := he.put
  simp only [visible_iff]
  constructor
  · rintro ⟨key, value, hlookup, hread⟩
    have hkey' : parseEtcdKey key = .ok (sv.typ, sv.id) := (readVisible_eq_some.mp hread).1
    by_cases hsame : key = e.key
    · subst hsame
      rw [Event.lookup_apply_self] at hlookup
      rw [hkey] at hkey'
      cases hkey'
      exact .inr ⟨rfl, value, hlookup, hread⟩
    · rw [Event.lookup_apply_of_ne _ hsame] at hlookup
      obtain ⟨r', hput'⟩ := hstore key value hlookup
      refine .inl ⟨?_, key, value, hlookup, hread⟩
      rintro rfl
      exact hsame (h.key_eq hput' hput hkey' hkey)
  · rintro (⟨hne, key, value, hlookup, hread⟩ | ⟨-, value, hchange, hread⟩)
    · have hkey' : parseEtcdKey key = .ok (sv.typ, sv.id) := (readVisible_eq_some.mp hread).1
      have hother : key ≠ e.key := by
        rintro rfl
        rw [hkey] at hkey'
        cases hkey'
        exact hne rfl
      exact ⟨key, value, by rw [Event.lookup_apply_of_ne _ hother, hlookup], hread⟩
    · exact ⟨e.key, value, by rw [Event.lookup_apply_self, hchange], hread⟩

theorem hidden_of_cached (h : WellRegistered cfg etcd) (hstore : PutInto etcd store)
    {sd : Discovery} (hmirrors : Mirrors cfg sd store) {r : ℕ} {key value typ id : Bytes}
    (hput : (key, some value) ∈ etcd.txn r) (hkey : parseEtcdKey key = .ok (typ, id))
    {sv : Server} (hlookup : sd.serverMapByID.lookup id = some sv) :
    hidden cfg typ id = false := by
  obtain ⟨rfl, hsv⟩ := (hmirrors id sv).mp hlookup
  obtain ⟨key', value', hlookup', hread⟩ := visible_iff.mp hsv
  obtain ⟨hkey', -, hshown⟩ := readVisible_eq_some.mp hread
  obtain ⟨r', hput'⟩ := hstore key' value' hlookup'
  obtain rfl := h.oneType r r' key key' value value' typ sv.typ sv.id hput hput' hkey hkey'
  exact hshown

/-- What an event on a key that is not filtered out makes of the cache: its id has the server it
registers, if any. -/
theorem applyEvent_shown {b : Batch} (hindexed : Indexed cfg b.sd) {e : Event Bytes Bytes}
    {typ id : Bytes} (hkey : parseEtcdKey e.key = .ok (typ, id))
    (hshown : hidden cfg typ id = false) (puts : ∀ value, e.change = some value →
      ∃ sv, parseEtcdKey e.key = .ok (sv.typ, sv.id) ∧ parseServer cfg value = .ok sv) :
    Indexed cfg (applyEvent cfg b e).sd ∧ ∀ id',
      (applyEvent cfg b e).sd.serverMapByID.lookup id'
        = if id' = id then e.change.bind fun value => readVisible cfg (e.key, value)
          else b.sd.serverMapByID.lookup id' := by
  cases hchange : e.change with
  | some value =>
    obtain ⟨sv, hkey', hparse⟩ := puts value hchange
    rw [hkey] at hkey'
    cases hkey'
    have hread : readRegistration cfg e.key sv.typ sv.id value = .ok sv :=
      readRegistration_eq_ok.mpr ⟨hparse, rfl, rfl⟩
    have heq : (applyEvent cfg b e).sd = (b.sd.storeServerLocked cfg sv).1 := by
      simp [applyEvent, hkey, hshown, hchange, hread]
    rw [heq, store_serverMapByID hindexed]
    refine ⟨hindexed.store sv, fun id' => ?_⟩
    by_cases hid : id' = sv.id
    · subst hid
      rw [lookup_insert, if_pos rfl]
      exact (readVisible_eq_some.mpr ⟨hkey, hparse, hshown⟩).symm
    · rw [lookup_insert_of_ne _ hid, if_neg hid]
  | none =>
    cases hlookup : b.sd.serverMapByID.lookup id with
    | none =>
      have heq : applyEvent cfg b e = b := by
        simp [applyEvent, hkey, hshown, hchange, hlookup]
      rw [heq]
      refine ⟨hindexed, fun id' => ?_⟩
      split
      · next hid => subst hid; exact hlookup
      · rfl
    | some old =>
      obtain rfl : old.id = id := hindexed.keyed _ _ hlookup
      have heq : (applyEvent cfg b e).sd = (b.sd.removeServerLocked old).1 := by
        simp [applyEvent, hkey, hshown, hchange, hlookup]
      rw [heq]
      refine ⟨hindexed.remove hlookup, fun id' => ?_⟩
      change (b.sd.serverMapByID.erase old.id).lookup id' = _
      by_cases hid : id' = old.id
      · subst hid
        rw [lookup_erase, if_pos rfl]
        rfl
      · rw [lookup_erase_ne hid, if_neg hid]

section

variable (h : WellRegistered cfg etcd) (hstore : PutInto etcd store) {b : Batch}
  (hindexed : Indexed cfg b.sd) (hmirrors : Mirrors cfg b.sd store) {e : Event Bytes Bytes}
  (he : etcd.Has e)
include h hstore hindexed hmirrors he

theorem applyEvent_spec {typ id : Bytes} (hkey : parseEtcdKey e.key = .ok (typ, id)) :
    Indexed cfg (applyEvent cfg b e).sd ∧ ∀ id',
      (applyEvent cfg b e).sd.serverMapByID.lookup id'
        = if id' = id then e.change.bind fun value => readVisible cfg (e.key, value)
          else b.sd.serverMapByID.lookup id' := by
  obtain ⟨r, value₀, hput⟩ := he.put
  cases hshown : hidden cfg typ id with
  | true =>
    have heq : applyEvent cfg b e = b := by simp [applyEvent, hkey, hshown]
    have hnone : b.sd.serverMapByID.lookup id = none := by
      cases hlookup : b.sd.serverMapByID.lookup id with
      | none => rfl
      | some =>
        rw [hidden_of_cached h hstore hmirrors hput hkey hlookup] at hshown
        cases hshown
    rw [heq]
    refine ⟨hindexed, fun id' => ?_⟩
    split
    · next hid =>
      subst hid
      have hread (value : Bytes) : readVisible cfg (e.key, value) = none := by
        simp [readVisible, hkey, hshown]
      rw [hnone]
      cases e.change <;> simp [hread]
    · rfl
  | false =>
    exact applyEvent_shown hindexed hkey hshown fun value hchange =>
      h.puts e.modRevision e.key value (hchange ▸ he)

/-- **An event** does the same to the cache and to the store. -/
theorem applyEvent_mirrors :
    Indexed cfg (applyEvent cfg b e).sd ∧ Mirrors cfg (applyEvent cfg b e).sd (e.apply store) := by
  obtain ⟨r, value₀, hput⟩ := he.put
  obtain ⟨sv₀, hkey, -⟩ := h.puts r _ _ hput
  obtain ⟨hindexed', hlookup⟩ := applyEvent_spec h hstore hindexed hmirrors he hkey
  refine ⟨hindexed', fun id sv => ?_⟩
  rw [hlookup, visible_apply h hstore he hkey]
  split
  · next hid =>
    subst hid
    rw [bind_eq_some_iff]
    constructor
    · rintro ⟨value, hchange, hread⟩
      have hkey' : parseEtcdKey e.key = .ok (sv.typ, sv.id) := (readVisible_eq_some.mp hread).1
      rw [hkey] at hkey'
      have hid : sv.id = sv₀.id := (congrArg Prod.snd (ok.inj hkey')).symm
      exact ⟨hid, .inr ⟨hid, value, hchange, hread⟩⟩
    · rintro ⟨hsame, ⟨hne, -⟩ | ⟨-, hread⟩⟩
      · exact absurd hsame hne
      · exact hread
  · next hid =>
    rw [hmirrors id sv]
    refine and_congr_right fun hsame => ?_
    have hne : sv.id ≠ sv₀.id := fun heq => hid (hsame.symm.trans heq)
    simp [hne]

end

theorem applyEvent_revision (b : Batch) (e : Event Bytes Bytes) :
    (applyEvent cfg b e).revision = b.revision := by
  unfold applyEvent
  split
  · rfl
  · split
    · rfl
    · split
      · split <;> rfl
      · split <;> rfl

theorem foldl_watchVisit_revision {boundary : ℕ} {b : Batch} (h : boundary ≤ b.revision)
    (es : List (Event Bytes Bytes)) :
    (es.foldl (watchVisit cfg boundary) b).revision = newest b.revision es := by
  induction es generalizing b with
  | nil => rfl
  | cons e es ih =>
    have hvisit : (watchVisit cfg boundary b e).revision = max b.revision e.modRevision := by
      unfold watchVisit
      split
      · next hold => exact (max_eq_left (hold.trans h)).symm
      · exact applyEvent_revision _ _
    rw [List.foldl_cons, ih (by rw [hvisit]; exact le_max_of_le_left h), hvisit]
    rfl

/-- **A watch response**: cache and store take the same events, those after the
boundary. -/
theorem foldl_watchVisit_mirrors (h : WellRegistered cfg etcd) {boundary : ℕ}
    {es : List (Event Bytes Bytes)} (genuine : ∀ e ∈ es, etcd.Has e) {b : Batch}
    (hstore : PutInto etcd store) (hindexed : Indexed cfg b.sd)
    (hmirrors : Mirrors cfg b.sd store) :
    Indexed cfg (es.foldl (watchVisit cfg boundary) b).sd ∧
      Mirrors cfg (es.foldl (watchVisit cfg boundary) b).sd
        (replay store (es.filter fun e => boundary < e.modRevision)) := by
  induction es generalizing b store with
  | nil => exact ⟨hindexed, hmirrors⟩
  | cons e es ih =>
    have he := genuine e List.mem_cons_self
    have hrest : ∀ e' ∈ es, etcd.Has e' := fun e' h' => genuine e' (List.mem_cons_of_mem e h')
    rw [List.foldl_cons, watchVisit]
    by_cases hold : e.modRevision ≤ boundary
    · rw [if_pos hold, List.filter_cons_of_neg (by simpa using hold)]
      exact ih hrest hstore hindexed hmirrors
    · have hfresh : boundary < e.modRevision := not_le.mp hold
      rw [if_neg hold, List.filter_cons_of_pos (by simpa using hfresh)]
      obtain ⟨hindexed', hmirrors'⟩ := @applyEvent_mirrors cfg etcd store h hstore
        { b with revision := max b.revision e.modRevision } hindexed hmirrors e he
      exact ih hrest (hstore.apply he) hindexed' hmirrors'

/-- **A response of the watch**: the cache mirrors the store at `appliedRevision` again,
and nothing happened between that and what the watch has delivered. -/
theorem applyWatchResponse_mirrors (h : WellRegistered cfg etcd) {sd : Discovery}
    {pos pos' : ℕ} {es : List (Event Bytes Bytes)} (delivers : Delivers etcd pos pos' es)
    (quiet : Quiet etcd sd.appliedRevision pos) (active : sd.cancelled = false)
    (hindexed : Indexed cfg sd) (hmirrors : Mirrors cfg sd (etcd.store sd.appliedRevision)) :
    Indexed cfg (sd.applyWatchResponse cfg es) ∧
      Mirrors cfg (sd.applyWatchResponse cfg es)
        (etcd.store (sd.applyWatchResponse cfg es).appliedRevision) ∧
      Quiet etcd (sd.applyWatchResponse cfg es).appliedRevision pos' := by
  obtain ⟨hcatch, hquiet⟩ := replay_fresh delivers quiet
  obtain ⟨h₁, h₂⟩ := @foldl_watchVisit_mirrors cfg etcd (etcd.store sd.appliedRevision) h
    sd.appliedRevision es (fun e he => (delivers.genuine e he).1) ⟨sd, sd.appliedRevision, []⟩
    (fun _ _ => History.put_of_lookup) hindexed hmirrors
  have hrevision : (sd.applyWatchResponse cfg es).appliedRevision =
      newest sd.appliedRevision es := by
    rw [applyWatchResponse, active]
    exact @foldl_watchVisit_revision cfg sd.appliedRevision ⟨sd, sd.appliedRevision, []⟩ le_rfl es
  rw [hrevision, ← hcatch]
  refine ⟨?_, ?_, hquiet⟩
  · rw [applyWatchResponse, active]
    exact ⟨h₁.keyed, h₁.byType, h₁.byNode⟩
  · rw [applyWatchResponse, active]
    exact h₂

theorem syncServersLocked_of_cancelled {sd sd' : Discovery} {reply : Except Bytes Snapshot}
    {stores removes : List Bytes} {result : Except SyncError Unit} (h : sd.cancelled = true)
    (hsync : sd.syncServersLocked cfg reply stores removes = some (sd', result)) : sd' = sd := by
  unfold syncServersLocked at hsync
  split at hsync
  · cases hsync; rfl
  · rw [if_pos h] at hsync
    cases hsync
    rfl

end Discovery

/-! ## Runs -/

/-- The revision up to which the watch has delivered, or will start from. -/
def Watch.upTo : Watch → Option ℕ
  | .idle => none
  | .opening revision => some revision
  | .consuming pos => some pos

/-- **The invariant**: the cache mirrors the store at `appliedRevision`, and the watch is
not ahead of it except over revisions at which nothing happened. -/
structure Exact (cfg : Config) (etcd : History Bytes Bytes) (s : State) : Prop where
  indexed : s.sd.Indexed cfg
  mirrors : Mirrors cfg s.sd (etcd.store s.sd.appliedRevision)
  watch : s.sd.cancelled = false →
    ∀ pos, s.watch.upTo = some pos → Quiet etcd s.sd.appliedRevision pos

theorem exact_start : Exact cfg etcd {} where
  indexed := Discovery.indexed_start cfg
  mirrors id sv := by
    have hnone : ¬Visible cfg (etcd.store 0) sv := by
      rintro ⟨⟨key, value, hlookup, -⟩, -⟩
      cases (lookup_empty key).symm.trans hlookup
    simp [hnone]
  watch _ pos h := by cases h

theorem Exact.sync (h : WellRegistered cfg etcd) {s : State} (hs : Exact cfg etcd s)
    {reply : Except Bytes Discovery.Snapshot} {stores removes : List Bytes} {sd' : Discovery}
    {result : Except Discovery.SyncError Unit} (answers : Answers etcd reply)
    (hsync : s.sd.syncServersLocked cfg reply stores removes = some (sd', result)) :
    Exact cfg etcd { s with sd := sd' } := by
  obtain ⟨hindexed, hmirrors, hle⟩ :=
    syncServersLocked_mirrors h answers hs.indexed hs.mirrors hsync
  refine ⟨hindexed, hmirrors, fun hactive pos hpos r hlow hhigh => ?_⟩
  have hbefore : s.sd.cancelled = false := by
    refine eq_false_of_ne_true fun hcancelled => ?_
    have hsame := syncServersLocked_of_cancelled hcancelled hsync
    rw [show sd'.cancelled = s.sd.cancelled by rw [hsame], hcancelled] at hactive
    cases hactive
  exact hs.watch hbefore pos hpos r (hle.trans_lt hlow) hhigh

theorem Exact.step (h : WellRegistered cfg etcd) {s s' : State} {op : Op}
    (hs : Exact cfg etcd s) (hstep : step cfg etcd s op = some s') : Exact cfg etcd s' := by
  cases op with
  | syncServers =>
    obtain ⟨answers, hstep⟩ := ite_none_right_eq_some.mp hstep
    obtain ⟨r, hsync, rfl⟩ := map_eq_some_iff.mp hstep
    exact hs.sync h answers hsync
  | resync =>
    obtain ⟨⟨answers, hidle⟩, hstep⟩ := ite_none_right_eq_some.mp hstep
    obtain ⟨⟨sd', result⟩, hsync, hs'⟩ := map_eq_some_iff.mp hstep
    have hexact := hs.sync h answers hsync
    cases result with
    | ok =>
      subst hs'
      refine ⟨hexact.indexed, hexact.mirrors, fun _ pos hpos r hlow hhigh => ?_⟩
      obtain rfl := some.inj hpos
      exact absurd hlow (not_lt.mpr hhigh)
    | error =>
      subst hs'
      exact ⟨hexact.indexed, hexact.mirrors, fun _ pos hpos => by cases hpos⟩
  | openWatch =>
    cases hwatch : s.watch with
    | opening =>
      simp only [Cluster.step, hwatch] at hstep
      cases hstep
      refine ⟨hs.indexed, hs.mirrors, fun hactive pos hpos => ?_⟩
      exact hs.watch hactive pos (by rw [hwatch]; exact hpos)
    | idle | consuming => simp [Cluster.step, hwatch] at hstep
  | response upTo events =>
    cases hwatch : s.watch with
    | consuming pos =>
      simp only [Cluster.step, hwatch] at hstep
      obtain ⟨delivers, ⟨⟩⟩ := ite_none_right_eq_some.mp hstep
      cases hcancelled : s.sd.cancelled with
      | true =>
        have hsame : s.sd.applyWatchResponse cfg events = s.sd := if_pos hcancelled
        rw [hsame]
        refine ⟨hs.indexed, hs.mirrors, fun hactive => ?_⟩
        cases hactive.symm.trans hcancelled
      | false =>
        obtain ⟨hindexed, hmirrors, hquiet⟩ :=
          applyWatchResponse_mirrors h delivers
            (hs.watch hcancelled pos (by rw [hwatch]; rfl)) hcancelled hs.indexed hs.mirrors
        refine ⟨hindexed, hmirrors, fun _ pos' hpos' => ?_⟩
        obtain rfl := some.inj hpos'
        exact hquiet
    | idle | opening => simp [Cluster.step, hwatch] at hstep
  | closeWatch =>
    cases hwatch : s.watch with
    | consuming pos =>
      simp only [Cluster.step, hwatch] at hstep
      cases hstep
      exact ⟨hs.indexed, hs.mirrors, fun _ pos hpos => by cases hpos⟩
    | idle | opening => simp [Cluster.step, hwatch] at hstep
  | cancel =>
    cases hstep
    exact ⟨⟨hs.indexed.keyed, hs.indexed.byType, hs.indexed.byNode⟩, hs.mirrors,
      fun hactive => by cases hactive⟩

theorem mem_getServers {sd : Discovery} (h : sd.Indexed cfg) {sv : Server} :
    sv ∈ sd.getServers ↔ sd.serverMapByID.lookup sv.id = some sv := by
  rw [getServers, mem_values]
  constructor
  · rintro ⟨id, hlookup⟩
    obtain rfl := h.keyed id sv hlookup
    exact hlookup
  · exact fun hlookup => ⟨sv.id, hlookup⟩

/-- **The cache is etcd at the applied revision.**  After every run of calls of
`SyncServers`, watch responses, closures and restarts, what `GetServer`, `GetServers` and
`GetServersByType` show are the registrations in etcd at `appliedRevision`, except those
of other servers with a blacklisted type. -/
theorem cache_exact (cfg : Config) (etcd : History Bytes Bytes) (h : WellRegistered cfg etcd)
    (ops : List Op) (s : State) (hrun : (discovery cfg etcd).run ops = some s) :
    (∀ id sv, s.sd.getServer id = .ok sv ↔
      sv.id = id ∧ Visible cfg (etcd.store s.sd.appliedRevision) sv) ∧
    (∀ sv, sv ∈ s.sd.getServers ↔ Visible cfg (etcd.store s.sd.appliedRevision) sv) ∧
    ∀ typ id sv, (∃ m, s.sd.getServersByType typ = .ok m ∧ m.lookup id = some sv) ↔
      sv.typ = typ ∧ sv.id = id ∧ Visible cfg (etcd.store s.sd.appliedRevision) sv := by
  have hexact : Exact cfg etcd s :=
    System.run_induction (P := fun _ s => Exact cfg etcd s) exact_start
      (fun _ _ _ _ _ hs hstep => hs.step h hstep) hrun
  refine ⟨fun id sv => ?_, fun sv => ?_, fun typ id sv => ?_⟩
  · rw [getServer_eq_ok, hexact.mirrors]
  · rw [mem_getServers hexact.indexed, hexact.mirrors, and_iff_right rfl]
  · rw [getServersByType_lookup, hexact.indexed.byType, hexact.mirrors]
    exact and_comm

/-- Registrations are the type and the id, one byte each. -/
def twoByteConfig : Config where
  server := { id := [115], typ := [98] }
  unmarshal
    | [typ, id] => .ok (some { id := [id], typ := [typ] })
    | _ => .error []

/-- At revision 1 a server "x" registers; at revision 2 "y" registers and "x" is gone. -/
def handover : History Bytes Bytes where
  txn
    | 1 => [(getKey [120] [98], some [98, 120])]
    | 2 => [(getKey [121] [98], some [98, 121]), (getKey [120] [98], none)]
    | _ => []
  start := rfl
  nodup := by
    intro r
    match r with
    | 0 | 1 | 2 => decide +kernel
    | _ + 3 => exact List.nodup_nil
  delete_present := by
    intro r k h
    match r, h with
    | 0, h => simp at h
    | 1, h =>
      obtain rfl : k = getKey [120] [98] := by simpa using h
      decide +kernel
    | _ + 2, h => cases h

theorem handover_puts {r : ℕ} {key value : Bytes} (h : (key, some value) ∈ handover.txn r) :
    ∃ id, parseEtcdKey key = .ok ([98], [id]) ∧
      parseServer twoByteConfig value = .ok (Server.fix { id := [id], typ := [98] }) := by
  match r, h with
  | 0, h => cases h
  | 1, h =>
    obtain ⟨rfl, rfl⟩ : key = getKey [120] [98] ∧ value = [98, 120] := by
      simpa [handover] using h
    exact ⟨120, rfl, rfl⟩
  | 2, h =>
    obtain ⟨rfl, rfl⟩ : key = getKey [121] [98] ∧ value = [98, 121] := by
      simpa [handover] using h
    exact ⟨121, rfl, rfl⟩
  | _ + 3, h => cases h

theorem handover_wellRegistered : WellRegistered twoByteConfig handover where
  puts _ _ _ hput := by
    obtain ⟨id, hkey, hvalue⟩ := handover_puts hput
    exact ⟨_, hkey, hvalue⟩
  oneType r r' key key' value value' typ typ' id hput hput' hparse hparse' := by
    obtain ⟨_, hkey, -⟩ := handover_puts hput
    obtain ⟨_, hkey', -⟩ := handover_puts hput'
    cases hkey.symm.trans hparse
    cases hkey'.symm.trans hparse'
    rfl

/-- The watch is opened at revision 1; a call of `SyncServers` reads revision 2 before the
watch delivers it, and another one reads revision 1 again. -/
def handoverOps : List Op :=
  [.resync (.ok ⟨1, [(getKey [120] [98], [98, 120])]⟩) [[120]] [[120]], .openWatch,
   .syncServers (.ok ⟨2, [(getKey [121] [98], [98, 121])]⟩) [[121]] [[121], [120]],
   .response 2 [⟨getKey [121] [98], some [98, 121], 2⟩, ⟨getKey [120] [98], none, 2⟩],
   .syncServers (.ok ⟨1, [(getKey [120] [98], [98, 120])]⟩) [[120]] [[120]],
   .response 2 [], .closeWatch, .syncServers (.error []) [] []]

/-- A snapshot that is ahead of the watch, and one that is behind. -/
theorem cache_exact_handover : ∃ s,
    (discovery twoByteConfig handover).run handoverOps = some s ∧
    (∀ sv, sv ∈ s.sd.getServers ↔ Visible twoByteConfig (handover.store 2) sv) ∧
    s.sd.appliedRevision = 2 ∧ s.sd.getServers = {Server.fix { id := [121], typ := [98] }} := by
  refine reaches_and (by decide +kernel) fun s hs ⟨hrevision, _⟩ => ?_
  have hexact := (cache_exact twoByteConfig handover handover_wellRegistered handoverOps s hs).2.1
  rwa [hrevision] at hexact

end Pitaya.Cluster
