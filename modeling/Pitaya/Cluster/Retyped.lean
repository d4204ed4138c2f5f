import Pitaya.Cluster.Reconcile
import Pitaya.Foundations.Latest

/-!
# Servers that change their type

An id may be registered under several types, one key each: the key of the new type is put
before, after or together with the deletion of the old one.  The watch applies a deletion
to whatever server has the id.

* `watching` — the responses of a watch from the beginning of a history, cut anywhere
  between transactions.
-/

namespace Pitaya.Cluster

open Revisions Transition Finmap List Option Discovery History

variable {cfg : Config} {etcd : History Bytes Bytes}

/-- The id in a key `servers/*/id`. -/
def keyID (key : Bytes) : Option Bytes :=
  match parseEtcdKey key with
  | .ok (_, id) => some id
  | .error _ => none

/-- Every value is well formed and matches its key, and no type is blacklisted. -/
structure WellFormed (cfg : Config) (etcd : History Bytes Bytes) : Prop where
  puts : ∀ r key value, (key, some value) ∈ etcd.txn r →
    ∃ sv, parseEtcdKey key = .ok (sv.typ, sv.id) ∧ parseServer cfg value = .ok sv
  shown : cfg.serverTypesBlacklist = []

/-- The responses of a watch, each with the changes after the last one up to some
revision. -/
def watching (cfg : Config) (etcd : History Bytes Bytes) : System (Discovery × ℕ) ℕ where
  start := ({}, 0)
  step s upTo :=
    if s.2 ≤ upTo then some (s.1.applyWatchResponse cfg (etcd.between s.2 upTo), upTo) else none

/-- The server a value registers. -/
def registration (cfg : Config) (value : Bytes) : Option Server := (parseServer cfg value).toOption

theorem WellFormed.hidden (h : WellFormed cfg etcd) (typ id : Bytes) :
    hidden cfg typ id = false := by
  rw [hidden_eq_false, h.shown]
  exact fun hin => by cases hin.1

/-! ## The watch -/

namespace Discovery

theorem applyEvent_latest (h : WellFormed cfg etcd) {b : Batch} (hindexed : Indexed cfg b.sd)
    {e : Event Bytes Bytes} (he : etcd.Has e) :
    Indexed cfg (applyEvent cfg b e).sd ∧ ∀ id,
      (applyEvent cfg b e).sd.serverMapByID.lookup id
        = if keyID e.key = some id then e.change.bind (registration cfg)
          else b.sd.serverMapByID.lookup id := by
  obtain ⟨r, value₀, hput⟩ := he.put
  obtain ⟨sv₀, hkey, -⟩ := h.puts r _ _ hput
  have hnamed (id : Bytes) : keyID e.key = some id ↔ id = sv₀.id := by
    rw [keyID, hkey, some.injEq, eq_comm]
  have puts (value : Bytes) (hchange : e.change = some value) :=
    h.puts e.modRevision e.key value (hchange ▸ he)
  have hregisters : (e.change.bind fun value => readVisible cfg (e.key, value)) =
      e.change.bind (registration cfg) := by
    cases hchange : e.change with
    | none => rfl
    | some value =>
      obtain ⟨sv, hkey', hparse⟩ := puts value hchange
      rw [bind_some, bind_some, registration, hparse]
      exact readVisible_eq_some.mpr ⟨hkey', hparse, h.hidden sv.typ sv.id⟩
  simp only [hnamed, ← hregisters]
  exact applyEvent_shown hindexed hkey (h.hidden sv₀.typ sv₀.id) puts

theorem foldl_watchVisit_latest (h : WellFormed cfg etcd) {boundary : ℕ}
    {es : List (Event Bytes Bytes)} (genuine : ∀ e ∈ es, etcd.Has e ∧ boundary < e.modRevision)
    {b : Batch} (hindexed : Indexed cfg b.sd) :
    Indexed cfg (es.foldl (watchVisit cfg boundary) b).sd ∧ ∀ id,
      (es.foldl (watchVisit cfg boundary) b).sd.serverMapByID.lookup id
        = Log.latest (fun e : Event Bytes Bytes => keyID e.key = some id)
            (fun e => e.change.bind (registration cfg)) (b.sd.serverMapByID.lookup id) es := by
  induction es generalizing b with
  | nil => exact ⟨hindexed, fun _ => rfl⟩
  | cons e es ih =>
    obtain ⟨he, hfresh⟩ := genuine e mem_cons_self
    obtain ⟨hindexed', hlookup⟩ := @applyEvent_latest cfg etcd h
      { b with revision := max b.revision e.modRevision } hindexed e he
    obtain ⟨hrest, hlookup'⟩ := ih (fun e' he' => genuine e' (mem_cons_of_mem e he'))
      hindexed'
    rw [foldl_cons, watchVisit, if_neg (not_le.mpr hfresh)]
    refine ⟨hrest, fun id => ?_⟩
    rw [hlookup', hlookup, Log.latest_cons]

theorem foldl_watchVisit_cancelled (boundary : ℕ) (b : Batch) (es : List (Event Bytes Bytes)) :
    (es.foldl (watchVisit cfg boundary) b).sd.cancelled = b.sd.cancelled := by
  refine foldlRecOn (motive := fun b' : Batch => b'.sd.cancelled = b.sd.cancelled) es _ rfl ?_
  intro b' hb' e _
  exact (watchVisit_keeps boundary b' e).trans hb'

end Discovery

/-- **The last event of an id decides**: what the cache has after the responses of a watch
up to revision `r`. -/
theorem cached_latest (h : WellFormed cfg etcd) {cuts : List ℕ} {s : Discovery × ℕ}
    (hrun : (watching cfg etcd).run cuts = some s) :
    s.1.Indexed cfg ∧ s.1.cancelled = false ∧ s.1.appliedRevision ≤ s.2 ∧ ∀ id,
      s.1.serverMapByID.lookup id
        = Log.latest (fun e : Event Bytes Bytes => keyID e.key = some id)
            (fun e => e.change.bind (registration cfg)) none (etcd.between 0 s.2) := by
  apply System.run_induction ?_ ?_ hrun
  · exact ⟨indexed_start cfg, rfl, le_rfl, fun _ => rfl⟩
  · rintro _ upTo ⟨sd, pos⟩ s' - ⟨hindexed, hactive, happlied, hlatest⟩ hstep
    obtain ⟨hahead, ⟨⟩⟩ := ite_none_right_eq_some.mp hstep
    dsimp only at hahead hindexed hactive happlied hlatest ⊢
    have genuine : ∀ e ∈ etcd.between pos upTo,
        etcd.Has e ∧ sd.appliedRevision < e.modRevision := fun e he =>
      ⟨(mem_between.mp he).1, happlied.trans_lt (mem_between.mp he).2.1⟩
    obtain ⟨hindexed', hlookup⟩ := @foldl_watchVisit_latest cfg etcd h
      sd.appliedRevision (etcd.between pos upTo) genuine ⟨sd, sd.appliedRevision, []⟩ hindexed
    rw [applyWatchResponse, hactive]
    refine ⟨⟨hindexed'.keyed, hindexed'.byType, hindexed'.byNode⟩, ?_, ?_, fun id => ?_⟩
    · exact (foldl_watchVisit_cancelled _ _ _).trans hactive
    · refine (@foldl_watchVisit_revision cfg sd.appliedRevision
        ⟨sd, sd.appliedRevision, []⟩ le_rfl (etcd.between pos upTo)).trans_le ?_
      exact newest_le (happlied.trans hahead) fun e he => (mem_between.mp he).2.2
    · refine (hlookup id).trans ?_
      dsimp only
      rw [hlatest, ← Log.latest_append, ← between_append (Nat.zero_le pos) hahead]

section

variable {cuts : List ℕ} {sd : Discovery} {r : ℕ} {id : Bytes}

theorem cached_of_untouched (h : WellFormed cfg etcd)
    (hrun : (watching cfg etcd).run cuts = some (sd, r))
    (hnone : ∀ e ∈ etcd.between 0 r, ¬keyID e.key = some id) :
    sd.serverMapByID.lookup id = none := by
  rw [(cached_latest h hrun).2.2.2 id, Log.latest_of_forall_not hnone]

theorem cached_of_last (h : WellFormed cfg etcd)
    (hrun : (watching cfg etcd).run cuts = some (sd, r))
    {before after : List (Event Bytes Bytes)} {e : Event Bytes Bytes}
    (hsplit : etcd.between 0 r = before ++ e :: after) (hkey : keyID e.key = some id)
    (hafter : ∀ e' ∈ after, keyID e'.key ≠ some id) :
    sd.serverMapByID.lookup id = e.change.bind (registration cfg) := by
  rw [(cached_latest h hrun).2.2.2 id, hsplit]
  exact Log.latest_of_split (p := fun e : Event Bytes Bytes => keyID e.key = some id) hkey
    hafter none

end

/-! ## Snapshots -/

/-- What a snapshot is read as when its values are well formed: for every id, the last of
its keys. -/
theorem readSnapshot_latest (h : WellFormed cfg etcd) (sd : Discovery)
    {kvs : List (Bytes × Bytes)} (hput : ∀ kv ∈ kvs, ∃ r, (kv.1, some kv.2) ∈ etcd.txn r) :
    ∀ id, (Discovery.readSnapshot cfg sd kvs).lookup id
      = Log.latest (fun kv : Bytes × Bytes => keyID kv.1 = some id)
          (fun kv => registration cfg kv.2) none kvs := by
  induction kvs using reverseRecOn with
  | nil => exact fun id => lookup_empty id
  | append_singleton kvs kv ih =>
    intro id
    have ih := ih fun kv' hkv' => hput kv' (mem_append_left _ hkv')
    obtain ⟨r, hr⟩ := hput kv (mem_append_right _ mem_cons_self)
    obtain ⟨sv, hkey, hparse⟩ := h.puts r kv.1 kv.2 hr
    have hread : readRegistration cfg kv.1 sv.typ sv.id kv.2 = .ok sv :=
      readRegistration_eq_ok.mpr ⟨hparse, rfl, rfl⟩
    rw [readSnapshot, foldl_append, Log.latest_append, ← ih id]
    change (readKv cfg sd (readSnapshot cfg sd kvs) kv).lookup id = _
    have hkv : readKv cfg sd (readSnapshot cfg sd kvs) kv
        = (readSnapshot cfg sd kvs).insert sv.id sv := by
      simp [readKv, hkey, h.hidden, hread]
    have hnamed : keyID kv.1 = some id ↔ id = sv.id := by
      rw [keyID, hkey, some.injEq, eq_comm]
    rw [hkv, Log.latest_cons]
    by_cases hid : id = sv.id
    · rw [if_pos (hnamed.mpr hid), hid, lookup_insert, registration, hparse]
      rfl
    · rw [if_neg fun hsame => hid (hnamed.mp hsame), lookup_insert_of_ne _ hid]
      rfl

/-- A key that is the only one of its id is what a snapshot reads for the id. -/
theorem readSnapshot_of_only (h : WellFormed cfg etcd) {snapshot : Discovery.Snapshot}
    (answers : Answers etcd (.ok snapshot)) (sd : Discovery) {key value id : Bytes}
    (hlookup : (etcd.store snapshot.revision).lookup key = some value) (hkey : keyID key = some id)
    (honly : ∀ key' ∈ etcd.store snapshot.revision, keyID key' = some id → key' = key) :
    (Discovery.readSnapshot cfg sd snapshot.kvs).lookup id = registration cfg value := by
  have hmem (kv : Bytes × Bytes) : kv ∈ snapshot.kvs ↔ _ := mem_kvs answers
  rw [readSnapshot_latest h sd fun kv hkv => put_of_lookup ((hmem kv).mp hkv)]
  have hin : (key, value) ∈ snapshot.kvs := (hmem _).mpr hlookup
  rcases Log.exists_last (fun kv : Bytes × Bytes => keyID kv.1 = some id) snapshot.kvs with
    hnone | ⟨before, kv, after, hsplit, hkv, hafter⟩
  · exact absurd hkey (hnone _ hin)
  · have hstored : (etcd.store snapshot.revision).lookup kv.1 = some kv.2 :=
      (hmem kv).mp (by rw [hsplit]; exact mem_append_right _ mem_cons_self)
    have hsame := honly kv.1 (mem_of_lookup_eq_some hstored) hkv
    rw [hsplit, Log.latest_of_split (p := fun kv : Bytes × Bytes => keyID kv.1 = some id) hkv
      hafter]
    rw [hsame, hlookup] at hstored
    rw [some.inj hstored]

/-! ## Watch and snapshot -/

theorem store_eq_replay (etcd : History Bytes Bytes) (r : ℕ) :
    etcd.store r = replay ∅ (etcd.between 0 r) :=
  store_eq_replay_between (Nat.zero_le r)

theorem lookup_of_last {r : ℕ} {before after : List (Event Bytes Bytes)} {e : Event Bytes Bytes}
    (hsplit : etcd.between 0 r = before ++ e :: after)
    (hafter : ∀ e' ∈ after, keyID e'.key ≠ keyID e.key) :
    (etcd.store r).lookup e.key = e.change := by
  rw [store_eq_replay, hsplit, replay_append]
  change (replay (e.apply _) after).lookup e.key = _
  rw [lookup_replay_of_untouched _ fun e' he' hkey => hafter e' he' (by rw [hkey]),
    Event.lookup_apply_self]

section

variable {sd : Discovery} {r : ℕ} {id : Bytes}

/-- What `GetServer` shows of an id is what etcd has at revision `r`: it knows the id exactly if
one of its keys exists, and the server of the key if there is only one, as a first snapshot of the
same store would. -/
def RightAbout (cfg : Config) (etcd : History Bytes Bytes) (sd : Discovery) (r : ℕ) (id : Bytes) :
    Prop :=
  ((∃ sv, sd.getServer id = .ok sv) ↔ ∃ key ∈ etcd.store r, keyID key = some id) ∧
  ∀ key value, (etcd.store r).lookup key = some value → keyID key = some id →
    (∀ key' ∈ etcd.store r, keyID key' = some id → key' = key) →
    ∃ sv, parseServer cfg value = .ok sv ∧ sd.getServer id = .ok sv ∧
      ∀ kvs stores removes fresh result, Answers etcd (.ok ⟨r, kvs⟩) →
        ({} : Discovery).syncServersLocked cfg (.ok ⟨r, kvs⟩) stores removes
          = some (fresh, result) → fresh.getServer id = .ok sv

theorem RightAbout.of_absent (hcached : sd.serverMapByID.lookup id = none)
    (hstored : ∀ key ∈ etcd.store r, keyID key ≠ some id) : RightAbout cfg etcd sd r id := by
  refine ⟨iff_of_false ?_ ?_, fun key value hvalue hname _ => ?_⟩
  · rintro ⟨sv, hsv⟩
    rw [getServer_eq_ok, hcached] at hsv
    cases hsv
  · rintro ⟨key, hin, hname⟩
    exact hstored key hin hname
  · exact absurd hname (hstored key (mem_of_lookup_eq_some hvalue))

theorem not_stored_of_untouched (hnone : ∀ e ∈ etcd.between 0 r, ¬keyID e.key = some id) :
    ∀ key ∈ etcd.store r, keyID key ≠ some id := by
  intro key hin hname
  obtain ⟨value, hvalue⟩ := mem_iff.mp hin
  rw [store_eq_replay] at hvalue
  rcases lookup_replay_eq_some hvalue with ⟨e, he, rfl, -⟩ | hempty
  · exact hnone e he hname
  · cases (lookup_empty key).symm.trans hempty

/-- The last event of the id is a registration, which both the cache and etcd have. -/
theorem RightAbout.of_put (h : WellFormed cfg etcd) {cuts : List ℕ}
    (hrun : (watching cfg etcd).run cuts = some (sd, r))
    {before after : List (Event Bytes Bytes)} {e : Event Bytes Bytes} {value₀ : Bytes}
    (hsplit : etcd.between 0 r = before ++ e :: after) (hkey : keyID e.key = some id)
    (hafter : ∀ e' ∈ after, keyID e'.key ≠ some id) (hchange : e.change = some value₀) :
    RightAbout cfg etcd sd r id := by
  have he : e ∈ etcd.between 0 r := by
    rw [hsplit]
    exact mem_append_right _ mem_cons_self
  have hput : (e.key, some value₀) ∈ etcd.txn e.modRevision :=
    hchange ▸ (mem_between.mp he).1
  obtain ⟨sv, -, hparse⟩ := h.puts _ _ _ hput
  have hregistered : registration cfg value₀ = some sv := by
    rw [registration, hparse]
    rfl
  have hsv : sd.getServer id = .ok sv := by
    rw [getServer_eq_ok, cached_of_last h hrun hsplit hkey hafter, hchange, bind_some, hregistered]
  have hstore : (etcd.store r).lookup e.key = some value₀ := by
    rw [lookup_of_last hsplit (by rw [hkey]; exact hafter), hchange]
  have hin := mem_of_lookup_eq_some hstore
  refine ⟨iff_of_true ⟨sv, hsv⟩ ⟨e.key, hin, hkey⟩, fun key value hvalue hname honly => ?_⟩
  have hsame := honly e.key hin hkey
  rw [← hsame, hstore] at hvalue
  obtain rfl := some.inj hvalue
  refine ⟨sv, hparse, hsv, fun kvs stores removes fresh result answers hsync => ?_⟩
  have hfresh : fresh.serverMapByID = readSnapshot cfg {} kvs :=
    syncServersLocked_serverMapByID (indexed_start cfg) rfl (Nat.zero_le r) hsync
  have hread := @readSnapshot_of_only cfg etcd h ⟨r, kvs⟩ answers {} e.key value₀ id hstore hkey
    (by rw [hsame]; exact honly)
  rw [getServer_eq_ok, hfresh, hread, hregistered]

end

/-- **The cache when servers change their type.**  After the watch has delivered the history
up to revision `r`, `GetServer` is right about every id if and only if no id has a key left after a
last event that deleted another one. -/
theorem retyped_cache (cfg : Config) (etcd : History Bytes Bytes) (h : WellFormed cfg etcd)
    (cuts : List ℕ) (sd : Discovery) (r : ℕ) (hrun : (watching cfg etcd).run cuts = some (sd, r)) :
    (∀ id, RightAbout cfg etcd sd r id) ↔
    ∀ id before e after, etcd.between 0 r = before ++ e :: after → keyID e.key = some id →
      (∀ e' ∈ after, keyID e'.key ≠ some id) → e.change = none →
        ∀ key ∈ etcd.store r, keyID key ≠ some id := by
  constructor
  · -- a deletion that leaves a key behind makes the cache forget the id
    intro hright id before e after hsplit hkey hafter hdelete key hin hname
    obtain ⟨sv, hsv⟩ := (hright id).1.mpr ⟨key, hin, hname⟩
    rw [getServer_eq_ok, cached_of_last h hrun hsplit hkey hafter, hdelete] at hsv
    cases hsv
  · -- the last event of the id decides, for the cache and for etcd
    intro hclean id
    rcases Log.exists_last (fun e : Event Bytes Bytes => keyID e.key = some id)
      (etcd.between 0 r) with hnone | ⟨before, e, after, hsplit, hkey, hafter⟩
    · exact RightAbout.of_absent (cached_of_untouched h hrun hnone) (not_stored_of_untouched hnone)
    · cases hchange : e.change with
      | none =>
        have hcached := cached_of_last h hrun hsplit hkey hafter
        rw [hchange, Option.bind_none] at hcached
        exact RightAbout.of_absent hcached (hclean id before e after hsplit hkey hafter hchange)
      | some => exact RightAbout.of_put h hrun hsplit hkey hafter hchange

/-- A server "x" of type "a" registers as "b" before its old key is deleted. -/
def retyped : History Bytes Bytes where
  txn
    | 1 => [(getKey [120] [97], some [97, 120])]
    | 2 => [(getKey [120] [98], some [98, 120])]
    | 3 => [(getKey [120] [97], none)]
    | _ => []
  start := rfl
  nodup := by
    intro r
    match r with
    | 0 | 1 | 2 | 3 => decide +kernel
    | _ + 4 => exact List.nodup_nil
  delete_present := by
    intro r k h
    match r, h with
    | 0, h => simp at h
    | 1, h => simp at h
    | 2, h =>
      obtain rfl : k = getKey [120] [97] := by simpa using h
      decide +kernel
    | _ + 3, h => cases h

theorem retyped_wellFormed : WellFormed twoByteConfig retyped where
  puts r key value hput := by
    match r, hput with
    | 0, hput => cases hput
    | 1, hput =>
      obtain ⟨rfl, rfl⟩ : key = getKey [120] [97] ∧ value = [97, 120] := by
        simpa [retyped] using hput
      exact ⟨Server.fix { id := [120], typ := [97] }, rfl, rfl⟩
    | 2, hput =>
      obtain ⟨rfl, rfl⟩ : key = getKey [120] [98] ∧ value = [98, 120] := by
        simpa [retyped] using hput
      exact ⟨Server.fix { id := [120], typ := [98] }, rfl, rfl⟩
    | 3, hput => simp [retyped] at hput
    | _ + 4, hput => cases hput
  shown := rfl

/-- The deletion of the old key takes the server out of the cache, although the new key is
there. -/
theorem retyped_lost : WellFormed twoByteConfig retyped ∧
    ∃ sd, (watching twoByteConfig retyped).run [1, 2, 3] = some (sd, 3) ∧
      keyID (getKey [120] [98]) = some [120] ∧
      (retyped.store 3).lookup (getKey [120] [98]) = some [98, 120] ∧
      sd.getServer [120] = .error (.noServerWithID [120]) := by
  obtain ⟨⟨sd, r⟩, hsd, rfl, hlost⟩ : ∃ s, (watching twoByteConfig retyped).run [1, 2, 3] = some s ∧
      s.2 = 3 ∧ s.1.getServer [120] = .error (.noServerWithID [120]) := by
    decide +kernel
  exact ⟨retyped_wellFormed, sd, hsd, by decide +kernel, by decide +kernel, hlost⟩

/-- Before the deletion both keys are there, and the cache has the server. -/
theorem retyped_cache_before : ∃ sd,
    (watching twoByteConfig retyped).run [1, 2] = some (sd, 2) ∧
      ∃ sv, sd.getServer [120] = .ok sv := by
  obtain ⟨⟨sd, r⟩, hsd, htest⟩ : ∃ s, (watching twoByteConfig retyped).run [1, 2] = some s ∧
      s.2 = 2 := by
    decide +kernel
  obtain rfl : r = 2 := htest
  have hputs : ∀ e ∈ retyped.between 0 2, e.change ≠ none := by decide +kernel
  have hcache := (retyped_cache twoByteConfig retyped retyped_wellFormed [1, 2] sd 2 hsd).mpr
    fun id before e after hsplit _ _ hdelete =>
      absurd hdelete (hputs e (by rw [hsplit]; exact List.mem_append_right _ List.mem_cons_self))
  refine ⟨sd, hsd, (hcache [120]).1.mpr ⟨getKey [120] [98], ?_, ?_⟩⟩
  · decide +kernel
  · decide +kernel

end Pitaya.Cluster
