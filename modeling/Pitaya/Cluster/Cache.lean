import Pitaya.Cluster.ServiceDiscovery

/-!
# The views of the cache

The service discovery keeps its servers by id, by type, and as the nodes of a consistent
hash for every type.

* `Indexed` — the three views agree, and `storeServerLocked` and `removeServerLocked` keep
  them so, also when an id comes back under another type.
* `loops_spec` — the two loops of `syncServersLocked` make the map by id the servers of
  the snapshot, in whichever order they visit.
-/

namespace Pitaya.Cluster

open Finmap Option Ranges

variable {cfg : Config}

namespace Discovery

/-! ## The views of the cache -/

/-- The server of an id, as the map by type has it. -/
def typed (sd : Discovery) (typ id : Bytes) : Option Server :=
  (sd.serverMapByType.lookup typ).bind fun m => m.lookup id

/-- The nodes of a consistent hash. -/
def nodes (sd : Discovery) (typ : Bytes) : Finset Bytes := (sd.consistentHash.lookup typ).getD ∅

/-- The views agree. -/
structure Indexed (cfg : Config) (sd : Discovery) : Prop where
  keyed : ∀ id sv, sd.serverMapByID.lookup id = some sv → sv.id = id
  byType : ∀ typ id sv,
    sd.typed typ id = some sv ↔ sd.serverMapByID.lookup id = some sv ∧ sv.typ = typ
  byNode : ∀ typ id, id ∈ sd.nodes typ ↔
    id ≠ cfg.server.id ∧ ∃ sv, sd.serverMapByID.lookup id = some sv ∧ sv.typ = typ

theorem indexed_start (cfg : Config) : Indexed cfg {} where
  keyed id sv h := by cases (lookup_empty id).symm.trans h
  byType typ id sv := by simp [typed]
  byNode typ id := by simp [nodes]

variable {sd : Discovery} {sv : Server}

theorem typed_remove (sd : Discovery) (sv : Server) (typ id : Bytes) :
    (sd.removeServerLocked sv).1.typed typ id
      = if typ = sv.typ ∧ id = sv.id then none else sd.typed typ id := by
  unfold typed removeServerLocked
  by_cases htyp : typ = sv.typ
  · subst htyp
    cases hlookup : sd.serverMapByType.lookup sv.typ with
    | none => simp [hlookup]
    | some =>
      by_cases hid : id = sv.id
      · subst hid; simp
      · simp [hid]
  · rw [if_neg fun h => htyp h.1]
    split
    · rfl
    · rw [lookup_insert_of_ne _ htyp]

theorem mem_nodes_remove (sd : Discovery) (sv : Server) (typ id : Bytes) :
    id ∈ (sd.removeServerLocked sv).1.nodes typ
      ↔ id ∈ sd.nodes typ ∧ ¬(typ = sv.typ ∧ id = sv.id) := by
  unfold nodes removeServerLocked
  dsimp only
  by_cases htyp : typ = sv.typ
  · subst htyp
    cases hlookup : sd.consistentHash.lookup sv.typ with
    | none => simp [hlookup]
    | some => simp [lookup_insert, and_comm]
  · have hother : ¬(typ = sv.typ ∧ id = sv.id) := fun h => htyp h.1
    rw [and_iff_left hother]
    split
    · rfl
    · rw [lookup_insert_of_ne _ htyp]

theorem typed_place (sd : Discovery) (sv : Server) (typ id : Bytes) :
    (sd.place cfg sv).typed typ id
      = if typ = sv.typ ∧ id = sv.id then some sv else sd.typed typ id := by
  unfold typed place
  dsimp only
  by_cases htyp : typ = sv.typ
  · subst htyp
    by_cases hid : id = sv.id
    · subst hid; simp
    · cases hlookup : sd.serverMapByType.lookup sv.typ with
      | none => simp [hid]
      | some => simp [hid]
  · rw [if_neg fun h => htyp h.1, lookup_insert_of_ne _ htyp]

theorem mem_nodes_place (sd : Discovery) (sv : Server) (typ id : Bytes) :
    id ∈ (sd.place cfg sv).nodes typ
      ↔ (id ≠ cfg.server.id ∧ typ = sv.typ ∧ id = sv.id) ∨ id ∈ sd.nodes typ := by
  unfold nodes place
  by_cases hself : sv.id = cfg.server.id
  · rw [if_neg (not_not.mpr hself)]
    constructor
    · exact .inr
    · rintro (⟨hne, -, rfl⟩ | h)
      · exact absurd hself hne
      · exact h
  · rw [if_pos hself]
    by_cases htyp : typ = sv.typ
    · subst htyp
      rw [lookup_insert, getD_some, Finset.mem_insert]
      constructor
      · rintro (rfl | h)
        · exact .inl ⟨hself, rfl, rfl⟩
        · exact .inr h
      · rintro (⟨-, -, rfl⟩ | h)
        · exact .inl rfl
        · exact .inr h
    · rw [lookup_insert_of_ne _ htyp]
      simp [htyp]

theorem Indexed.remove (h : Indexed cfg sd) (hsv : sd.serverMapByID.lookup sv.id = some sv) :
    Indexed cfg (sd.removeServerLocked sv).1 where
  keyed id sv' hlookup := by
    by_cases hid : id = sv.id
    · subst hid
      exact absurd (hlookup.symm.trans (lookup_erase _ _)) (by simp)
    · exact h.keyed id sv' ((lookup_erase_ne hid).symm.trans hlookup)
  byType typ id sv' := by
    rw [typed_remove]
    change _ ↔ (sd.serverMapByID.erase sv.id).lookup id = some sv' ∧ _
    by_cases hid : id = sv.id
    · subst hid
      rw [lookup_erase]
      refine iff_of_false (fun htyped => ?_) (fun hsome => by cases hsome.1)
      split at htyped
      · cases htyped
      · next hother =>
        obtain ⟨hlookup, rfl⟩ := (h.byType _ _ _).mp htyped
        obtain rfl := some.inj (hsv.symm.trans hlookup)
        exact hother ⟨rfl, rfl⟩
    · rw [if_neg fun hboth => hid hboth.2, lookup_erase_ne hid]
      exact h.byType typ id sv'
  byNode typ id := by
    rw [mem_nodes_remove, h.byNode]
    change _ ↔ _ ∧ ∃ sv', (sd.serverMapByID.erase sv.id).lookup id = some sv' ∧ _
    by_cases hid : id = sv.id
    · subst hid
      rw [lookup_erase]
      refine iff_of_false ?_ (fun hsome => by obtain ⟨-, sv', hlookup, -⟩ := hsome; cases hlookup)
      rintro ⟨⟨-, sv', hlookup, rfl⟩, hother⟩
      obtain rfl := some.inj (hsv.symm.trans hlookup)
      exact hother ⟨rfl, rfl⟩
    · have hother : ¬(typ = sv.typ ∧ id = sv.id) := fun hboth => hid hboth.2
      rw [and_iff_left hother, lookup_erase_ne hid]

theorem Indexed.place (h : Indexed cfg sd)
    (hsame : ∀ previous, sd.serverMapByID.lookup sv.id = some previous → previous.typ = sv.typ) :
    Indexed cfg (sd.place cfg sv) where
  keyed id sv' hlookup := by
    by_cases hid : id = sv.id
    · subst hid
      obtain rfl := some.inj ((lookup_insert _).symm.trans hlookup)
      rfl
    · exact h.keyed id sv' ((lookup_insert_of_ne _ hid).symm.trans hlookup)
  byType typ id sv' := by
    rw [typed_place]
    change _ ↔ (sd.serverMapByID.insert sv.id sv).lookup id = some sv' ∧ _
    by_cases hid : id = sv.id
    · subst hid
      rw [lookup_insert]
      split
      · next hboth =>
        refine ⟨fun heq => ?_, fun heq => heq.1⟩
        obtain rfl := some.inj heq
        exact ⟨rfl, hboth.1.symm⟩
      · next hother =>
        refine iff_of_false (fun htyped => ?_) (fun heq => ?_)
        · obtain ⟨hlookup, rfl⟩ := (h.byType _ _ _).mp htyped
          exact hother ⟨hsame sv' hlookup, rfl⟩
        · obtain ⟨heq, rfl⟩ := heq
          obtain rfl := some.inj heq
          exact hother ⟨rfl, rfl⟩
    · rw [if_neg fun hboth => hid hboth.2, lookup_insert_of_ne _ hid]
      exact h.byType typ id sv'
  byNode typ id := by
    rw [mem_nodes_place, h.byNode]
    change _ ↔ _ ∧ ∃ sv', (sd.serverMapByID.insert sv.id sv).lookup id = some sv' ∧ _
    by_cases hid : id = sv.id
    · subst hid
      rw [lookup_insert]
      constructor
      · rintro (⟨hself, rfl, -⟩ | ⟨hself, previous, hlookup, rfl⟩)
        · exact ⟨hself, sv, rfl, rfl⟩
        · exact ⟨hself, sv, rfl, (hsame previous hlookup).symm⟩
      · rintro ⟨hself, sv', heq, rfl⟩
        obtain rfl := some.inj heq
        exact .inl ⟨hself, rfl, rfl⟩
    · rw [lookup_insert_of_ne _ hid]
      simp [hid]

/-- After the first part of `storeServerLocked` the id is free, or has the type
already. -/
theorem Indexed.leaveType (h : Indexed cfg sd) (sv : Server) :
    Indexed cfg (sd.leaveType sv) ∧
      (∀ previous, (sd.leaveType sv).serverMapByID.lookup sv.id = some previous →
        previous.typ = sv.typ) ∧
      ∀ sv', (sd.leaveType sv).serverMapByID.insert sv.id sv'
        = sd.serverMapByID.insert sv.id sv' := by
  cases hlookup : sd.serverMapByID.lookup sv.id with
  | none =>
    have heq : sd.leaveType sv = sd := by rw [Discovery.leaveType, hlookup]
    rw [heq]
    refine ⟨h, fun previous hprevious => ?_, fun _ => rfl⟩
    rw [hlookup] at hprevious
    cases hprevious
  | some previous =>
    have hid : previous.id = sv.id := h.keyed _ _ hlookup
    by_cases htyp : previous.typ = sv.typ
    · have heq : sd.leaveType sv = sd := by
        rw [Discovery.leaveType, hlookup]
        exact if_neg (not_not.mpr htyp)
      rw [heq]
      refine ⟨h, fun previous' hprevious' => ?_, fun _ => rfl⟩
      rw [hlookup] at hprevious'
      obtain rfl := some.inj hprevious'
      exact htyp
    · have heq : sd.leaveType sv = (sd.removeServerLocked previous).1 := by
        rw [Discovery.leaveType, hlookup]
        exact if_pos htyp
      have herase : (sd.removeServerLocked previous).1.serverMapByID
          = sd.serverMapByID.erase sv.id := by rw [← hid]; rfl
      rw [heq, herase]
      refine ⟨h.remove (by rw [hid]; exact hlookup), fun previous' hprevious' => ?_, fun sv' => ?_⟩
      · rw [lookup_erase] at hprevious'
        cases hprevious'
      · exact insert_erase_self

theorem Indexed.store (h : Indexed cfg sd) (sv : Server) :
    Indexed cfg (sd.storeServerLocked cfg sv).1 :=
  (h.leaveType sv).1.place (h.leaveType sv).2.1

theorem store_serverMapByID (h : Indexed cfg sd) (sv : Server) :
    (sd.storeServerLocked cfg sv).1.serverMapByID = sd.serverMapByID.insert sv.id sv :=
  (h.leaveType sv).2.2 sv

theorem leaveType_frame (sd : Discovery) (sv : Server) :
    (sd.leaveType sv).notified = sd.notified ∧ (sd.leaveType sv).cancelled = sd.cancelled := by
  unfold leaveType
  split
  · exact ⟨rfl, rfl⟩
  · split <;> exact ⟨rfl, rfl⟩

/-! ## The context

The cache does not depend on `cancelled`. -/

variable (cancelled : Bool)

theorem leaveType_cancelled (sd : Discovery) (sv : Server) :
    leaveType { sd with cancelled } sv = { sd.leaveType sv with cancelled } := by
  unfold leaveType
  dsimp only
  split
  · rfl
  · split <;> rfl

variable (servers : Finmap fun _ : Bytes => Server)

theorem storeVisit_cancelled (sd : Discovery) (changes : List ServerChange) (id : Bytes) :
    storeVisit cfg servers ({ sd with cancelled }, changes) id
      = ({ (storeVisit cfg servers (sd, changes) id).1 with cancelled },
          (storeVisit cfg servers (sd, changes) id).2) := by
  unfold storeVisit
  dsimp only
  split
  · rfl
  · split
    · rfl
    · rw [storeServerLocked, leaveType_cancelled]
      rfl

theorem storeVisit_keeps (sd : Discovery) (changes : List ServerChange) (id : Bytes) :
    (storeVisit cfg servers (sd, changes) id).1.cancelled = sd.cancelled :=
  congrArg (fun st => st.1.cancelled) (storeVisit_cancelled sd.cancelled servers sd changes id)

theorem removeVisit_cancelled (sd : Discovery) (changes : List ServerChange) (id : Bytes) :
    removeVisit servers ({ sd with cancelled }, changes) id
      = ({ (removeVisit servers (sd, changes) id).1 with cancelled },
          (removeVisit servers (sd, changes) id).2) := by
  unfold removeVisit
  dsimp only
  split
  · rfl
  · split <;> rfl

theorem removeVisit_keeps (sd : Discovery) (changes : List ServerChange) (id : Bytes) :
    (removeVisit servers (sd, changes) id).1.cancelled = sd.cancelled :=
  congrArg (fun st => st.1.cancelled) (removeVisit_cancelled sd.cancelled servers sd changes id)

theorem watchVisit_cancelled (boundary : ℕ) (sd : Discovery) (revision : ℕ)
    (changes : List ServerChange) (e : Revisions.Event Bytes Bytes) :
    watchVisit cfg boundary ⟨{ sd with cancelled }, revision, changes⟩ e
      = { watchVisit cfg boundary ⟨sd, revision, changes⟩ e with
          sd := { (watchVisit cfg boundary ⟨sd, revision, changes⟩ e).sd with cancelled } } := by
  unfold watchVisit applyEvent
  dsimp only
  split
  · rfl
  · split
    · rfl
    · split
      · rfl
      · split
        · split
          · rfl
          · rw [storeServerLocked, leaveType_cancelled]
            rfl
        · split <;> rfl

theorem watchVisit_keeps (boundary : ℕ) (b : Batch) (e : Revisions.Event Bytes Bytes) :
    (watchVisit cfg boundary b e).sd.cancelled = b.sd.cancelled :=
  congrArg (fun b => b.sd.cancelled)
    (watchVisit_cancelled b.sd.cancelled boundary b.sd b.revision b.changes e)

/-! ## Snapshots -/

variable {servers : Finmap fun _ : Bytes => Server} {st : Discovery × List ServerChange}

/-- The chosen ids have got the servers that `value` gives them. -/
def Sets (cfg : Config) (chosen : Bytes → Prop) [DecidablePred chosen]
    (value : Bytes → Option Server) (st st' : Discovery × List ServerChange) : Prop :=
  Indexed cfg st'.1 ∧ ∀ id, st'.1.serverMapByID.lookup id =
    if chosen id then value id else st.1.serverMapByID.lookup id

/-- A loop, each of whose visits may set the server of its id. -/
theorem Sets.foldl {visit : Discovery × List ServerChange → Bytes → _} {P : Bytes → Prop}
    [DecidablePred P] {value : Bytes → Option Server} (hvisit : ∀ st, Indexed cfg st.1 → ∀ id,
      Sets cfg (fun id' => id' = id ∧ P id') value st (visit st id))
    (st : Discovery × List ServerChange) (h : Indexed cfg st.1) (ids : List Bytes) :
    Sets cfg (fun id => id ∈ ids ∧ P id) value st (ids.foldl visit st) := by
  induction ids generalizing st with
  | nil => exact ⟨h, fun id' => (if_neg fun hin => by cases hin.1).symm⟩
  | cons id ids ih =>
    obtain ⟨hindexed, hlookup⟩ := hvisit st h id
    obtain ⟨hindexed', hlookup'⟩ := ih _ hindexed
    refine ⟨hindexed', fun id' => ?_⟩
    rw [List.foldl_cons, hlookup', hlookup]
    by_cases hid : id' = id
    · subst hid
      by_cases hP : P id' <;> simp [hP]
    · simp [hid]

theorem storeVisit_spec (keyed : ∀ id sv, servers.lookup id = some sv → sv.id = id)
    (h : Indexed cfg st.1) (id : Bytes) :
    Sets cfg (fun id' => id' = id ∧ (servers.lookup id').isSome) servers.lookup st
      (storeVisit cfg servers st id) := by
  unfold storeVisit
  split
  · next hnone =>
    refine ⟨h, fun id' => (if_neg ?_).symm⟩
    rintro ⟨rfl, hsome⟩
    rw [hnone] at hsome
    cases hsome
  · next sv hsv =>
    split
    · next hsame =>
      refine ⟨h, fun id' => ?_⟩
      split
      · next hid =>
        obtain ⟨rfl, -⟩ := hid
        exact hsame.trans hsv.symm
      · rfl
    · refine ⟨h.store sv, fun id' => ?_⟩
      dsimp only
      rw [store_serverMapByID h, keyed id sv hsv]
      by_cases hid : id' = id
      · subst hid
        rw [lookup_insert, if_pos ⟨rfl, by rw [hsv]; rfl⟩]
        exact hsv.symm
      · rw [lookup_insert_of_ne _ hid, if_neg fun hboth => hid hboth.1]

/-- One visit of the removing loop: an id that is not in the snapshot is gone. -/
theorem removeVisit_spec (h : Indexed cfg st.1) (id : Bytes) :
    Sets cfg (fun id' => id' = id ∧ servers.lookup id' = none) (fun _ => none) st
      (removeVisit servers st id) := by
  unfold removeVisit
  split
  · next hnone =>
    refine ⟨h, fun id' => ?_⟩
    split
    · next hid =>
      obtain ⟨rfl, -⟩ := hid
      exact hnone
    · rfl
  · next value hvalue =>
    have hkey : value.id = id := h.keyed id value hvalue
    split
    · next hsome =>
      refine ⟨h, fun id' => (if_neg ?_).symm⟩
      rintro ⟨rfl, hnone⟩
      rw [hnone] at hsome
      cases hsome
    · next hnone =>
      refine ⟨h.remove (by rw [hkey]; exact hvalue), fun id' => ?_⟩
      change (st.1.serverMapByID.erase value.id).lookup id' = _
      rw [hkey]
      by_cases hid : id' = id
      · subst hid
        rw [lookup_erase, if_pos ⟨rfl, by simpa using hnone⟩]
      · rw [lookup_erase_ne hid, if_neg fun hboth => hid hboth.1]

/-- **The two loops make the cache the snapshot.** -/
theorem loops_spec {sd : Discovery} {stores removes : List Bytes} (h : Indexed cfg sd)
    (keyed : ∀ id sv, servers.lookup id = some sv → sv.id = id)
    (hstores : VisitsKeys servers stores)
    (hremoves : VisitsKeys (stores.foldl (storeVisit cfg servers) (sd, [])).1.serverMapByID
      removes) :
    Indexed cfg
        (removes.foldl (removeVisit servers) (stores.foldl (storeVisit cfg servers) (sd, []))).1 ∧
      (removes.foldl (removeVisit servers)
        (stores.foldl (storeVisit cfg servers) (sd, []))).1.serverMapByID = servers := by
  obtain ⟨hstored, hlookup⟩ :=
    Sets.foldl (fun _ h id => storeVisit_spec keyed h id) (sd, []) h stores
  obtain ⟨hremoved, hlookup'⟩ :=
    Sets.foldl (fun _ h id => removeVisit_spec h id) _ hstored removes
  refine ⟨hremoved, ext_lookup fun id => ?_⟩
  simp only [hlookup', hremoves.mem_iff, hlookup, hstores.mem_iff]
  cases hserver : servers.lookup id with
  | some => simp
  | none => cases hbefore : sd.serverMapByID.lookup id <;> simp

end Discovery

theorem getServer_eq_ok {sd : Discovery} {id : Bytes} {sv : Server} :
    sd.getServer id = .ok sv ↔ sd.serverMapByID.lookup id = some sv := by
  unfold Discovery.getServer
  cases sd.serverMapByID.lookup id <;> simp

theorem getServersByType_lookup {sd : Discovery} {typ id : Bytes} {sv : Server} :
    (∃ m, sd.getServersByType typ = .ok m ∧ m.lookup id = some sv) ↔ sd.typed typ id = some sv := by
  unfold Discovery.getServersByType Discovery.typed
  cases sd.serverMapByType.lookup typ with
  | none => simp
  | some m =>
    dsimp only
    constructor
    · rintro ⟨m', hm', hlookup⟩
      split at hm'
      · cases hm'
        exact hlookup
      · cases hm'
    · intro hlookup
      have hpos : 0 < m.size := by
        refine Nat.pos_of_ne_zero fun hzero => ?_
        exact size_eq_zero_iff.mp hzero id (mem_of_lookup_eq_some hlookup)
      exact ⟨m, if_pos hpos, hlookup⟩

end Pitaya.Cluster
