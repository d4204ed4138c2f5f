import Pitaya.Cluster.Reconcile

/-!
# Updates of the cache and what the listeners hear of them

Snapshots and watch responses in any sequence, whatever etcd answers: the values may be
malformed, an id may move between types, and the own server is one of them.

* `reconciler` — the updates of the cache.  `indexes_agree`: after every sequence of them
  the map by id, the map by type and the consistent hashes agree.
* `registry` — the servers a listener knows.  A change fits what is known, or the step is
  not possible: `ADD` is for an unknown id, `DEL` and `Modify` are for a known one.
* `Commits` — the changes collected by an update are a run of the registry, from the cache
  before the update to the cache after it.
* `Delivery` — `notifyChanges` one callback at a time, while listeners register.
  `reconcileMu` is held until the last callback has returned, so the next update waits.
-/

namespace Pitaya.Cluster

open Revisions Transition Finmap List System

/-! ## Updates -/

/-- What changes the cache: a call of `SyncServers`, a response of the watch, and
`Shutdown`, which stops both. -/
inductive Update where
  | syncServers (reply : Except Bytes Discovery.Snapshot) (stores removes : List Bytes)
  | watchResponse (events : List (Event Bytes Bytes))
  | cancel

namespace Discovery

/-- One update. -/
def update (cfg : Config) (sd : Discovery) : Update → Option Discovery
  | .syncServers reply stores removes =>
    (sd.syncServersLocked cfg reply stores removes).map fun r => r.1
  | .watchResponse events => some (sd.applyWatchResponse cfg events)
  | .cancel => some { sd with cancelled := true }

/-- Why `GetConsistentHashNode` has no node: `ErrServerNotFound` with the type and the
session. -/
structure NodeNotFound where
  serverType : Bytes
  sessionID : Bytes
  deriving DecidableEq, Repr

/-- `GetConsistentHashNode`, where the ring of the type, if there is one, answers
`node`. -/
def getConsistentHashNode (sd : Discovery) (serverType sessionID : Bytes)
    (node : Option Bytes) : Except NodeNotFound Bytes :=
  match sd.consistentHash.lookup serverType with
  | none => .error ⟨serverType, sessionID⟩
  | some _ =>
    match node with
    | none => .error ⟨serverType, sessionID⟩
    | some id => .ok id

end Discovery

/-- All sequences of updates. -/
def reconciler (cfg : Config) : System Discovery Update where
  start := {}
  step sd u := sd.update cfg u

/-! ## What a listener knows -/

/-- Servers by id. -/
abbrev Servers : Type := Finmap fun _ : Bytes => Server

namespace ServerChange

variable (known : Servers) (c : ServerChange)

/-- A change fits the known servers. -/
def Fits : Prop :=
  match c.action with
  | .add => known.lookup c.server.id = none
  | .modify => c.old.isSome = true ∧ known.lookup c.server.id = c.old
  | .del => known.lookup c.server.id = some c.server

instance (known : Servers) : ∀ c : ServerChange, Decidable (c.Fits known)
  | ⟨.add, _, _⟩ => inferInstanceAs (Decidable (_ = _))
  | ⟨.modify, _, _⟩ => inferInstanceAs (Decidable (_ ∧ _))
  | ⟨.del, _, _⟩ => inferInstanceAs (Decidable (_ = _))

/-- The known servers after a change: `ADD` inserts, `Modify` replaces, `DEL` removes. -/
def apply : Servers :=
  match c.action with
  | .add => known.insert c.server.id c.server
  | .modify => known.insert c.server.id c.server
  | .del => known.erase c.server.id

theorem apply_erase {c : ServerChange} {own : Bytes} (h : c.server.id ≠ own) :
    c.apply (known.erase own) = (c.apply known).erase own := by
  refine ext_lookup fun id => ?_
  unfold apply
  by_cases hown : id = own
  · subst hown
    cases c.action <;>
      simp only [lookup_erase, lookup_insert_of_ne _ h.symm, lookup_erase_ne h.symm]
  · by_cases hid : id = c.server.id
    · subst hid
      cases c.action <;>
        simp only [lookup_erase, lookup_insert, lookup_erase_ne hown]
    · cases c.action <;>
        simp only [lookup_insert_of_ne _ hid, lookup_erase_ne hid, lookup_erase_ne hown]

theorem erase_apply : (c.apply known).erase c.server.id = known.erase c.server.id := by
  refine ext_lookup fun id => ?_
  unfold apply
  by_cases hid : id = c.server.id
  · subst hid
    simp only [lookup_erase]
  · cases c.action <;>
      simp only [lookup_erase_ne hid, lookup_insert_of_ne _ hid]

theorem Fits.erase {known : Servers} {c : ServerChange} {own : Bytes} (h : c.Fits known)
    (hid : c.server.id ≠ own) : c.Fits (known.erase own) := by
  unfold Fits at h ⊢
  rw [lookup_erase_ne hid]
  exact h

end ServerChange

/-- The known servers, from none on, and the changes that fit. -/
def registry : System Servers ServerChange where
  start := ∅
  step known c := if c.Fits known then some (c.apply known) else none

/-- The changes of other servers. -/
def others (cfg : Config) (changes : List ServerChange) : List ServerChange :=
  changes.filter fun c => c.server.id ≠ cfg.server.id

namespace registry

variable {known known' : Servers}

theorem step_eq_some {c : ServerChange} :
    registry.step known c = some known' ↔ c.Fits known ∧ c.apply known = known' := by
  change (if c.Fits known then some (c.apply known) else none) = some known' ↔ _
  rw [Option.ite_none_right_eq_some, Option.some.injEq]

variable {cs : List ServerChange}

theorem runFrom_concat {c : ServerChange} (h : registry.runFrom known cs = some known')
    (hfits : c.Fits known') : registry.runFrom known (cs ++ [c]) = some (c.apply known') := by
  rw [runFrom_append, h, Option.bind_some, runFrom_cons,
    step_eq_some.mpr ⟨hfits, rfl⟩]
  rfl

theorem runFrom_eq_some (h : registry.runFrom known cs = some known') :
    cs.foldl ServerChange.apply known = known' ∧
      ∀ before c after, cs = before ++ c :: after →
        c.Fits (before.foldl ServerChange.apply known) := by
  induction cs generalizing known with
  | nil =>
    refine ⟨Option.some.inj h, fun before c after hsplit => ?_⟩
    cases before <;> cases hsplit
  | cons c₀ cs ih =>
    obtain ⟨known₁, hstep, hrest⟩ := Option.bind_eq_some_iff.mp h
    obtain ⟨hfits, rfl⟩ := step_eq_some.mp hstep
    obtain ⟨hfold, hsplits⟩ := ih hrest
    refine ⟨hfold, fun before c after hsplit => ?_⟩
    cases before with
    | nil =>
      obtain ⟨rfl, -⟩ := cons.inj hsplit
      exact hfits
    | cons c₁ before =>
      obtain ⟨rfl, htail⟩ := cons.inj hsplit
      exact hsplits before c after htail

theorem runFrom_others (cfg : Config) (h : registry.runFrom known cs = some known') :
    registry.runFrom (known.erase cfg.server.id) (others cfg cs)
      = some (known'.erase cfg.server.id) := by
  induction cs generalizing known with
  | nil =>
    obtain rfl := Option.some.inj h
    rfl
  | cons c cs ih =>
    obtain ⟨known₁, hstep, hrest⟩ := Option.bind_eq_some_iff.mp h
    obtain ⟨hfits, rfl⟩ := step_eq_some.mp hstep
    have hrest := ih hrest
    by_cases hown : c.server.id = cfg.server.id
    · rw [others, filter_cons_of_neg (by simpa using hown)]
      rw [← hown, ServerChange.erase_apply, hown] at hrest
      exact hrest
    · rw [others, filter_cons_of_pos (by simpa using hown), runFrom_cons,
        step_eq_some.mpr ⟨hfits.erase hown, rfl⟩, Option.bind_some,
        ServerChange.apply_erase known hown]
      exact hrest

end registry

/-! ## What an update commits -/

namespace Discovery

variable {cfg : Config} {sd : Discovery}

/-- An update in progress: from `sd` it has come to `now` and collected `changes`. -/
structure Commits (cfg : Config) (sd now : Discovery) (changes : List ServerChange) : Prop where
  indexed : Indexed cfg now
  replays : registry.runFrom sd.serverMapByID changes = some now.serverMapByID
  notified : now.notified = sd.notified

namespace Commits

variable {now : Discovery} {changes : List ServerChange}

theorem refl (h : Indexed cfg sd) : Commits cfg sd sd [] := ⟨h, rfl, rfl⟩

theorem store (h : Commits cfg sd now changes) (sv : Server) :
    Commits cfg sd (now.storeServerLocked cfg sv).1
      (changes ++ [(now.storeServerLocked cfg sv).2]) where
  indexed := h.indexed.store sv
  replays := by
    have hfits : (now.storeServerLocked cfg sv).2.Fits now.serverMapByID := by
      unfold storeServerLocked ServerChange.Fits
      cases hlookup : now.serverMapByID.lookup sv.id with
      | none => exact hlookup
      | some => exact ⟨rfl, hlookup⟩
    have happly : (now.storeServerLocked cfg sv).2.apply now.serverMapByID
        = (now.storeServerLocked cfg sv).1.serverMapByID := by
      rw [store_serverMapByID h.indexed]
      unfold storeServerLocked ServerChange.apply
      cases now.serverMapByID.lookup sv.id <;> rfl
    rw [← happly]
    exact registry.runFrom_concat h.replays hfits
  notified := (leaveType_frame now sv).1.trans h.notified

theorem remove (h : Commits cfg sd now changes) {id : Bytes} {sv : Server}
    (hlookup : now.serverMapByID.lookup id = some sv) :
    Commits cfg sd (now.removeServerLocked sv).1
      (changes ++ [(now.removeServerLocked sv).2]) := by
  obtain rfl : sv.id = id := h.indexed.keyed _ _ hlookup
  exact ⟨h.indexed.remove hlookup, registry.runFrom_concat h.replays hlookup, h.notified⟩

theorem storeVisit {servers : Servers} {st : Discovery × List ServerChange}
    (h : Commits cfg sd st.1 st.2) (id : Bytes) :
    Commits cfg sd (Discovery.storeVisit cfg servers st id).1
      (Discovery.storeVisit cfg servers st id).2 := by
  unfold Discovery.storeVisit
  split
  · exact h
  · next sv _ =>
    split
    · exact h
    · exact h.store sv

theorem removeVisit {servers : Servers} {st : Discovery × List ServerChange}
    (h : Commits cfg sd st.1 st.2) (id : Bytes) :
    Commits cfg sd (Discovery.removeVisit servers st id).1
      (Discovery.removeVisit servers st id).2 := by
  unfold Discovery.removeVisit
  split
  · exact h
  · next hlookup =>
    split
    · exact h
    · exact h.remove hlookup

theorem applyEvent {b : Batch} (h : Commits cfg sd b.sd b.changes) (e : Event Bytes Bytes) :
    Commits cfg sd (Discovery.applyEvent cfg b e).sd (Discovery.applyEvent cfg b e).changes := by
  unfold Discovery.applyEvent
  split
  · exact h
  · split
    · exact h
    · split
      · split
        · exact h
        · next sv _ => exact h.store sv
      · split
        · exact h
        · next hlookup => exact h.remove hlookup

end Commits

/-- The changes `notifyChanges` passes on: the own server's only if it is removed. -/
def notifiable (cfg : Config) (changes : List ServerChange) : List ServerChange :=
  changes.filter fun change => change.action = .del ∨ change.server.id ≠ cfg.server.id

/-- **What an update does**: the views stay in agreement, and the changes it notifies are
those that lead from the cache before it to the cache after it. -/
structure Updates (cfg : Config) (sd sd' : Discovery) : Prop where
  indexed : Indexed cfg sd'
  replays : ∃ changes, registry.runFrom sd.serverMapByID changes = some sd'.serverMapByID ∧
    sd'.notified = sd.notified ++ notifiable cfg changes

namespace Updates

theorem refl (h : Indexed cfg sd) : Updates cfg sd sd :=
  ⟨h, [], rfl, (append_nil _).symm⟩

theorem of_commits {now : Discovery} {changes : List ServerChange}
    (h : Commits cfg sd now changes) (revision : ℕ) :
    Updates cfg sd (({ now with appliedRevision := revision }).notifyChanges cfg changes) := by
  refine ⟨⟨h.indexed.keyed, h.indexed.byType, h.indexed.byNode⟩, changes, h.replays, ?_⟩
  rw [← h.notified]
  rfl

theorem syncServersLocked (h : Indexed cfg sd) {reply : Except Bytes Snapshot}
    {stores removes : List Bytes} {r : Discovery × Except SyncError Unit}
    (hsync : sd.syncServersLocked cfg reply stores removes = some r) : Updates cfg sd r.1 := by
  unfold Discovery.syncServersLocked at hsync
  split at hsync
  · cases hsync
    exact refl h
  · next snapshot =>
    split at hsync
    · cases hsync
      exact refl h
    split at hsync
    · cases hsync
      exact refl h
    obtain ⟨-, ⟨⟩⟩ := Option.ite_none_right_eq_some.mp hsync
    set servers := readSnapshot cfg sd snapshot.kvs
    have hstored : Commits cfg sd (stores.foldl (storeVisit cfg servers) (sd, [])).1
        (stores.foldl (storeVisit cfg servers) (sd, [])).2 :=
      foldlRecOn (motive := fun st : Discovery × _ => Commits cfg sd st.1 st.2) stores _
        (Commits.refl h) fun _ hst id _ => hst.storeVisit id
    have hremoved := foldlRecOn (motive := fun st => Commits cfg sd st.1 st.2) removes
      (removeVisit servers) hstored fun _ hst id _ => hst.removeVisit id
    exact of_commits hremoved snapshot.revision

theorem applyWatchResponse (h : Indexed cfg sd) (events : List (Event Bytes Bytes)) :
    Updates cfg sd (sd.applyWatchResponse cfg events) := by
  unfold Discovery.applyWatchResponse
  split
  · exact refl h
  · have hbatch := foldlRecOn (motive := fun b : Batch => Commits cfg sd b.sd b.changes)
      events (watchVisit cfg sd.appliedRevision) (b := ⟨sd, sd.appliedRevision, []⟩)
      (Commits.refl h) fun b hb e _ => by
        unfold watchVisit
        split
        · exact hb
        · exact Commits.applyEvent (b := { b with revision := max _ _ }) hb e
    exact of_commits hbatch _

end Updates

theorem update_spec (h : Indexed cfg sd) {u : Update} {sd' : Discovery}
    (hupdate : sd.update cfg u = some sd') : Updates cfg sd sd' := by
  cases u with
  | syncServers =>
    obtain ⟨r, hsync, rfl⟩ := Option.map_eq_some_iff.mp hupdate
    exact Updates.syncServersLocked h hsync
  | watchResponse events =>
    cases hupdate
    exact Updates.applyWatchResponse h events
  | cancel =>
    cases hupdate
    exact ⟨⟨h.keyed, h.byType, h.byNode⟩, [], rfl, (append_nil _).symm⟩

/-- A snapshot that the cache agrees with changes nothing, and nobody hears of it. -/
theorem syncServersLocked_of_same {snapshot : Snapshot} {stores removes : List Bytes}
    {r : Discovery × Except SyncError Unit}
    (hsame : readSnapshot cfg sd snapshot.kvs = sd.serverMapByID)
    (hsync : sd.syncServersLocked cfg (.ok snapshot) stores removes = some r) :
    r.1.notified = sd.notified ∧ r.1.serverMapByID = sd.serverMapByID := by
  have hstores : stores.foldl (storeVisit cfg sd.serverMapByID) (sd, []) = (sd, []) := by
    refine foldlRecOn (motive := fun st => st = (sd, [])) stores _ rfl ?_
    rintro _ rfl id -
    unfold storeVisit
    split
    · rfl
    · next hlookup => exact if_pos hlookup
  have hremoves : removes.foldl (removeVisit sd.serverMapByID) (sd, []) = (sd, []) := by
    refine foldlRecOn (motive := fun st => st = (sd, [])) removes _ rfl ?_
    rintro _ rfl id -
    unfold removeVisit
    split
    · rfl
    · next hlookup => exact if_pos (by rw [hlookup]; rfl)
  unfold syncServersLocked at hsync
  simp only [hsame, hstores, hremoves] at hsync
  split at hsync
  · cases hsync
    exact ⟨rfl, rfl⟩
  split at hsync
  · cases hsync
    exact ⟨rfl, rfl⟩
  obtain ⟨-, ⟨⟩⟩ := Option.ite_none_right_eq_some.mp hsync
  exact ⟨append_nil _, rfl⟩

end Discovery

/-! ## The views agree -/

variable {cfg : Config}

theorem reconciler_indexed {updates : List Update} {sd : Discovery}
    (hrun : (reconciler cfg).run updates = some sd) : sd.Indexed cfg :=
  run_induction (P := fun _ sd => sd.Indexed cfg) (Discovery.indexed_start cfg)
    (fun _ _ _ _ _ h hstep => (Discovery.update_spec h hstep).indexed) hrun

/-- **The three views of the cache agree** after every sequence of updates, so that a node
of a consistent hash, which is one of those added to it and not removed, is another
server that `GetServersByType` shows. -/
theorem indexes_agree (cfg : Config) (updates : List Update) (sd : Discovery)
    (hrun : (reconciler cfg).run updates = some sd) :
    (∀ typ id sv, (∃ m, sd.serverMapByType.lookup typ = some m ∧ m.lookup id = some sv) ↔
      sd.serverMapByID.lookup id = some sv ∧ sv.typ = typ) ∧
    (∀ typ id, id ∈ (sd.consistentHash.lookup typ).getD ∅ ↔
      (∃ m sv, sd.serverMapByType.lookup typ = some m ∧ m.lookup id = some sv) ∧
        id ≠ cfg.server.id) ∧
    ∀ typ key node id, (∀ n, node = some n → n ∈ (sd.consistentHash.lookup typ).getD ∅) →
      sd.getConsistentHashNode typ key node = .ok id →
        id ≠ cfg.server.id ∧ (∃ sv, sd.getServer id = .ok sv) ∧
          ∃ m, sd.getServersByType typ = .ok m ∧ id ∈ m := by
  have hindexed := reconciler_indexed hrun
  have htyped (typ id : Bytes) (sv : Server) :
      (∃ m, sd.serverMapByType.lookup typ = some m ∧ m.lookup id = some sv) ↔
        sd.typed typ id = some sv := Option.bind_eq_some_iff.symm
  have hnodes (typ id : Bytes) : id ∈ (sd.consistentHash.lookup typ).getD ∅ ↔
      (∃ m sv, sd.serverMapByType.lookup typ = some m ∧ m.lookup id = some sv) ∧
        id ≠ cfg.server.id := by
    refine (hindexed.byNode typ id).trans ?_
    rw [exists_comm, and_comm]
    simp only [htyped, hindexed.byType]
  refine ⟨fun typ id sv => (htyped typ id sv).trans (hindexed.byType typ id sv), hnodes, ?_⟩
  intro typ key node id hnode hget
  have hid : node = some id := by
    unfold Discovery.getConsistentHashNode at hget
    split at hget
    · cases hget
    · cases node with
      | none => cases hget
      | some => exact congrArg some (Except.ok.inj hget)
  obtain ⟨⟨m, sv, hm, hlookup⟩, hown⟩ := (hnodes typ id).mp (hnode id hid)
  have hsv : sd.typed typ id = some sv := (htyped typ id sv).mp ⟨m, hm, hlookup⟩
  obtain ⟨m', hservers, hlookup'⟩ := getServersByType_lookup.mpr hsv
  have hknown : sd.getServer id = .ok sv :=
    getServer_eq_ok.mpr ((hindexed.byType typ id sv).mp hsv).1
  exact ⟨hown, ⟨sv, hknown⟩, m', hservers, Finmap.mem_of_lookup_eq_some hlookup'⟩

/-- A server "x" that moves from type "a" to "b" is a node of "b" only; the second
response also has a value that cannot be read. -/
theorem indexes_agree_moved : ∃ sd,
    (reconciler twoByteConfig).run
      [.watchResponse [⟨getKey [120] [97], some [97, 120], 1⟩],
        .watchResponse [⟨getKey [120] [98], some [98, 120], 2⟩, ⟨getKey [121] [98], some [], 2⟩]]
      = some sd ∧
    ([120] ∈ (sd.consistentHash.lookup [98]).getD ∅ ∧
      [120] ∉ (sd.consistentHash.lookup [97]).getD ∅) ∧
    sd.serverMapByID.lookup [120] = some (Server.fix { id := [120], typ := [98] }) := by
  refine reaches_and (by decide +kernel) fun sd hsd hlookup => ?_
  obtain ⟨hbyType, hnodes, -⟩ := indexes_agree twoByteConfig _ sd hsd
  refine ⟨(hnodes _ _).mpr ⟨?_, by decide⟩, fun hnode => ?_⟩
  · obtain ⟨m, hm, hsv⟩ := (hbyType [98] [120] _).mpr ⟨hlookup, rfl⟩
    exact ⟨m, _, hm, hsv⟩
  · obtain ⟨⟨m, sv, hm, hsv⟩, -⟩ := (hnodes _ _).mp hnode
    obtain ⟨hsame, htyp⟩ := (hbyType _ _ _).mp ⟨m, hm, hsv⟩
    obtain rfl := Option.some.inj (hlookup.symm.trans hsame)
    exact absurd htyp (by decide)

/-! ## Listeners -/

/-- A service discovery with its listeners, numbered in the order they registered.
`delivered` counts the changes of `sd.notified` whose loop in `notifyListeners` has
begun, `calls` are the callbacks left in that loop, and `called` those that have run. -/
structure Delivery where
  sd : Discovery := {}
  listeners : ℕ := 0
  delivered : ℕ := 0
  calls : List (ℕ × ServerChange) := []
  called : List (ℕ × ServerChange) := []

namespace Delivery

/-- What can happen next. -/
inductive Op where
  | addListener
  | update (u : Update)
  /-- The copy of the listeners at the top of `notifyListeners`. -/
  | notifyListeners
  /-- `AddServer`, `ModifyServer` or `RemoveServer` of a listener. -/
  | callback

/-- The changes of the batch for which no listener has been called. -/
def queue (s : Delivery) : List ServerChange := s.sd.notified.drop s.delivered

/-- `reconcileMu` is free: the last batch is delivered. -/
def Idle (s : Delivery) : Prop := s.queue = [] ∧ s.calls = []

instance (s : Delivery) : Decidable s.Idle := inferInstanceAs (Decidable (_ ∧ _))

/-- An update takes `reconcileMu`, `Shutdown` does not. -/
def Op.synchronises : Op → Bool
  | .update (.syncServers _ _ _) => true
  | .update (.watchResponse _) => true
  | _ => false

/-- `notifyListeners`, up to its loop: the callbacks of the next change. -/
def notifyListeners (s : Delivery) : Option Delivery :=
  match s.calls, s.queue with
  | [], change :: _ =>
    some { s with
      delivered := s.delivered + 1
      calls := (List.range s.listeners).map fun l => (l, change) }
  | _, _ => none

/-- The next turn of the loop. -/
def callback (s : Delivery) : Option Delivery :=
  match s.calls with
  | [] => none
  | call :: calls => some { s with calls := calls, called := s.called ++ [call] }

/-- One step. -/
def step (cfg : Config) (s : Delivery) : Op → Option Delivery
  | .addListener => some { s with listeners := s.listeners + 1 }
  | .update u =>
    if (Op.update u).synchronises → s.Idle then
      (s.sd.update cfg u).map fun sd => { s with sd := sd }
    else none
  | .notifyListeners => s.notifyListeners
  | .callback => s.callback

/-- What one listener is told by a list of callbacks. -/
def told (l : ℕ) (calls : List (ℕ × ServerChange)) : List ServerChange :=
  (calls.filter fun call => call.1 = l).map Prod.snd

/-- What a listener has heard of other servers. -/
def heard (cfg : Config) (s : Delivery) (l : ℕ) : List ServerChange :=
  others cfg (told l s.called)

/-- What is left of the batch for a listener to hear of other servers. -/
def unheard (cfg : Config) (s : Delivery) (l : ℕ) : List ServerChange :=
  others cfg (told l s.calls ++ s.queue)

end Delivery

/-- The runs of a service discovery with listeners. -/
def deliveries (cfg : Config) : System Delivery Delivery.Op where
  start := {}
  step := Delivery.step cfg

namespace Delivery

theorem told_append (l : ℕ) (calls calls' : List (ℕ × ServerChange)) :
    told l (calls ++ calls') = told l calls ++ told l calls' := by
  rw [told, filter_append, map_append]
  rfl

theorem told_range {l n : ℕ} (h : l < n) (change : ServerChange) :
    told l ((List.range n).map fun l' => (l', change)) = [change] := by
  have hone : (range n).filter (fun l' => l' = l) = [l] := by
    rw [filter_eq, count_eq_one_of_mem nodup_range (mem_range.mpr h)]
    rfl
  rw [told, filter_map, map_map]
  change map _ ((range n).filter fun l' => l' = l) = _
  rw [hone]
  rfl

theorem others_notifiable (changes : List ServerChange) :
    others cfg (Discovery.notifiable cfg changes) = others cfg changes := by
  rw [others, Discovery.notifiable, filter_filter]
  refine filter_congr fun c _ => ?_
  by_cases hown : c.server.id = cfg.server.id <;> simp [hown]

theorem others_append (changes changes' : List ServerChange) :
    others cfg (changes ++ changes') = others cfg changes ++ others cfg changes' :=
  filter_append ..

/-- What a listener has been told and has still to be told, of the own server too. -/
def announced (s : Delivery) (l : ℕ) : List ServerChange :=
  told l s.called ++ (told l s.calls ++ s.queue)

variable {l : ℕ} {s s' : Delivery}

theorem others_announced : others cfg (s.announced l) = s.heard cfg l ++ s.unheard cfg l :=
  others_append _ _

theorem announced_of_idle (hidle : s.Idle) : s.announced l = told l s.called := by
  rw [announced, hidle.1, hidle.2, append_nil]
  exact append_nil _

/-- **The invariant of a listener**: what it has been told and has still to be told replays to
the cache without the own server, of which it is told at most that it is removed. -/
structure Follows (cfg : Config) (l : ℕ) (s : Delivery) : Prop where
  indexed : s.sd.Indexed cfg
  registered : l < s.listeners
  bounded : s.delivered ≤ s.sd.notified.length
  replays : registry.run (others cfg (s.announced l))
    = some (s.sd.serverMapByID.erase cfg.server.id)
  own : ∀ c ∈ s.announced l, c.action = .del ∨ c.server.id ≠ cfg.server.id

theorem Follows.replays_heard (h : Follows cfg l s) (hidle : s.Idle) :
    registry.run (s.heard cfg l) = some (s.sd.serverMapByID.erase cfg.server.id) := by
  have hrun := h.replays
  rwa [announced_of_idle hidle] at hrun

theorem Follows.update (h : Follows cfg l s) (hidle : s.Idle) {sd' : Discovery}
    (hupdates : s.sd.Updates cfg sd') : Follows cfg l { s with sd := sd' } := by
  obtain ⟨changes, hreplays, hnotified⟩ := hupdates.replays
  have hdelivered : s.delivered = s.sd.notified.length :=
    le_antisymm h.bounded (drop_eq_nil_iff.mp hidle.1)
  have hqueue : ({ s with sd := sd' } : Delivery).queue = Discovery.notifiable cfg changes := by
    change sd'.notified.drop s.delivered = _
    rw [hnotified, hdelivered, drop_left]
  have hannounced : ({ s with sd := sd' } : Delivery).announced l =
      s.announced l ++ Discovery.notifiable cfg changes := by
    rw [announced_of_idle hidle, announced, hqueue]
    change told l s.called ++ (told l s.calls ++ _) = _
    rw [hidle.2]
    rfl
  refine ⟨hupdates.indexed, h.registered, ?_, ?_, ?_⟩
  · change s.delivered ≤ sd'.notified.length
    rw [hnotified, length_append]
    omega
  · rw [hannounced, others_append, others_notifiable, run_append, h.replays]
    exact registry.runFrom_others cfg hreplays
  · rw [hannounced, forall_mem_append]
    exact ⟨h.own, fun c hc => of_decide_eq_true (mem_filter.mp hc).2⟩

/-- A turn that only passes on what was announced. -/
theorem Follows.pass (h : Follows cfg l s) (hsd : s'.sd = s.sd)
    (hlisteners : s'.listeners = s.listeners) (hbounded : s'.delivered ≤ s'.sd.notified.length)
    (hannounced : s'.announced l = s.announced l) : Follows cfg l s' := by
  refine ⟨hsd ▸ h.indexed, hlisteners ▸ h.registered, hbounded, ?_, ?_⟩
  · rw [hannounced, hsd]
    exact h.replays
  · rw [hannounced]
    exact h.own

theorem Follows.step (h : Follows cfg l s) {op : Op} (hstep : step cfg s op = some s') :
    Follows cfg l s' := by
  cases op with
  | addListener =>
    cases hstep
    exact ⟨h.indexed, Nat.lt_succ_of_lt h.registered, h.bounded, h.replays, h.own⟩
  | update u =>
    obtain ⟨hguard, hstep⟩ := Option.ite_none_right_eq_some.mp hstep
    obtain ⟨sd', hupdate, rfl⟩ := Option.map_eq_some_iff.mp hstep
    cases u with
    | syncServers | watchResponse =>
      exact h.update (hguard rfl) (Discovery.update_spec h.indexed hupdate)
    | cancel =>
      cases hupdate
      exact ⟨⟨h.indexed.keyed, h.indexed.byType, h.indexed.byNode⟩, h.registered, h.bounded,
        h.replays, h.own⟩
  | notifyListeners =>
    change s.notifyListeners = some s' at hstep
    unfold notifyListeners at hstep
    split at hstep
    · next change rest hcalls hqueue =>
      cases hstep
      have hlt : s.delivered < s.sd.notified.length := by
        by_contra hge
        rw [queue, drop_eq_nil_of_le (not_lt.mp hge)] at hqueue
        cases hqueue
      have hrest : s.sd.notified.drop (s.delivered + 1) = rest := by
        rw [← drop_drop, show s.sd.notified.drop s.delivered = _ from hqueue]
        rfl
      refine h.pass rfl rfl hlt ?_
      rw [announced, announced, queue, told_range h.registered, hrest, hcalls, hqueue]
      rfl
    · cases hstep
  | callback =>
    change s.callback = some s' at hstep
    unfold callback at hstep
    split at hstep
    · cases hstep
    · next call calls hcalls =>
      cases hstep
      refine h.pass rfl rfl h.bounded ?_
      have htold : told l s.calls = told l [call] ++ told l calls :=
        hcalls ▸ told_append l [call] calls
      rw [announced, announced, htold, told_append, append_assoc, append_assoc]
      rfl

theorem Follows.run (h : Follows cfg l s) {ops : List Op}
    (hrun : (deliveries cfg).runFrom s ops = some s') : Follows cfg l s' := by
  induction ops generalizing s with
  | nil =>
    obtain rfl := Option.some.inj hrun
    exact h
  | cons op ops ih =>
    obtain ⟨s₁, hstep, hrest⟩ := Option.bind_eq_some_iff.mp hrun
    exact ih (h.step hstep) hrest

theorem follows_of_registered {ops : List Op} (hrun : (deliveries cfg).run ops = some s)
    (hquiet : ∀ op ∈ ops, op.synchronises = false) (hl : l < s.listeners) : Follows cfg l s := by
  have hfresh : s.sd.serverMapByID = ∅ ∧ s.sd.Indexed cfg ∧ s.sd.notified = [] ∧
      s.delivered = 0 ∧ s.calls = [] ∧ s.called = [] := by
    revert hquiet
    apply run_induction ?_ ?_ hrun
    · exact fun _ => ⟨rfl, Discovery.indexed_start cfg, rfl, rfl, rfl, rfl⟩
    · intro ops op s s' _ ih hstep hquiet
      obtain ⟨hmap, hindexed, hnotified, hdelivered, hcalls, hcalled⟩ :=
        ih fun op hop => hquiet op (mem_append_left _ hop)
      have hop := hquiet op (mem_append_right _ mem_cons_self)
      cases op with
      | addListener =>
        cases hstep
        exact ⟨hmap, hindexed, hnotified, hdelivered, hcalls, hcalled⟩
      | update u =>
        obtain ⟨-, hstep⟩ := Option.ite_none_right_eq_some.mp hstep
        obtain ⟨sd', hupdate, rfl⟩ := Option.map_eq_some_iff.mp hstep
        cases u with
        | syncServers => cases hop
        | watchResponse => cases hop
        | cancel =>
          cases hupdate
          exact ⟨hmap, ⟨hindexed.keyed, hindexed.byType, hindexed.byNode⟩, hnotified,
            hdelivered, hcalls, hcalled⟩
      | notifyListeners =>
        have hqueue : s.queue = [] := by rw [queue, hnotified, drop_nil]
        change s.notifyListeners = some s' at hstep
        simp [notifyListeners, hqueue] at hstep
      | callback =>
        change s.callback = some s' at hstep
        simp [callback, hcalls] at hstep
  obtain ⟨hmap, hindexed, hnotified, hdelivered, hcalls, hcalled⟩ := hfresh
  have hannounced : s.announced l = [] := by
    rw [announced, queue, hcalls, hcalled, hnotified, drop_nil]
    rfl
  refine ⟨hindexed, hl, by rw [hdelivered]; exact Nat.zero_le _, ?_, ?_⟩
  · rw [hannounced, hmap]
    rfl
  · rw [hannounced]
    exact fun _ h => absurd h not_mem_nil

end Delivery

open Delivery in
/-- **Replaying the notifications reproduces the cache.**  Take a listener `l` that
registered before the first synchronisation, and other servers than the own one.  What it
has heard, and then what is left of the batch for it, replays to the cache as it is while
the callbacks run; once the batch is delivered nothing is left.  Each change fits what the
listener knows by then, and a snapshot that the cache agrees with is not heard of. -/
theorem notifications_replay (cfg : Config) (first second : List Delivery.Op) (s₀ s : Delivery)
    (l : ℕ) (hfirst : (deliveries cfg).run first = some s₀)
    (hbefore : ∀ op ∈ first, op.synchronises = false) (hl : l < s₀.listeners)
    (hrun : (deliveries cfg).run (first ++ second) = some s) :
    (s.heard cfg l ++ s.unheard cfg l).foldl ServerChange.apply ∅
        = s.sd.serverMapByID.erase cfg.server.id ∧
    (s.Idle → (s.heard cfg l).foldl ServerChange.apply ∅
        = s.sd.serverMapByID.erase cfg.server.id) ∧
    (∀ before c after, s.heard cfg l = before ++ c :: after →
      match c.action with
      | .add => c.server.id ∉ before.foldl ServerChange.apply ∅
      | .del => c.server.id ∈ before.foldl ServerChange.apply ∅
      | .modify => ∃ old, c.old = some old ∧
          (before.foldl ServerChange.apply ∅).lookup c.server.id = some old) ∧
    ∀ snapshot stores removes s',
      Delivery.step cfg s (.update (.syncServers (.ok snapshot) stores removes)) = some s' →
      Discovery.readSnapshot cfg s.sd snapshot.kvs = s.sd.serverMapByID →
        s'.Idle ∧ s'.called = s.called := by
  have hfollows : Follows cfg l s := by
    rw [System.run_append, hfirst, Option.bind_some] at hrun
    exact (follows_of_registered hfirst hbefore hl).run hrun
  obtain ⟨hfold, hfits⟩ := registry.runFrom_eq_some (others_announced ▸ hfollows.replays)
  change (s.heard cfg l ++ s.unheard cfg l).foldl ServerChange.apply ∅ = _ at hfold
  refine ⟨hfold, fun hidle => ?_, fun before c after hsplit => ?_, ?_⟩
  · rw [unheard, hidle.1, hidle.2] at hfold
    simpa [told, others] using hfold
  · have hc := hfits before c (after ++ s.unheard cfg l) (by
      rw [hsplit, List.append_assoc, List.cons_append])
    change c.Fits (before.foldl ServerChange.apply ∅) at hc
    unfold ServerChange.Fits at hc
    cases haction : c.action with
    | add =>
      rw [haction] at hc
      exact Finmap.lookup_eq_none.mp hc
    | del =>
      rw [haction] at hc
      exact Finmap.mem_of_lookup_eq_some hc
    | modify =>
      rw [haction] at hc
      obtain ⟨old, hold⟩ := Option.isSome_iff_exists.mp hc.1
      exact ⟨old, hold, hc.2.trans hold⟩
  · intro snapshot stores removes s' hstep hsame
    obtain ⟨hguard, hstep⟩ := Option.ite_none_right_eq_some.mp hstep
    obtain ⟨sd', hupdate, rfl⟩ := Option.map_eq_some_iff.mp hstep
    obtain ⟨r, hsync, rfl⟩ := Option.map_eq_some_iff.mp hupdate
    obtain ⟨hnotified, -⟩ := Discovery.syncServersLocked_of_same hsame hsync
    refine ⟨⟨?_, (hguard rfl).2⟩, rfl⟩
    change r.1.notified.drop s.delivered = []
    rw [hnotified]
    exact (hguard rfl).1

/-- One listener hears that a server "x" comes, changes its type and goes; another one
registers in between. -/
theorem notifications_replay_moved : ∃ s,
    (deliveries twoByteConfig).run
      ([.addListener] ++
        [.update (.watchResponse [⟨getKey [120] [97], some [97, 120], 1⟩]), .notifyListeners,
          .callback, .addListener,
          .update (.watchResponse [⟨getKey [120] [98], some [98, 120], 2⟩,
            ⟨getKey [121] [98], some [98, 121], 2⟩, ⟨getKey [120] [98], none, 2⟩]),
          .notifyListeners, .callback, .callback, .notifyListeners, .callback]) = some s ∧
    (s.heard twoByteConfig 0 ++ s.unheard twoByteConfig 0).foldl ServerChange.apply ∅
      = s.sd.serverMapByID.erase [115] ∧
    (s.heard twoByteConfig 0).map ServerChange.action = [.add, .modify, .add] :=
  reaches_and (by decide +kernel) fun s hs _ =>
    (notifications_replay twoByteConfig [.addListener] _ { listeners := 1 } s 0 rfl (by decide)
      Nat.one_pos hs).1

end Pitaya.Cluster
