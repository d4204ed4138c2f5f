import Pitaya.Cluster.Notifications
import Pitaya.Foundations.Strconv

/-!
# Routing while the service discovery changes

`Route` of `router/router.go`, for a server type without a routing function of its own.  It reads
the service discovery twice, each time under the lock: `GetServersByType` copies the servers of
the type, and later `GetConsistentHashNode` names one of them.  Updates of the service discovery
happen before, between and after the two.

* `defaultRoute`, `resume` — the code between the reads and after the second one.
* `call` — a call of `Route` and the updates.  `moments` are the states of the service discovery
  from the call until it returns.
* `added_between` — a server that registers between the two reads.
-/

namespace Pitaya.Router

open Cluster Transition Finmap Option System

/-! ## The code -/

/-- What routing reads of a session. -/
structure Session where
  uid : Bytes := []
  frontendID : Bytes := []
  frontendSessionID : ℤ := 0
  /-- `GetBackendID`. -/
  backendID : Bytes → Bytes := fun _ => []

/-- The errors of `Route`. -/
inductive RouteError where
  | lookup (e : Discovery.LookupError)
  /-- `ErrServerNotFound`: "%w uid=%s,svType=%s,svID=%s". -/
  | serverNotFound (uid svType svID : Bytes)
  /-- `ErrForbiddenServerOfSession`. -/
  | forbiddenServerOfSession (svType svID uid : Bytes)
  deriving DecidableEq, Repr

/-- The session id `defaultRoute` asks the consistent hash about: the uid, or "%s-%d" of the
frontend and the id there. -/
def Session.hashKey (session : Session) : Option Bytes :=
  if session.uid ≠ [] then some session.uid
  else if session.frontendID ≠ [] ∧ 0 < session.frontendSessionID then
    some (session.frontendID ++ 45 :: Strconv.formatInt session.frontendSessionID)
  else none

/-- The end of `defaultRoute`: the server `svId` of the map. -/
def find (svType : Bytes) (servers : Servers) (session : Session) (server : Server)
    (svId : Bytes) : Except RouteError Server :=
  if svId ≠ [] then
    match servers.lookup svId with
    | some sv => .ok sv
    | none => .error (.serverNotFound session.uid svType svId)
  else .error (.forbiddenServerOfSession server.typ server.id session.uid)

/-- How `defaultRoute` goes on: it returns, or asks for a node. -/
inductive Next where
  | returns (result : Except RouteError Server)
  | asks (session : Session) (key : Bytes)

/-- `defaultRoute` until it asks the consistent hash; `server` is the random one. -/
def defaultRoute (svType : Bytes) (servers : Servers) (session : Option Session)
    (server : Server) : Next :=
  match session with
  | none => .returns (.ok server)
  | some session =>
    if server.frontend then .returns (find svType servers session server session.frontendID)
    else if server.sessionStickiness then
      .returns (find svType servers session server (session.backendID server.typ))
    else
      match session.hashKey with
      | none => .returns (.ok server)
      | some key => .asks session key

/-- `defaultRoute` once it has been answered; without a node the random server is taken. -/
def resume (svType : Bytes) (servers : Servers) (session : Session) (server : Server) :
    Except Discovery.NodeNotFound Bytes → Except RouteError Server
  | .error _ => .ok server
  | .ok svId => find svType servers session server svId

/-! ## A call and the updates -/

/-- Where a call of `Route` is, with its variables. -/
inductive Point where
  | idle
  | called
  | asking (servers : Servers) (session : Session) (server : Server) (key : Bytes)
  | returned (servers : Servers) (node : Option Bytes) (result : Except RouteError Server)

/-- The call has not returned. -/
def Point.underWay : Point → Bool
  | .called | .asking .. => true
  | .idle | .returned .. => false

/-- The service discovery and the call. -/
structure State where
  sd : Discovery := {}
  point : Point := .idle
  moments : List Discovery := []

/-- The updates, and the steps of the call: `pick` is the id of the random server, and `node` is
the answer of the ring. -/
inductive Op where
  | update (u : Update)
  | call
  | getServersByType (pick : Bytes)
  | getConsistentHashNode (node : Option Bytes)

/-- What a ring can answer: one of its nodes, if it has any. -/
def Answers (nodes : Finset Bytes) : Option Bytes → Prop
  | none => nodes = ∅
  | some id => id ∈ nodes

instance (nodes : Finset Bytes) : ∀ node, Decidable (Answers nodes node)
  | none => inferInstanceAs (Decidable (_ = _))
  | some _ => inferInstanceAs (Decidable (_ ∈ _))

namespace State

/-- The service discovery has changed. -/
def updated (s : State) (sd : Discovery) : State :=
  { s with sd, moments := if s.point.underWay then s.moments ++ [sd] else s.moments }

/-- The call has read the servers of the type and picked one of them. -/
def picked (svType : Bytes) (session : Option Session) (s : State) (servers : Servers)
    (server : Server) : State :=
  match defaultRoute svType servers session server with
  | .returns result => { s with point := .returned servers none result }
  | .asks session key => { s with point := .asking servers session server key }

/-- One step. -/
def step (cfg : Config) (svType : Bytes) (session : Option Session) (s : State) :
    Op → Option State
  | .update u => (s.sd.update cfg u).map s.updated
  | .call =>
    match s.point with
    | .idle => some { s with point := .called, moments := [s.sd] }
    | _ => none
  | .getServersByType pick =>
    match s.point with
    | .called =>
      match s.sd.getServersByType svType with
      | .error e => some { s with point := .returned ∅ none (.error (.lookup e)) }
      | .ok servers => (servers.lookup pick).map (s.picked svType session servers)
    | _ => none
  | .getConsistentHashNode node =>
    match s.point with
    | .asking servers session server key =>
      if Answers (s.sd.nodes svType) node then
        let answer := s.sd.getConsistentHashNode svType key node
        some
          { s with
            point := .returned servers answer.toOption
              (resume svType servers session server answer) }
      else none
    | _ => none

end State

/-- A call of `Route` among the updates. -/
def call (cfg : Config) (svType : Bytes) (session : Option Session) : System State Op where
  start := {}
  step s op := s.step cfg svType session op

/-! ## Ids are not empty -/

variable {cfg : Config}

/-- The servers of a map have an id. -/
def Named (servers : Servers) : Prop := ∀ id sv, servers.lookup id = some sv → sv.id ≠ []

theorem Named.empty : Named ∅ := fun id _ h => by cases (Finmap.lookup_empty id).symm.trans h

variable {servers : Servers} {sv : Server}

theorem Named.insert (h : Named servers) (id : Bytes) (hsv : sv.id ≠ []) :
    Named (servers.insert id sv) := by
  intro id' sv' hlookup
  by_cases hid : id' = id
  · subst hid
    rw [lookup_insert] at hlookup
    obtain rfl := some.inj hlookup
    exact hsv
  · rw [lookup_insert_of_ne _ hid] at hlookup
    exact h id' sv' hlookup

theorem Named.erase (h : Named servers) (id : Bytes) : Named (servers.erase id) := by
  intro id' sv' hlookup
  by_cases hid : id' = id
  · subst hid
    rw [lookup_erase] at hlookup
    cases hlookup
  · rw [lookup_erase_ne hid] at hlookup
    exact h id' sv' hlookup

theorem id_ne_nil_of_read {key typ id value : Bytes}
    (h : readRegistration cfg key typ id value = .ok sv) : sv.id ≠ [] := by
  unfold readRegistration parseServer at h
  cases hvalue : cfg.unmarshal value with
  | error => simp [hvalue] at h
  | ok read =>
    cases read with
    | none => simp [hvalue] at h
    | some raw =>
      by_cases hraw : raw.id = [] ∨ raw.typ = []
      · simp [hvalue, hraw] at h
      · rw [hvalue] at h
        simp only [if_neg hraw] at h
        split at h
        · cases h
        · cases h
          exact fun hnil => hraw (.inl hnil)

variable {sd : Discovery}

theorem Named.store (h : Named sd.serverMapByID) (hsv : sv.id ≠ []) :
    Named (sd.storeServerLocked cfg sv).1.serverMapByID := by
  refine Named.insert ?_ sv.id hsv
  unfold Discovery.leaveType
  split
  · exact h
  · next previous _ =>
    split
    · exact h.erase previous.id
    · exact h

theorem Named.readSnapshot (h : Named sd.serverMapByID) (kvs : List (Bytes × Bytes)) :
    Named (Discovery.readSnapshot cfg sd kvs) := by
  refine List.foldlRecOn (motive := Named) kvs _ Named.empty fun servers hservers kv _ => ?_
  unfold Discovery.readKv
  split
  · exact hservers
  · next typ id _ =>
    split
    · exact hservers
    split
    · next sv hread => exact hservers.insert id (id_ne_nil_of_read hread)
    split
    · next old hold => exact hservers.insert id (h id old hold)
    · exact hservers

theorem Named.applyEvent {b : Discovery.Batch} (h : Named b.sd.serverMapByID)
    (e : Revisions.Event Bytes Bytes) : Named (Discovery.applyEvent cfg b e).sd.serverMapByID := by
  unfold Discovery.applyEvent
  split
  · exact h
  split
  · exact h
  split
  · split
    · exact h
    · next sv hread => exact h.store (id_ne_nil_of_read hread)
  · split
    · exact h
    · next old _ => exact h.erase old.id

theorem Named.syncServersLocked (h : Named sd.serverMapByID)
    {reply : Except Bytes Discovery.Snapshot} {stores removes : List Bytes}
    {r : Discovery × Except Discovery.SyncError Unit}
    (hsync : sd.syncServersLocked cfg reply stores removes = some r) : Named r.1.serverMapByID := by
  unfold Discovery.syncServersLocked at hsync
  split at hsync
  · cases hsync
    exact h
  · next snapshot =>
    split at hsync
    · cases hsync
      exact h
    split at hsync
    · cases hsync
      exact h
    obtain ⟨-, ⟨⟩⟩ := ite_none_right_eq_some.mp hsync
    set servers := Discovery.readSnapshot cfg sd snapshot.kvs
    have hservers : Named servers := h.readSnapshot snapshot.kvs
    have hstored : Named
        (stores.foldl (Discovery.storeVisit cfg servers) (sd, [])).1.serverMapByID := by
      refine List.foldlRecOn
        (motive := fun st : Discovery × List ServerChange => Named st.1.serverMapByID)
        stores _ h fun st hst id _ => ?_
      unfold Discovery.storeVisit
      split
      · exact hst
      · next sv hlookup =>
        split
        · exact hst
        · exact hst.store (hservers id sv hlookup)
    refine List.foldlRecOn
      (motive := fun st : Discovery × List ServerChange => Named st.1.serverMapByID)
      removes (Discovery.removeVisit servers) hstored fun st hst id _ => ?_
    unfold Discovery.removeVisit
    split
    · exact hst
    · next value _ =>
      split
      · exact hst
      · exact hst.erase value.id

theorem Named.update {sd' : Discovery} (h : Named sd.serverMapByID) {u : Update}
    (hupdate : sd.update cfg u = some sd') : Named sd'.serverMapByID := by
  cases u with
  | syncServers =>
    obtain ⟨r, hsync, rfl⟩ := map_eq_some_iff.mp hupdate
    exact h.syncServersLocked hsync
  | watchResponse events =>
    cases hupdate
    unfold Discovery.applyWatchResponse
    split
    · exact h
    refine List.foldlRecOn (motive := fun b : Discovery.Batch => Named b.sd.serverMapByID)
      events _ (b := ⟨sd, sd.appliedRevision, []⟩) h fun b hb e _ => ?_
    unfold Discovery.watchVisit
    split
    · exact hb
    · exact Named.applyEvent (b := { b with revision := max _ _ }) hb e
  | cancel =>
    cases hupdate
    exact h

/-! ## What is known at each point of a call -/

variable {node : Option Bytes}

theorem toOption_getConsistentHashNode {svType : Bytes} (key : Bytes)
    (h : Answers (sd.nodes svType) node) :
    (sd.getConsistentHashNode svType key node).toOption = node := by
  unfold Discovery.getConsistentHashNode
  cases hring : sd.consistentHash.lookup svType with
  | some => cases node <;> rfl
  | none =>
    cases node with
    | none => rfl
    | some id =>
      have hnode : id ∈ (sd.consistentHash.lookup svType).getD ∅ := h
      rw [hring] at hnode
      cases Finset.notMem_empty id hnode

/-- The views agree and every server has an id. -/
structure Sound (cfg : Config) (sd : Discovery) : Prop where
  indexed : sd.Indexed cfg
  named : Named sd.serverMapByID

namespace Sound

variable {sd : Discovery} (h : Sound cfg sd) {svType : Bytes}

include h

theorem update {u : Update} {sd' : Discovery} (hupdate : sd.update cfg u = some sd') :
    Sound cfg sd' :=
  ⟨(Discovery.update_spec h.indexed hupdate).indexed, h.named.update hupdate⟩

theorem registered {id : Bytes} (hread : sd.getServersByType svType = .ok servers)
    (hlookup : servers.lookup id = some sv) : sv.typ = svType ∧ sd.getServer sv.id = .ok sv := by
  have htyped : sd.typed svType id = some sv :=
    getServersByType_lookup.mp ⟨servers, hread, hlookup⟩
  obtain ⟨hbyID, htyp⟩ := (h.indexed.byType svType id sv).mp htyped
  obtain rfl := h.indexed.keyed id sv hbyID
  exact ⟨htyp, getServer_eq_ok.mpr hbyID⟩

theorem node_ne_nil {id : Bytes} (hnode : id ∈ sd.nodes svType) : id ≠ [] := by
  obtain ⟨-, sv, hlookup, -⟩ := (h.indexed.byNode svType id).mp hnode
  rw [← h.indexed.keyed id sv hlookup]
  exact h.named id sv hlookup

end Sound

/-- The call has read `servers` at one of its moments and picked `server`. -/
def Picked (svType : Bytes) (moments : List Discovery) (servers : Servers) (server : Server) :
    Prop :=
  ∃ sd ∈ moments, sd.getServersByType svType = .ok servers ∧ ∃ id, servers.lookup id = some server

/-- The ways to return: without servers, before the second read, and after it. -/
inductive Returned (svType : Bytes) (session : Option Session) (moments : List Discovery) :
    Servers → Option Bytes → Except RouteError Server → Prop where
  | unavailable {sd : Discovery} (moment : sd ∈ moments) {e : Discovery.LookupError}
      (lookup : sd.getServersByType svType = .error e) :
      Returned svType session moments ∅ none (.error (.lookup e))
  | early {servers : Servers} {server : Server} (picked : Picked svType moments servers server)
      {result : Except RouteError Server}
      (early : defaultRoute svType servers session server = .returns result) :
      Returned svType session moments servers none result
  | random {servers : Servers} {server : Server} (picked : Picked svType moments servers server) :
      Returned svType session moments servers none (.ok server)
  | node {servers : Servers} {server : Server} (picked : Picked svType moments servers server)
      (asking : Session) {sd : Discovery} (moment : sd ∈ moments) {id : Bytes}
      (node : id ∈ sd.nodes svType) :
      Returned svType session moments servers (some id) (find svType servers asking server id)

/-- What is known of a call. -/
structure Known (cfg : Config) (svType : Bytes) (session : Option Session) (s : State) : Prop where
  sound : Sound cfg s.sd
  moments : ∀ sd ∈ s.moments, Sound cfg sd
  current : s.point.underWay = true → s.sd ∈ s.moments
  asking : ∀ servers asking server key, s.point = .asking servers asking server key →
    Picked svType s.moments servers server
  returned : ∀ servers node result, s.point = .returned servers node result →
    Returned svType session s.moments servers node result

namespace Known

variable {svType : Bytes} {session : Option Session} {s : State}

theorem start : Known cfg svType session {} where
  sound := ⟨Discovery.indexed_start cfg, Named.empty⟩
  moments sd h := by cases h
  current h := by cases h
  asking _ _ _ _ h := by cases h
  returned _ _ _ h := by cases h

section

variable (h : Known cfg svType session s)
include h

theorem updated (hsd : Sound cfg sd) : Known cfg svType session (s.updated sd) := by
  cases hpoint : s.point.underWay with
  | false =>
    have hs : s.updated sd = { s with sd } := by simp [State.updated, hpoint]
    rw [hs]
    exact ⟨hsd, h.moments, fun hway => (Bool.false_ne_true (hpoint.symm.trans hway)).elim,
      h.asking, h.returned⟩
  | true =>
    have hs : s.updated sd = { s with sd, moments := s.moments ++ [sd] } := by
      simp [State.updated, hpoint]
    rw [hs]
    refine ⟨hsd, fun sd' hmem => ?_, fun _ => List.mem_append_right _ (List.mem_singleton_self sd),
      fun servers asking server key hasking => ?_, fun _ _ _ hreturned => ?_⟩
    · rcases List.mem_append.mp hmem with hmem | hmem
      · exact h.moments sd' hmem
      · rw [List.mem_singleton.mp hmem]
        exact hsd
    · obtain ⟨sd', hmem, hread⟩ := h.asking servers asking server key hasking
      exact ⟨sd', List.mem_append_left _ hmem, hread⟩
    · have hway : s.point = .returned _ _ _ := hreturned
      rw [hway] at hpoint
      cases hpoint

theorem returns {result : Except RouteError Server}
    (hreturned : Returned svType session s.moments servers node result) :
    Known cfg svType session { s with point := .returned servers node result } where
  sound := h.sound
  moments := h.moments
  current hway := by cases hway
  asking _ _ _ _ hasking := by cases hasking
  returned _ _ _ hpoint := by
    cases hpoint
    exact hreturned

theorem picked (hway : s.point.underWay = true) {server : Server}
    (hpicked : Picked svType s.moments servers server) :
    Known cfg svType session (s.picked svType session servers server) := by
  unfold State.picked
  cases hnext : defaultRoute svType servers session server with
  | returns => exact h.returns (.early hpicked hnext)
  | asks =>
    exact ⟨h.sound, h.moments, fun _ => h.current hway,
      fun _ _ _ _ hasking => by cases hasking; exact hpicked, fun _ _ _ hpoint => by cases hpoint⟩

theorem answered {asking : Session} {server : Server} {key : Bytes}
    (hpoint : s.point = .asking servers asking server key)
    (hanswers : Answers (s.sd.nodes svType) node) : Returned svType session s.moments servers
      (s.sd.getConsistentHashNode svType key node).toOption
      (resume svType servers asking server (s.sd.getConsistentHashNode svType key node)) := by
  have hpicked := h.asking servers asking server key hpoint
  have hmoment : s.sd ∈ s.moments := h.current (by rw [hpoint]; rfl)
  have hnode := toOption_getConsistentHashNode key hanswers
  cases hanswer : s.sd.getConsistentHashNode svType key node with
  | error => exact .random hpicked
  | ok id =>
    rw [hanswer] at hnode
    obtain rfl : some id = node := hnode
    exact .node hpicked asking hmoment hanswers

theorem step {op : Op} {s' : State} (hstep : s.step cfg svType session op = some s') :
    Known cfg svType session s' := by
  cases op with
  | update =>
    obtain ⟨sd, hupdate, rfl⟩ := map_eq_some_iff.mp hstep
    exact h.updated (h.sound.update hupdate)
  | call =>
    dsimp only [State.step] at hstep
    split at hstep
    · cases hstep
      refine ⟨h.sound, fun sd hmem => ?_, fun _ => List.mem_singleton_self _,
        fun _ _ _ _ hasking => (by cases hasking), fun _ _ _ hreturned => (by cases hreturned)⟩
      rw [List.mem_singleton.mp hmem]
      exact h.sound
    · cases hstep
  | getServersByType pick =>
    dsimp only [State.step] at hstep
    split at hstep
    · next hpoint =>
      have hway : s.point.underWay = true := by rw [hpoint]; rfl
      split at hstep
      · next e hlookup =>
        cases hstep
        exact h.returns (.unavailable (h.current hway) hlookup)
      · next servers hread =>
        obtain ⟨server, hserver, rfl⟩ := map_eq_some_iff.mp hstep
        exact h.picked hway ⟨s.sd, h.current hway, hread, pick, hserver⟩
    · cases hstep
  | getConsistentHashNode =>
    dsimp only [State.step] at hstep
    split at hstep
    · next hpoint =>
      obtain ⟨hanswers, ⟨⟩⟩ := ite_none_right_eq_some.mp hstep
      exact h.returns (h.answered hpoint hanswers)
    · cases hstep

end

theorem run {events : List Op} (hrun : (call cfg svType session).run events = some s) :
    Known cfg svType session s :=
  run_induction (P := fun _ s => Known cfg svType session s) start
    (fun _ _ _ _ _ h hstep => h.step hstep) hrun

end Known

/-! ## What a call returns -/

variable {svType : Bytes}

/-- Some server of the type is registered all the time. -/
def Present (svType : Bytes) (moments : List Discovery) : Prop :=
  ∃ id, ∀ sd ∈ moments, (sd.typed svType id).isSome = true

/-- The servers of the type are neither frontends nor bound to sessions. -/
def Stateless (svType : Bytes) (moments : List Discovery) : Prop :=
  ∀ sd ∈ moments, ∀ id sv, sd.typed svType id = some sv →
    sv.frontend = false ∧ sv.sessionStickiness = false

theorem stateless_iff {moments : List Discovery} :
    Stateless svType moments ↔ ∀ sd ∈ moments,
      ∀ id ∈ ((sd.serverMapByType.lookup svType).getD ∅).keys,
        (sd.typed svType id).all (fun sv => !sv.frontend && !sv.sessionStickiness) = true := by
  refine forall₂_congr fun sd _ => forall_congr' fun id => ?_
  unfold Discovery.typed
  cases sd.serverMapByType.lookup svType with
  | none => simp
  | some m =>
    cases hlookup : m.lookup id with
    | none => simp [hlookup]
    | some =>
      have hmem : id ∈ m := mem_of_lookup_eq_some hlookup
      simp [hlookup, mem_keys, hmem]

instance (moments : List Discovery) : Decidable (Stateless svType moments) :=
  decidable_of_iff' _ stateless_iff

/-- The result is a server of the type that was registered at a moment of the call. -/
def Served (svType : Bytes) (moments : List Discovery) (result : Except RouteError Server) : Prop :=
  ∃ sv, result = .ok sv ∧ sv.typ = svType ∧ ∃ sd ∈ moments, sd.getServer sv.id = .ok sv

variable {session : Option Session} {events : List Op}

/-- **The condition.**  The node that the ring names is a server that the call has read. -/
def NodeRead (s : State) (op : Op) : Prop :=
  match op, s.point with
  | .getConsistentHashNode (some id), .asking servers _ _ _ => id ∈ servers
  | _, _ => True

instance (s : State) : ∀ op, Decidable (NodeRead s op)
  | .update _ | .call | .getServersByType _ | .getConsistentHashNode none =>
    inferInstanceAs (Decidable True)
  | .getConsistentHashNode (some id) =>
    match hpoint : s.point with
    | .asking servers _ _ _ => decidable_of_iff (id ∈ servers) (by simp [NodeRead, hpoint])
    | .idle | .called | .returned .. => isTrue (by simp [NodeRead, hpoint])

/-- The node that was named, once the call has returned, is in the map it was looked up in. -/
def Point.Found : Point → Prop
  | .returned servers node _ => ∀ id, node = some id → id ∈ servers
  | _ => True

theorem found_step {s s' : State} {op : Op} (h : s.step cfg svType session op = some s') :
    s'.point.Found ↔ s.point.Found ∧ NodeRead s op := by
  cases op with
  | update =>
    obtain ⟨sd, -, rfl⟩ := map_eq_some_iff.mp h
    exact (and_iff_left trivial).symm
  | call =>
    dsimp only [State.step] at h
    split at h
    · next hpoint =>
      cases h
      rw [hpoint]
      exact iff_of_true trivial ⟨trivial, trivial⟩
    · cases h
  | getServersByType =>
    dsimp only [State.step] at h
    split at h
    · next hpoint =>
      rw [hpoint]
      refine iff_of_true ?_ ⟨trivial, trivial⟩
      split at h
      · cases h
        exact nofun
      · next servers _ =>
        obtain ⟨server, -, rfl⟩ := map_eq_some_iff.mp h
        unfold State.picked
        split
        · exact nofun
        · exact trivial
    · cases h
  | getConsistentHashNode node =>
    dsimp only [State.step] at h
    split at h
    · next servers asking server key hpoint =>
      obtain ⟨hanswers, ⟨⟩⟩ := ite_none_right_eq_some.mp h
      rw [hpoint]
      show (∀ id, (s.sd.getConsistentHashNode svType key node).toOption = some id →
        id ∈ servers) ↔ _
      rw [toOption_getConsistentHashNode key hanswers]
      cases node with
      | none | some => simp [Point.Found, NodeRead, hpoint]
    · cases h

theorem found_iff_meets {s : State} (hrun : (call cfg svType session).run events = some s) :
    s.point.Found ↔ (call cfg svType session).Meets NodeRead events := by
  apply run_induction ?_ ?_ hrun
  · refine iff_of_true trivial fun before e after s hsplit _ => ?_
    cases List.append_ne_nil_of_right_ne_nil before (List.cons_ne_nil e after) hsplit.symm
  · intro events op s s' hrun h hstep
    rw [meets_concat_iff hrun, ← h]
    exact found_step hstep

/-- **Routing** while the service discovery changes.  The call of a session with a uid, to a
type of stateless servers one of which is present all the time, returns a server of the type
that was registered meanwhile if and only if the node of the consistent hash is a server that
`GetServersByType` had read before. -/
theorem route_iff (cfg : Config) (svType : Bytes) (session : Session) (huid : session.uid ≠ [])
    (events : List Op) (s : State) (hrun : (call cfg svType (some session)).run events = some s)
    (servers : Servers) (node : Option Bytes) (result : Except RouteError Server)
    (hreturned : s.point = .returned servers node result) (hpresent : Present svType s.moments)
    (hstateless : Stateless svType s.moments) :
    Served svType s.moments result ↔
      (call cfg svType (some session)).Meets NodeRead events := by
  rw [← found_iff_meets hrun, hreturned]
  show _ ↔ ∀ svId, node = some svId → svId ∈ servers
  have hknown := Known.run hrun
  -- the random server is stateless, so the consistent hash is asked
  have hasks {server : Server} (hpicked : Picked svType s.moments servers server) :
      defaultRoute svType servers (some session) server = .asks session session.uid := by
    obtain ⟨sd, hmem, hread, id, hlookup⟩ := hpicked
    obtain ⟨hfrontend, hsticky⟩ :=
      hstateless sd hmem id server (getServersByType_lookup.mp ⟨servers, hread, hlookup⟩)
    simp [defaultRoute, hfrontend, hsticky, Session.hashKey, huid]
  have hserved {id : Bytes} {server sv : Server} (hpicked : Picked svType s.moments servers server)
      (hlookup : servers.lookup id = some sv) : Served svType s.moments (.ok sv) := by
    obtain ⟨sd, hmem, hread, -⟩ := hpicked
    obtain ⟨htyp, hregistered⟩ := (hknown.moments sd hmem).registered hread hlookup
    exact ⟨sv, rfl, htyp, sd, hmem, hregistered⟩
  cases hknown.returned servers node result hreturned with
  | unavailable hmem hlookup =>
    obtain ⟨id, hid⟩ := hpresent
    obtain ⟨sv, hsv⟩ := Option.isSome_iff_exists.mp (hid _ hmem)
    obtain ⟨m, hm, -⟩ := getServersByType_lookup.mpr hsv
    cases hm.symm.trans hlookup
  | early hpicked hearly =>
    cases (hasks hpicked).symm.trans hearly
  | random hpicked =>
    obtain ⟨id, hlookup⟩ := hpicked.choose_spec.2.2
    exact iff_of_true (hserved hpicked hlookup) fun _ hnone => by cases hnone
  | @node _ server hpicked asking sd hmem id hnode =>
    have hid : id ≠ [] := (hknown.moments sd hmem).node_ne_nil hnode
    rw [find, if_pos hid]
    cases hlookup : servers.lookup id with
    | none =>
      refine iff_of_false ?_ fun hall => ?_
      · rintro ⟨sv, hsv, -⟩
        cases hsv
      · exact Finmap.lookup_eq_none.mp hlookup (hall id rfl)
    | some =>
      refine iff_of_true (hserved hpicked hlookup) ?_
      rintro svId ⟨⟩
      exact Finmap.mem_of_lookup_eq_some hlookup

/-- The registration of a server of type "a". -/
def registers (id : UInt8) (revision : ℕ) : Update :=
  .watchResponse [⟨getKey [id] [97], some [97, id], revision⟩]

/-- User "1". -/
def user : Session := { uid := [49] }

/-- The returned state meets the assumptions, with "x" present, and the call returned `result`. -/
def returnedWith (node : Bytes) (result : Except RouteError Server) (s : State) : Bool :=
  match s.point with
  | .returned _ node' result' =>
    decide (node' = some node ∧ result' = result ∧
      (∀ sd ∈ s.moments, (sd.typed [97] [120]).isSome = true) ∧ Stateless [97] s.moments)
  | _ => false

theorem exists_of_returnedWith {node : Bytes} {result : Except RouteError Server}
    {P : State → Servers → Prop}
    (h : ∃ s, (call twoByteConfig [97] (some user)).run events = some s ∧
      returnedWith node result s = true)
    (hP : ∀ s servers, (call twoByteConfig [97] (some user)).run events = some s →
      s.point = .returned servers (some node) result → Present [97] s.moments →
        Stateless [97] s.moments → P s servers) :
    ∃ s servers, (call twoByteConfig [97] (some user)).run events = some s ∧ P s servers := by
  obtain ⟨s, hrun, htest⟩ := h
  unfold returnedWith at htest
  split at htest
  · next servers _ _ hpoint =>
    obtain ⟨rfl, rfl, hpresent, hstateless⟩ := of_decide_eq_true htest
    exact ⟨s, servers, hrun, hP s servers hrun hpoint ⟨[120], hpresent⟩ hstateless⟩
  · cases htest

/-- "y" registers before the first read, and "x" is found although "y" goes away. -/
theorem route_iff_removed : ∃ s servers,
    (call twoByteConfig [97] (some user)).run
      [.update (registers 120 1), .update (registers 121 2), .call, .getServersByType [121],
        .update (.watchResponse [⟨getKey [121] [97], none, 3⟩]),
        .getConsistentHashNode (some [120])] = some s ∧
    s.point = .returned servers (some [120]) (.ok (Server.fix { id := [120], typ := [97] })) ∧
    Served [97] s.moments (.ok (Server.fix { id := [120], typ := [97] })) := by
  exact exists_of_returnedWith (by decide +kernel) fun s servers hrun hpoint hpresent hstateless =>
    ⟨hpoint, (route_iff twoByteConfig [97] user (by decide) _ s hrun servers _ _ hpoint hpresent
      hstateless).mpr (System.meets_of_meetsFrom (by decide +kernel))⟩

/-- "x" is registered all the time.  "y" registers after the servers were read, the consistent
hash names it, and the call fails. -/
theorem added_between : ∃ s servers,
    (call twoByteConfig [97] (some user)).run
      [.update (registers 120 1), .call, .getServersByType [120], .update (registers 121 2),
        .getConsistentHashNode (some [121])] = some s ∧
    Present [97] s.moments ∧ Stateless [97] s.moments ∧
    s.point = .returned servers (some [121]) (.error (.serverNotFound [49] [97] [121])) := by
  exact exists_of_returnedWith (by decide +kernel) fun s servers _ hpoint hpresent hstateless =>
    ⟨hpresent, hstateless, hpoint⟩

end Pitaya.Router
