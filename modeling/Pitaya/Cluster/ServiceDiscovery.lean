import Pitaya.Foundations.ByteString
import Pitaya.Foundations.Ranges
import Pitaya.Foundations.Revisions
import Pitaya.Foundations.Transition

/-!
# Service discovery over etcd

`cluster/etcd_service_discovery.go`: the cache of the servers registered in etcd, how
a snapshot of etcd and the responses of a watch change it, and the loop that restarts
the watch.

* `Server`, `parseEtcdKey`, `parseServer` — registrations and how they are read.
* `Discovery` — the cache: by id, by type, and the nodes of the consistent hashes; and
  `appliedRevision`.
* `syncServersLocked`, `applyWatchResponse` — the two ways in which it changes.
* `State`, `Op`, `step`, `discovery` — the runs: calls of `SyncServers`, and the loop
  `watchEtcdChanges`.  `reconcileMu` makes the calls atomic.  The loop reads
  `appliedRevision` under it and opens the watch later.

etcd is a `Revisions.History` of the keys below `servers/`.  A step is possible if etcd
can answer so: a snapshot is the whole store at its revision, whichever that is, and a
watch delivers as `Revisions.Delivers` says.  A response without events is the one that
says the watch is created, or a progress notification.  The order in which a loop
visits a Go map is open.

Leases, the election and the log are left out; `hash.ConsistentHash` is the set of its
nodes.
-/

namespace Pitaya.Cluster

open Ranges Revisions

/-! ## Registrations -/

structure SubscribeItem where
  fork : Bool
  deriving DecidableEq, Repr

/-- `Server`; `none` is the nil map. -/
structure Server where
  id : Bytes
  typ : Bytes
  metadata : Option (Finmap fun _ : Bytes => Bytes) := none
  frontend : Bool := false
  hostname : Bytes := []
  sessionStickiness : Bool := false
  subscribe : Option (Finmap fun _ : Bytes => Option SubscribeItem) := none
  deriving DecidableEq

def Server.fix (s : Server) : Server :=
  { s with metadata := some (s.metadata.getD ∅), subscribe := some (s.subscribe.getD ∅) }

/-- Why a registration is not read. -/
inductive RegistrationError where
  /-- "error parsing etcd key %s (server name can't contain /)". -/
  | key (key : Bytes)
  /-- An error of `json.Unmarshal`. -/
  | json (text : Bytes)
  /-- "invalid server registration". -/
  | invalid
  /-- "registration does not match key %s". -/
  | mismatch (key : Bytes)
  deriving DecidableEq, Repr

/-- The separator of etcd keys, "/". -/
def separator : UInt8 := 47

/-- The directory of the registrations, "servers". -/
def directory : Bytes := [115, 101, 114, 118, 101, 114, 115]

/-- `getKey`: "servers/%s/%s". -/
def getKey (serverID serverType : Bytes) : Bytes :=
  directory ++ separator :: serverType ++ separator :: serverID

/-- `parseEtcdKey`: the type and the id. -/
def parseEtcdKey (key : Bytes) : Except RegistrationError (Bytes × Bytes) :=
  match key.splitOn separator with
  | [first, typ, id] =>
    if first ≠ directory ∨ typ = [] ∨ id = [] then .error (.key key) else .ok (typ, id)
  | _ => .error (.key key)

/-- What a service discovery is configured with; `unmarshal` is `json.Unmarshal` into a
`*Server`. -/
structure Config where
  server : Server
  serverTypesBlacklist : List Bytes := []
  unmarshal : Bytes → Except Bytes (Option Server)

variable (cfg : Config)

def parseServer (value : Bytes) : Except RegistrationError Server :=
  match cfg.unmarshal value with
  | .error text => .error (.json text)
  | .ok none => .error .invalid
  | .ok (some sv) => if sv.id = [] ∨ sv.typ = [] then .error .invalid else .ok sv.fix

/-- The server registered under a key, which names its type and id. -/
def readRegistration (key typ id value : Bytes) : Except RegistrationError Server :=
  match parseServer cfg value with
  | .error e => .error e
  | .ok sv => if sv.id ≠ id ∨ sv.typ ≠ typ then .error (.mismatch key) else .ok sv

def isServerTypeBlacklisted (svType : Bytes) : Bool :=
  cfg.serverTypesBlacklist.any fun blacklisted => blacklisted == svType

/-- The registrations that are left out: those of a blacklisted type, except the
server's own. -/
def hidden (typ id : Bytes) : Bool :=
  isServerTypeBlacklisted cfg typ && id != cfg.server.id

/-! ## The cache -/

inductive Action where
  | add
  | del
  | modify
  deriving DecidableEq, Repr

structure ServerChange where
  action : Action
  server : Server
  old : Option Server := none
  deriving DecidableEq

/-- The part of `etcdServiceDiscovery` that is reconciled with etcd, and the changes its
listeners were told. -/
structure Discovery where
  serverMapByID : Finmap fun _ : Bytes => Server := ∅
  serverMapByType : Finmap (fun _ : Bytes => Finmap fun _ : Bytes => Server) := ∅
  consistentHash : Finmap fun _ : Bytes => Finset Bytes := ∅
  appliedRevision : ℕ := 0
  /-- `sd.ctx.Err() != nil`. -/
  cancelled : Bool := false
  notified : List ServerChange := []

namespace Discovery

/-- "No servers available of this type" and "can't find any server with the provided
ID". -/
inductive LookupError where
  | noServersAvailableOfType
  | noServerWithID (id : Bytes)
  deriving DecidableEq, Repr

variable (sd : Discovery)

def getServer (id : Bytes) : Except LookupError Server :=
  match sd.serverMapByID.lookup id with
  | some sv => .ok sv
  | none => .error (.noServerWithID id)

/-- `GetServers`, in no order. -/
def getServers : Multiset Server := sd.serverMapByID.values

def getServersByType (serverType : Bytes) :
    Except LookupError (Finmap fun _ : Bytes => Server) :=
  match sd.serverMapByType.lookup serverType with
  | some m => if 0 < m.size then .ok m else .error .noServersAvailableOfType
  | none => .error .noServersAvailableOfType

variable (sv : Server)

def removeServerLocked : Discovery × ServerChange :=
  ({ sd with
      serverMapByID := sd.serverMapByID.erase sv.id
      serverMapByType :=
        match sd.serverMapByType.lookup sv.typ with
        | none => sd.serverMapByType
        | some m => sd.serverMapByType.insert sv.typ (m.erase sv.id)
      consistentHash :=
        match sd.consistentHash.lookup sv.typ with
        | none => sd.consistentHash
        | some h => sd.consistentHash.insert sv.typ (h.erase sv.id) },
    { action := .del, server := sv })

/-- `storeServerLocked`, first part: an id that comes back under another type leaves the
old one. -/
def leaveType : Discovery :=
  match sd.serverMapByID.lookup sv.id with
  | none => sd
  | some previous => if previous.typ ≠ sv.typ then (sd.removeServerLocked previous).1 else sd

/-- `storeServerLocked`, second part: into the maps and the consistent hash. -/
def place : Discovery :=
  { sd with
    serverMapByID := sd.serverMapByID.insert sv.id sv
    serverMapByType :=
      sd.serverMapByType.insert sv.typ
        (((sd.serverMapByType.lookup sv.typ).getD ∅).insert sv.id sv)
    consistentHash :=
      if sv.id ≠ cfg.server.id then
        sd.consistentHash.insert sv.typ
          (insert sv.id ((sd.consistentHash.lookup sv.typ).getD ∅))
      else sd.consistentHash }

def storeServerLocked : Discovery × ServerChange :=
  ((sd.leaveType sv).place cfg sv,
    match sd.serverMapByID.lookup sv.id with
    | none => { action := .add, server := sv }
    | some previous => { action := .modify, server := sv, old := some previous })

def notifyChanges (changes : List ServerChange) : Discovery :=
  { sd with
    notified := sd.notified ++ changes.filter fun change =>
      change.action = .del ∨ change.server.id ≠ cfg.server.id }

/-! ## Snapshots -/

/-- The answer to a prefix `Get`. -/
structure Snapshot where
  revision : ℕ
  kvs : List (Bytes × Bytes)
  deriving DecidableEq, Repr

/-- The errors of `SyncServers`. -/
inductive SyncError where
  | etcd (text : Bytes)
  | contextCanceled
  deriving DecidableEq, Repr

variable (servers : Finmap fun _ : Bytes => Server)

/-- One turn of the loop over `snapshot.Kvs`; a registration that cannot be read keeps
its last valid value. -/
def readKv (kv : Bytes × Bytes) :
    Finmap fun _ : Bytes => Server :=
  match parseEtcdKey kv.1 with
  | .error _ => servers
  | .ok (typ, id) =>
    if hidden cfg typ id then servers
    else
      match readRegistration cfg kv.1 typ id kv.2 with
      | .ok sv => servers.insert id sv
      | .error _ =>
        match sd.serverMapByID.lookup id with
        | some old => servers.insert id old
        | none => servers

/-- The servers of a snapshot. -/
def readSnapshot (kvs : List (Bytes × Bytes)) :
    Finmap fun _ : Bytes => Server :=
  kvs.foldl (readKv cfg sd) ∅

variable (st : Discovery × List ServerChange)

/-- One turn of the loop that stores the servers of a snapshot. -/
def storeVisit (id : Bytes) : Discovery × List ServerChange :=
  match servers.lookup id with
  | none => st
  | some sv =>
    if st.1.serverMapByID.lookup id = some sv then st
    else
      let r := st.1.storeServerLocked cfg sv
      (r.1, st.2 ++ [r.2])

/-- One turn of the loop that removes the servers a snapshot does not have. -/
def removeVisit (id : Bytes) : Discovery × List ServerChange :=
  match st.1.serverMapByID.lookup id with
  | none => st
  | some value =>
    if (servers.lookup id).isSome then st
    else
      let r := st.1.removeServerLocked value
      (r.1, st.2 ++ [r.2])

/-- `syncServersLocked`, with the orders of its two loops; `none` if they are not
possible. -/
def syncServersLocked (sd : Discovery) (reply : Except Bytes Snapshot)
    (stores removes : List Bytes) : Option (Discovery × Except SyncError Unit) :=
  match reply with
  | .error text => some (sd, .error (.etcd text))
  | .ok snapshot =>
    if sd.cancelled then some (sd, .error .contextCanceled)
    else if snapshot.revision < sd.appliedRevision then some (sd, .ok ())
    else
      let servers := readSnapshot cfg sd snapshot.kvs
      let stored := stores.foldl (storeVisit cfg servers) (sd, [])
      let removed := removes.foldl (removeVisit servers) stored
      if VisitsKeys servers stores ∧ VisitsKeys stored.1.serverMapByID removes then
        some (({ removed.1 with appliedRevision := snapshot.revision }).notifyChanges cfg
          removed.2, .ok ())
      else none

/-! ## Watch responses -/

/-- The variables of the loop of `applyWatchResponse`. -/
structure Batch where
  sd : Discovery
  revision : ℕ
  changes : List ServerChange := []

/-- What one event does to the cache. -/
def applyEvent (b : Batch) (e : Event Bytes Bytes) : Batch :=
  match parseEtcdKey e.key with
  | .error _ => b
  | .ok (typ, id) =>
    if hidden cfg typ id then b
    else
      match e.change with
      | some value =>
        match readRegistration cfg e.key typ id value with
        | .error _ => b
        | .ok sv =>
          let r := b.sd.storeServerLocked cfg sv
          { b with sd := r.1, changes := b.changes ++ [r.2] }
      | none =>
        match b.sd.serverMapByID.lookup id with
        | none => b
        | some old =>
          let r := b.sd.removeServerLocked old
          { b with sd := r.1, changes := b.changes ++ [r.2] }

/-- One turn of the loop: events up to the boundary are skipped. -/
def watchVisit (boundary : ℕ) (b : Batch) (e : Event Bytes Bytes) : Batch :=
  if e.modRevision ≤ boundary then b
  else applyEvent cfg { b with revision := max b.revision e.modRevision } e

def applyWatchResponse (events : List (Event Bytes Bytes)) : Discovery :=
  if sd.cancelled then sd
  else
    let b := events.foldl (watchVisit cfg sd.appliedRevision) ⟨sd, sd.appliedRevision, []⟩
    ({ b.sd with appliedRevision := b.revision }).notifyChanges cfg b.changes

end Discovery

/-! ## Runs -/

/-- Where `watchEtcdChanges` is. -/
inductive Watch where
  /-- Before the snapshot. -/
  | idle
  /-- Before `Watch` is called, for the revisions after the one it has read. -/
  | opening (revision : ℕ)
  /-- With an open watch that has delivered everything up to a revision. -/
  | consuming (upTo : ℕ)
  deriving DecidableEq, Repr

/-- The service discovery and its watch loop. -/
structure State where
  sd : Discovery := {}
  watch : Watch := .idle

/-- What can happen next. -/
inductive Op where
  /-- `SyncServers`, called by the ticker or from outside. -/
  | syncServers (reply : Except Bytes Discovery.Snapshot) (stores removes : List Bytes)
  /-- The snapshot at the top of the watch loop. -/
  | resync (reply : Except Bytes Discovery.Snapshot) (stores removes : List Bytes)
  /-- `Watch`. -/
  | openWatch
  /-- A response of the watch, which has then delivered everything up to a revision. -/
  | response (upTo : ℕ) (events : List (Event Bytes Bytes))
  /-- The watch is closed, or failed. -/
  | closeWatch
  /-- `Shutdown`. -/
  | cancel

/-- A snapshot is the whole store at its revision. -/
def Answers (etcd : History Bytes Bytes) : Except Bytes Discovery.Snapshot → Prop
  | .error _ => True
  | .ok snapshot =>
    (snapshot.kvs : Multiset (Bytes × Bytes))
      = (etcd.store snapshot.revision).entries.map fun kv => (kv.1, kv.2)

instance (etcd : History Bytes Bytes) : ∀ reply, Decidable (Answers etcd reply)
  | .error _ => inferInstanceAs (Decidable True)
  | .ok _ => inferInstanceAs (Decidable (_ = _))

/-- One step. -/
def step (etcd : History Bytes Bytes) (s : State) : Op → Option State
  | .syncServers reply stores removes =>
    if Answers etcd reply then
      (s.sd.syncServersLocked cfg reply stores removes).map fun r => { s with sd := r.1 }
    else none
  | .resync reply stores removes =>
    if Answers etcd reply ∧ s.watch = .idle then
      (s.sd.syncServersLocked cfg reply stores removes).map fun r =>
        match r.2 with
        | .ok _ => ⟨r.1, .opening r.1.appliedRevision⟩
        | .error _ => ⟨r.1, .idle⟩
    else none
  | .openWatch =>
    match s.watch with
    | .opening revision => some { s with watch := .consuming revision }
    | _ => none
  | .response upTo events =>
    match s.watch with
    | .consuming pos =>
      if Delivers etcd pos upTo events then
        some ⟨s.sd.applyWatchResponse cfg events, .consuming upTo⟩
      else none
    | _ => none
  | .closeWatch =>
    match s.watch with
    | .consuming _ => some { s with watch := .idle }
    | _ => none
  | .cancel => some { s with sd := { s.sd with cancelled := true } }

/-- The runs of a service discovery against a history of etcd. -/
def discovery (etcd : History Bytes Bytes) : Transition.System State Op where
  start := {}
  step := step cfg etcd

end Pitaya.Cluster
