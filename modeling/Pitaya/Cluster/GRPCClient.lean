import Pitaya.Cluster.Notifications

/-!
# The connections of the gRPC client

`cluster/grpc_rpc_client.go`: `GRPCClient` is a listener of the service discovery and keeps
a client for every server it is told of.

* `getServerHost`, `addServer`, `modifyServer`, `removeServer` — the source's functions.
-/

namespace Pitaya.Cluster

open Transition Finmap List

/-- `GRPCHostKey`, "grpcHost". -/
def grpcHostKey : Bytes := [103, 114, 112, 99, 72, 111, 115, 116]
/-- `GRPCExternalHostKey`, "grpc-external-host". -/
def grpcExternalHostKey : Bytes :=
  [103, 114, 112, 99, 45, 101, 120, 116, 101, 114, 110, 97, 108, 45, 104, 111, 115, 116]
/-- `GRPCPortKey`, "grpcPort". -/
def grpcPortKey : Bytes := [103, 114, 112, 99, 80, 111, 114, 116]
/-- `GRPCExternalPortKey`, "grpc-external-port". -/
def grpcExternalPortKey : Bytes :=
  [103, 114, 112, 99, 45, 101, 120, 116, 101, 114, 110, 97, 108, 45, 112, 111, 114, 116]
/-- `RegionKey`, "region". -/
def regionKey : Bytes := [114, 101, 103, 105, 111, 110]

/-- An entry of the metadata; a nil map has none. -/
def Server.metadataValue (sv : Server) (key : Bytes) : Option Bytes :=
  sv.metadata.bind fun m => m.lookup key

/-- `grpcClient`. -/
structure GrpcConn where
  address : Bytes
  connected : Bool := false
  deriving DecidableEq, Repr

/-- `GRPCClient`, with the region its `infoRetriever` answers. -/
structure GRPCClient where
  region : Bytes
  lazy : Bool := false
  clientMap : Finmap fun _ : Bytes => GrpcConn := ∅

namespace GRPCClient

/-- `getServerHost`: the host and the key of its port. -/
def getServerHost (gs : GRPCClient) (sv : Server) : Bytes × Bytes :=
  let serverRegion := (sv.metadataValue regionKey).getD []
  let externalHost := (sv.metadataValue grpcExternalHostKey).getD []
  let internalHost := (sv.metadataValue grpcHostKey).getD []
  let hasRegion := (sv.metadataValue regionKey).isSome && serverRegion != []
  let hasExternal := (sv.metadataValue grpcExternalHostKey).isSome && externalHost != []
  if !hasRegion then
    if hasExternal then (externalHost, grpcExternalPortKey) else (internalHost, grpcPortKey)
  else if gs.region == serverRegion || !hasExternal then (internalHost, grpcPortKey)
  else (externalHost, grpcExternalPortKey)

/-- `grpcClient.connect`, where `grpc.Dial` answers `dialErr`. -/
def GrpcConn.connect (c : GrpcConn) (dialErr : Option Bytes) : GrpcConn × Option Bytes :=
  if c.connected then (c, none)
  else
    match dialErr with
    | some e => (c, some e)
    | none => ({ c with connected := true }, none)

variable (gs : GRPCClient)

/-- `AddServer`: a client that could not connect is kept, and connects at its first call. -/
def addServer (sv : Server) (dialErr : Option Bytes) : GRPCClient :=
  let (host, portKey) := gs.getServerHost sv
  if host = [] then gs
  else
    match sv.metadataValue portKey with
    | none => gs
    | some port =>
      let client : GrpcConn := { address := host ++ 58 :: port }
      let client := if !gs.lazy then (GrpcConn.connect client dialErr).1 else client
      { gs with clientMap := gs.clientMap.insert sv.id client }

/-- `RemoveServer`; the client is disconnected and dropped. -/
def removeServer (sv : Server) : GRPCClient :=
  match gs.clientMap.lookup sv.id with
  | none => gs
  | some _ => { gs with clientMap := gs.clientMap.erase sv.id }

def modifyServer (_sv : Server) (_old : Option Server) : GRPCClient := gs

/-- A callback of `notifyListeners`, with the answer of the dial it may need. -/
def notify (n : ServerChange × Option Bytes) : GRPCClient :=
  match n.1.action with
  | .del => gs.removeServer n.1.server
  | .add => gs.addServer n.1.server n.2
  | .modify => gs.modifyServer n.1.server n.1.old

/-- The address that a registration gives: a host, and a port under the key that belongs to
it. -/
def usableAddress (sv : Server) : Option Bytes :=
  if (gs.getServerHost sv).1 = [] then none
  else (sv.metadataValue (gs.getServerHost sv).2).map fun port =>
    (gs.getServerHost sv).1 ++ 58 :: port

/-- The map has an entry for exactly the known servers with a usable address, with that
address. -/
def Follows (known : Servers) : Prop :=
  ∀ id, (gs.clientMap.lookup id).map GrpcConn.address = (known.lookup id).bind gs.usableAddress

/-! ## What the callbacks do -/

variable (gs : GRPCClient)

@[simp] theorem connect_address (c : GrpcConn) (dialErr : Option Bytes) :
    (GrpcConn.connect c dialErr).1.address = c.address := by
  unfold GrpcConn.connect
  split
  · rfl
  · cases dialErr <;> rfl

theorem addServer_lookup (sv : Server) (dialErr : Option Bytes) (id : Bytes) :
    ((gs.addServer sv dialErr).clientMap.lookup id).map GrpcConn.address
      = if id = sv.id then (gs.usableAddress sv).or ((gs.clientMap.lookup id).map GrpcConn.address)
        else (gs.clientMap.lookup id).map GrpcConn.address := by
  unfold addServer usableAddress
  dsimp only
  split
  · simp
  · cases sv.metadataValue (gs.getServerHost sv).2 with
    | none => simp
    | some =>
      dsimp only
      by_cases hid : id = sv.id
      · subst hid
        rw [if_pos rfl, lookup_insert]
        cases gs.lazy <;> simp
      · rw [if_neg hid, lookup_insert_of_ne _ hid]

theorem removeServer_lookup (sv : Server) (id : Bytes) :
    (gs.removeServer sv).clientMap.lookup id
      = if id = sv.id then none else gs.clientMap.lookup id := by
  unfold removeServer
  by_cases hid : id = sv.id
  · subst hid
    rw [if_pos rfl]
    split
    · next hlookup => exact hlookup
    · exact lookup_erase _ _
  · rw [if_neg hid]
    split
    · rfl
    · exact lookup_erase_ne hid

@[simp] theorem notify_region (n : ServerChange × Option Bytes) :
    (gs.notify n).region = gs.region := by
  unfold notify
  cases n.1.action with
  | add =>
    dsimp only [addServer]
    split
    · rfl
    · split <;> rfl
  | del =>
    dsimp only [removeServer]
    split <;> rfl
  | modify => rfl

theorem usableAddress_congr {gs gs' : GRPCClient} (h : gs.region = gs'.region) :
    gs.usableAddress = gs'.usableAddress := by
  have hhost : gs.getServerHost = gs'.getServerHost := by
    funext sv
    rw [getServerHost, getServerHost, h]
  funext sv
  rw [usableAddress, usableAddress, hhost]

theorem foldl_notify_region (notes : List (ServerChange × Option Bytes)) :
    (notes.foldl notify gs).region = gs.region :=
  foldlRecOn (motive := fun gs' : GRPCClient => gs'.region = gs.region) notes notify rfl
    fun gs' h n _ => (notify_region gs' n).trans h

variable {gs}

/-- The change leaves the address of its server as it was. -/
def KeepsAddress (gs : GRPCClient) (c : ServerChange) : Prop :=
  c.action = .modify → c.old.bind gs.usableAddress = gs.usableAddress c.server

/-- **A notification** keeps the map right exactly if it does not modify an address. -/
theorem Follows.notify_iff {known : Servers} (h : gs.Follows known)
    {n : ServerChange × Option Bytes} (hfits : n.1.Fits known) :
    (gs.notify n).Follows (n.1.apply known) ↔ gs.KeepsAddress n.1 := by
  unfold Follows
  rw [usableAddress_congr (notify_region gs n)]
  unfold KeepsAddress notify ServerChange.apply
  unfold ServerChange.Fits at hfits
  cases haction : n.1.action with
  | add =>
    rw [haction] at hfits
    refine iff_of_true (fun id => ?_) (fun hmodify => by cases hmodify)
    rw [addServer_lookup]
    by_cases hid : id = n.1.server.id
    · subst hid
      rw [if_pos rfl, lookup_insert, h, hfits, Option.bind_none, Option.or_none]
      rfl
    · rw [if_neg hid, lookup_insert_of_ne _ hid, h]
  | del =>
    refine iff_of_true (fun id => ?_) (fun hmodify => by cases hmodify)
    rw [removeServer_lookup]
    by_cases hid : id = n.1.server.id
    · subst hid
      rw [if_pos rfl, lookup_erase]
      rfl
    · rw [if_neg hid, lookup_erase_ne hid, h]
  | modify =>
    rw [haction] at hfits
    dsimp only [modifyServer]
    constructor
    · intro hafter _
      have hself := hafter n.1.server.id
      rwa [h, hfits.2, lookup_insert] at hself
    · intro hkeeps id
      by_cases hid : id = n.1.server.id
      · subst hid
        rw [lookup_insert, h, hfits.2]
        exact hkeeps rfl
      · rw [lookup_insert_of_ne _ hid, h]

/-- **The gRPC client's map follows the discovery, or not.**  Over every sequence of
notifications each of which fits the servers known by then, the map is right after each
notification if and only if every `Modify` leaves the address of its server as it was. -/
theorem clientMap_follows_iff (region : Bytes) (lazy : Bool)
    (notes : List (ServerChange × Option Bytes)) (known : Servers)
    (hlegal : registry.run (notes.map Prod.fst) = some known) :
    (∀ before, before <+: notes → (before.foldl notify { region := region, lazy := lazy }).Follows
      ((before.map Prod.fst).foldl ServerChange.apply ∅)) ↔
    ∀ n ∈ notes, KeepsAddress { region := region, lazy := lazy } n.1 := by
  induction notes using List.reverseRecOn generalizing known with
  | nil =>
    refine iff_of_true (fun before hbefore => ?_) (fun n hn => absurd hn List.not_mem_nil)
    rw [List.prefix_nil.mp hbefore]
    exact fun id => by simp
  | append_singleton notes n ih =>
    rw [List.map_append] at hlegal
    obtain ⟨known₀, hbefore, hstep⟩ := System.run_concat_eq_some.mp hlegal
    obtain ⟨hfits, -⟩ := registry.step_eq_some.mp hstep
    have hknown : (notes.map Prod.fst).foldl ServerChange.apply ∅ = known₀ :=
      (registry.runFrom_eq_some hbefore).1
    have ih := ih known₀ hbefore
    have hkeeps (c : ServerChange) :
        (notes.foldl notify { region := region, lazy := lazy }).KeepsAddress c
          ↔ KeepsAddress { region := region, lazy := lazy } c := by
      rw [KeepsAddress, usableAddress_congr (foldl_notify_region _ notes)]
      rfl
    have hlast (hfollows : (notes.foldl notify { region := region, lazy := lazy }).Follows
        known₀) := (hfollows.notify_iff hfits).trans (hkeeps n.1)
    simp only [List.prefix_concat_iff, List.mem_append, List.mem_singleton, or_imp,
      forall_and, forall_eq]
    rw [ih, and_comm]
    refine and_congr_right fun hnotes => ?_
    have hfollows := ih.mpr hnotes notes List.prefix_rfl
    rw [hknown] at hfollows
    rw [← hlast hfollows, List.foldl_append, List.map_append, List.foldl_append, hknown]
    rfl

/-- A server "x" of type "b" that listens on a host, at port "1". -/
def listening (host : Bytes) : Server where
  id := [120]
  typ := [98]
  metadata := some ((Finmap.singleton grpcHostKey host).insert grpcPortKey [49])

/-- The same on host "h", with its region "r". -/
def inRegion : Server :=
  { listening [104] with
    metadata := (listening [104]).metadata.map fun m => m.insert regionKey [114] }

/-- The server registers on host "h", and registers again on host "g". -/
def relocated : List (ServerChange × Option Bytes) :=
  [({ action := .add, server := listening [104] }, none),
    ({ action := .modify, server := listening [103], old := some (listening [104]) }, none)]

/-- After the second notification the client still has the old address. -/
theorem relocated_stale : ∃ known, registry.run (relocated.map Prod.fst) = some known ∧
    known.lookup [120] = some (listening [103]) ∧
    usableAddress { region := [] } (listening [103]) = some [103, 58, 49] ∧
    ((relocated.foldl notify { region := [] }).clientMap.lookup [120]).map GrpcConn.address
      = some [104, 58, 49] := by
  decide +kernel

/-- The server registers, registers again with the region it is in, and goes. -/
def relabelled : List (ServerChange × Option Bytes) :=
  [({ action := .add, server := listening [104] }, none),
    ({ action := .modify, server := inRegion, old := some (listening [104]) }, none),
    ({ action := .del, server := inRegion }, none)]

/-- The second registration keeps the address, and the map is right after every notification. -/
theorem clientMap_follows_relabelled : ∃ known,
    registry.run (relabelled.map Prod.fst) = some known ∧
    ((relabelled.take 2).foldl notify { region := [] }).Follows
      (((relabelled.take 2).map Prod.fst).foldl ServerChange.apply ∅) ∧
    ((relabelled.take 2).foldl notify { region := [] }).clientMap.lookup [120] =
      some { address := [104, 58, 49], connected := true } ∧
    (relabelled.foldl notify { region := [] }).Follows
      ((relabelled.map Prod.fst).foldl ServerChange.apply ∅) := by
  obtain ⟨known, hknown⟩ := Option.isSome_iff_exists.mp
    (by decide +kernel : (registry.run (relabelled.map Prod.fst)).isSome)
  have hkeeps : ∀ n ∈ relabelled, KeepsAddress { region := [], lazy := false } n.1 := by
    simp only [relabelled, forall_mem_cons, KeepsAddress]
    decide +kernel
  have hfollows := (clientMap_follows_iff [] false relabelled known hknown).mpr hkeeps
  exact ⟨known, hknown, hfollows _ (List.take_prefix _ _), by decide +kernel,
    hfollows relabelled List.prefix_rfl⟩

/-- Notifications that keep the addresses keep the map right. -/
theorem follows_of_keeps {gs : GRPCClient} (hstart : gs.clientMap = ∅)
    {notes : List (ServerChange × Option Bytes)} {known : Servers}
    (hlegal : registry.run (notes.map Prod.fst) = some known)
    (hkeeps : ∀ n ∈ notes, gs.KeepsAddress n.1) : (notes.foldl notify gs).Follows known := by
  induction notes using reverseRecOn generalizing known with
  | nil =>
    cases hlegal
    intro id
    rw [foldl_nil, hstart]
    rfl
  | append_singleton notes n ih =>
    rw [map_append] at hlegal
    obtain ⟨known₀, hbefore, hstep⟩ := System.run_concat_eq_some.mp hlegal
    obtain ⟨hfits, rfl⟩ := registry.step_eq_some.mp hstep
    rw [forall_mem_append, forall_mem_singleton] at hkeeps
    rw [foldl_append]
    refine ((ih hbefore hkeeps.1).notify_iff hfits).mpr ?_
    rw [KeepsAddress, usableAddress_congr (foldl_notify_region gs notes)]
    exact hkeeps.2

/-- A client that has no connection to the own server is left alone by what it is told of it. -/
theorem foldl_notify_others {own : Bytes} {notes : List (ServerChange × Option Bytes)}
    (hown : ∀ n ∈ notes, n.1.action = .del ∨ n.1.server.id ≠ own) {gs : GRPCClient}
    (hnone : gs.clientMap.lookup own = none) :
    notes.foldl notify gs = (notes.filter fun n => n.1.server.id ≠ own).foldl notify gs := by
  induction notes generalizing gs with
  | nil => rfl
  | cons n notes ih =>
    rw [forall_mem_cons] at hown
    by_cases hid : n.1.server.id = own
    · have hsame : gs.notify n = gs := by
        rw [notify, hown.1.resolve_right (not_not.mpr hid)]
        dsimp only [removeServer]
        rw [hid, hnone]
      rw [filter_cons_of_neg (by simpa using hid), foldl_cons, hsame, ih hown.2 hnone]
    · rw [filter_cons_of_pos (by simpa using hid), foldl_cons, foldl_cons]
      have hkept : ((gs.notify n).clientMap.lookup own).map GrpcConn.address = none := by
        unfold notify
        cases n.1.action with
        | add => rw [addServer_lookup, if_neg (Ne.symm hid), hnone, Option.map_none]
        | del => rw [removeServer_lookup, if_neg (Ne.symm hid), hnone, Option.map_none]
        | modify =>
          dsimp only [modifyServer]
          rw [hnone, Option.map_none]
      exact ih hown.2 (Option.map_eq_none_iff.mp hkept)

open Delivery in
/-- **The connections follow the cache.**  The client of a listener that registered before the first
synchronisation has, whenever no notification is under way, a connection for exactly the other
servers of the cache that can be connected to, unless a registration has changed its address. -/
theorem connections_follow (cfg : Config) (first second : List Delivery.Op) (s₀ s : Delivery)
    (l : ℕ) (hfirst : (deliveries cfg).run first = some s₀)
    (hbefore : ∀ op ∈ first, op.synchronises = false) (hl : l < s₀.listeners)
    (hrun : (deliveries cfg).run (first ++ second) = some s) (hidle : s.Idle)
    (gs : GRPCClient) (hstart : gs.clientMap = ∅) (notes : List (ServerChange × Option Bytes))
    (hnotes : notes.map Prod.fst = told l s.called) (hkeeps : ∀ n ∈ notes, gs.KeepsAddress n.1) :
    (notes.foldl notify gs).Follows (s.sd.serverMapByID.erase cfg.server.id) := by
  rw [System.run_append, hfirst, Option.bind_some] at hrun
  have hfollows := (follows_of_registered hfirst hbefore hl).run hrun
  have hown : ∀ n ∈ notes, n.1.action = .del ∨ n.1.server.id ≠ cfg.server.id := by
    intro n hn
    refine hfollows.own n.1 ?_
    rw [announced_of_idle hidle, ← hnotes]
    exact mem_map_of_mem hn
  have hothers : (notes.filter fun n => n.1.server.id ≠ cfg.server.id).map Prod.fst =
      s.heard cfg l := by
    rw [heard, ← hnotes, others, filter_map]
    rfl
  rw [foldl_notify_others hown (hstart ▸ lookup_empty _)]
  exact follows_of_keeps hstart (hothers ▸ hfollows.replays_heard hidle)
    fun n hn => hkeeps n (mem_of_mem_filter hn)

/-- A service discovery for which a registration is that of its own server "s" or that of
`listening` on host "h". -/
def listeningConfig : Config :=
  { twoByteConfig with
    unmarshal := fun value => .ok (some
      (if value = [115] then twoByteConfig.server else listening [104])) }

/-- The own server and the other one register, and the own one goes; the client is told of the
other one and of the removal. -/
def introduced : List Delivery.Op :=
  [.update (.watchResponse [⟨getKey [115] [98], some [115], 1⟩, ⟨getKey [120] [98], some [], 1⟩]),
    .notifyListeners, .callback,
    .update (.watchResponse [⟨getKey [115] [98], none, 2⟩]), .notifyListeners, .callback]

theorem connections_follow_introduced : ∃ s,
    (deliveries listeningConfig).run ([.addListener] ++ introduced) = some s ∧
    (((Delivery.told 0 s.called).map (·, none)).foldl notify { region := [] }).Follows
      (s.sd.serverMapByID.erase [115]) ∧
    s.Idle ∧ s.sd.getServer [120] = .ok (Server.fix (listening [104])) ∧
    (Delivery.told 0 s.called).map ServerChange.action = [.add, .del] := by
  refine reaches_and (by decide +kernel) fun s hs ⟨hidle, _, htold⟩ => ?_
  refine connections_follow listeningConfig [.addListener] introduced
    { listeners := 1 } s 0 rfl (by decide) Nat.one_pos hs hidle _ rfl _ ?_ ?_
  · rw [map_map]
    exact map_id _
  · intro n hn hmodify
    obtain ⟨c, hc, rfl⟩ := mem_map.mp hn
    have haction : c.action ∈ [Action.add, Action.del] := htold ▸ mem_map_of_mem hc
    change c.action = .modify at hmodify
    rw [hmodify] at haction
    exact absurd haction (by decide)

end GRPCClient

end Pitaya.Cluster
