import Pitaya.Conn.Message
import Pitaya.Conn.Packet
import Pitaya.Foundations.FiniteMap
import Pitaya.Foundations.Threads

/-!
# One connection of the client

`client/client.go`: a `connectionGeneration` and everything that runs on it — calls
of `SendRequest`, `SendNotify`, `SafeWrite` and `Disconnect` from any number of
goroutines, and the loops `handlePackets`, `pendingRequestsReaper` and
`sendHeartbeats`.

* `Generation` — the shared state: the channel `slots` as the number of its tokens,
  the map `pending`, the two mutexes, `closeOnce` and `closeCh`.
* `Point` — the program points, one for every place at which the source can be
  interrupted: before each channel operation, each lock and unlock, and between
  the statements of a critical section that touch `slots`.
* `step` — one statement of one goroutine.  A `Choice` resolves what is left open:
  the branch of a `select`, the result of a write, the packet that has arrived, the
  time, the order of a `range` loop.
* `generation` — the program; its interleavings are `Threads.Program.system`.

Packets are what the server sends and arbitrary.  Besides the state of the source
the model records what happened (`Record`): who registered, who was removed from
`pending`, and for each `Response` put on `incomingChan` which registration it
answers.  No step depends on the record.
-/

namespace Pitaya.Client

open Conn

/-! ## State -/

def clientInflightLimit : ℕ := 30

/-- What stays the same over the life of a generation. -/
structure Params where
  zlib : Message.Compression
  dataCompression : Bool := false
  dictionary : Message.Dictionary := .empty
  requestTimeout : ℕ := 5
  /-- The marshalled status "request timeout". -/
  timeoutData : Bytes := []
  heartbeat : Bool := true

/-- The errors of `sendMsgTo`. -/
inductive SendError where
  /-- `errClientConnectionClosed`, "client: connection closed". -/
  | connectionClosed
  /-- "client: duplicate request id %d". -/
  | duplicateRequestID (id : UInt64)
  /-- An error of the message encoder. -/
  | message (e : Message.MessageError)
  /-- An error of the packet encoder. -/
  | packet (e : CodecError)
  /-- An error of the connection, or `io.ErrShortWrite`. -/
  | write
  deriving DecidableEq, Repr

/-- A request that has been put into `pending`: the message, and how many requests
had been put there before. -/
structure Registration where
  number : ℕ
  msg : Message
  deriving DecidableEq, Repr

structure PendingRequest where
  registration : Registration
  sentAt : Option ℕ := none
  deriving DecidableEq, Repr

/-- What a `Response` on `incomingChan` answers: the registration, and the server's
message unless the request timed out. -/
structure Delivery where
  registration : Registration
  received : Option Message
  deriving DecidableEq, Repr

/-- The record of what happened. -/
structure Record where
  registered : List Registration := []
  removed : Multiset Registration := 0
  dropped : Multiset Registration := 0
  delivered : List Delivery := []
  returned : List (UInt64 × Option SendError) := []

/-- `sync.Once`. -/
inductive Once where
  | fresh
  | running
  | done
  deriving DecidableEq, Repr

/-- `connectionGeneration`, with the counter `nextID` of its client.  `wire` is what
the connection has accepted and `incoming` everything put on `incomingChan`. -/
structure Generation where
  slots : ℕ := 0
  pending : Finmap fun _ : UInt64 => PendingRequest := ∅
  closed : Bool := false
  closeCh : Bool := false
  closeOnce : Once := .fresh
  pendingMu : Bool := false
  writeMu : Bool := false
  connClosed : Bool := false
  nextID : UInt32 := 0
  wire : Bytes := []
  incoming : List Message := []
  record : Record := {}

/-! ## Program points -/

/-- Where `takePending` returns to. -/
inductive TakeCaller where
  /-- `sendMsgTo`, after a failed write. -/
  | sendMsg (e : SendError)
  /-- `handlePackets`, with a response of the server. -/
  | packets (m : Message)
  deriving DecidableEq, Repr

/-- Who called `safeWrite`. -/
inductive WriteCaller where
  | safeWrite
  | heartbeat
  deriving DecidableEq, Repr

/-- The places a goroutine can be at. -/
inductive Point where
  /-- `sendMsgTo` on another generation of the client, which draws an id too. -/
  | elsewhere
  /-- `sendMsgTo`: before the id is drawn. -/
  | sendMsg (typ : MessageType) (route data : Bytes)
  /-- `registerPending`: the `select` on `slots` and `closeCh`. -/
  | registerSelect (m : Message) (frame : Bytes)
  /-- `registerPending`: with a slot, before `pendingMu.Lock`. -/
  | registerLock (m : Message) (frame : Bytes)
  /-- `registerPending`: with a slot, in the critical section. -/
  | registerCheck (m : Message) (frame : Bytes)
  /-- `registerPending`: before `<-gen.slots` of the two refusals. -/
  | registerRelease (m : Message) (e : SendError)
  /-- `registerPending`: before the deferred unlock. -/
  | registerUnlock (m : Message) (result : Except SendError Bytes)
  /-- `sendMsgTo`: before `writeMu.Lock`. -/
  | writeLock (m : Message) (frame : Bytes)
  /-- `sendMsgTo`: the `select` on `closeCh`. -/
  | writeSelect (m : Message) (frame : Bytes)
  /-- `sendMsgTo`: before `pendingMu.Lock`. -/
  | sentLock (m : Message) (frame : Bytes)
  /-- `sendMsgTo`: before `sentAt` is assigned. -/
  | sentMark (m : Message) (frame : Bytes)
  /-- `sendMsgTo`: before `pendingMu.Unlock`. -/
  | sentUnlock (m : Message) (frame : Bytes)
  /-- `sendMsgTo`: before the write. -/
  | write (m : Message) (frame : Bytes)
  /-- `sendMsgTo`: before `writeMu.Unlock`. -/
  | writeUnlock (m : Message) (err : Option SendError)
  /-- `takePending`: before `pendingMu.Lock`. -/
  | takeLock (id : UInt64) (caller : TakeCaller)
  /-- `takePending`: in the critical section. -/
  | takeLookup (id : UInt64) (caller : TakeCaller)
  /-- `takePending`: the entry is deleted, before `<-gen.slots`. -/
  | takeReceive (id : UInt64) (registration : Registration) (caller : TakeCaller)
  /-- `takePending`: before the deferred unlock. -/
  | takeUnlock (id : UInt64) (taken : Option Registration) (caller : TakeCaller)
  /-- `handlePackets`: the `select` on `packetChan` and `closeCh`. -/
  | packets
  /-- `handlePackets`: `deliver` of a message that is not a response. -/
  | forward (m : Message)
  /-- `handlePackets`: `deliver` of a response. -/
  | respond (d : Delivery)
  /-- `pendingRequestsReaper`: the `select` on the ticker and `closeCh`. -/
  | reaper
  /-- `takeExpiredPending`: before `pendingMu.Lock`. -/
  | reapLock (now : ℕ)
  /-- `takeExpiredPending`: in the `range` loop. -/
  | reapRange (now : ℕ) (todo : List UInt64) (expired : List Registration)
  /-- `takeExpiredPending`: the entry is deleted, before `<-gen.slots`. -/
  | reapReceive (now : ℕ) (todo : List UInt64) (expired : List Registration)
  /-- `reapPending`: `deliver` of the timeouts. -/
  | reapDeliver (expired : List Registration)
  /-- `disconnectGeneration`: before `closeOnce.Do`. -/
  | disconnect
  /-- `disconnectGeneration`: before `pendingMu.Lock`. -/
  | closeLock
  /-- `disconnectGeneration`: in the `range` loop. -/
  | closeRange (todo : List UInt64)
  /-- `disconnectGeneration`: the entry is deleted, before `<-gen.slots`. -/
  | closeReceive (todo : List UInt64)
  /-- `disconnectGeneration`: before `close(gen.closeCh)`. -/
  | closeChannel
  /-- `sendHeartbeats`: the `select` on the ticker and `closeCh`. -/
  | heartbeat
  /-- `safeWrite`: the first `select` on `closeCh`. -/
  | safeWrite (b : Bytes) (caller : WriteCaller)
  /-- `safeWrite`: before `writeMu.Lock`. -/
  | safeWriteLock (b : Bytes) (caller : WriteCaller)
  /-- `safeWrite`: the second `select` on `closeCh`. -/
  | safeWriteSelect (b : Bytes) (caller : WriteCaller)
  /-- `safeWrite`: before the write. -/
  | safeWriteWrite (b : Bytes) (caller : WriteCaller)
  /-- `safeWrite`: before the deferred unlock. -/
  | safeWriteUnlock (failed : Bool) (caller : WriteCaller)
  deriving DecidableEq

/-- What a step leaves open. -/
inductive Choice where
  /-- The next statement, or the branch of a `select` that is not `closeCh`. -/
  | go
  /-- The branch of a `select` on the closed `closeCh`. -/
  | closed
  /-- A write of which the connection accepts `n` bytes. -/
  | written (n : ℕ) (failed : Bool)
  /-- The next packet of the server. -/
  | packet (p : Packet)
  /-- The time. -/
  | tick (now : ℕ)
  /-- The order in which a `range` loop visits `pending`. -/
  | order (ids : List UInt64)
  deriving DecidableEq, Repr

/-! ## Statements -/

/-- The state after a statement, and where the goroutine is then; `none` is the end
of the goroutine.  The outer `none` says that the statement blocks. -/
abbrev Result : Type := Option (Generation × Option Point)

namespace Generation

variable (g : Generation) (next : Point)

/-- `pendingMu.Lock`. -/
def lockPending : Result :=
  if g.pendingMu then none else some ({ g with pendingMu := true }, some next)

/-- `pendingMu.Unlock`. -/
def unlockPending (next : Option Point) : Result :=
  some ({ g with pendingMu := false }, next)

/-- `writeMu.Lock`. -/
def lockWrite : Result :=
  if g.writeMu then none else some ({ g with writeMu := true }, some next)

/-- `<-gen.slots`. -/
def receiveSlot : Result :=
  if g.slots = 0 then none else some ({ g with slots := g.slots - 1 }, some next)

/-- The branch `<-gen.closeCh` of a `select`. -/
def onCloseCh (next : Option Point) : Result :=
  if g.closeCh then some (g, next) else none

/-- The `default` branch of a `select` on `closeCh`. -/
def unlessCloseCh : Result :=
  if g.closeCh then none else some (g, some next)

/-- `conn.Write` accepts a part of the bytes; less than all is an error. -/
def writeConn (b : Bytes) (n : ℕ) (failed : Bool) :
    Option (Generation × Bool) :=
  if n ≤ b.length then
    some ({ g with wire := g.wire ++ b.take n }, failed || decide (n < b.length))
  else none

/-- Insert a request under its id. -/
def insertPending (m : Message) : Generation :=
  let registration : Registration := ⟨g.record.registered.length, m⟩
  { g with
    pending := g.pending.insert m.id { registration := registration }
    record := { g.record with registered := g.record.registered ++ [registration] } }

/-- Assign `sentAt` of a request, if it is there. -/
def markSent (id : UInt64) (now : ℕ) : Generation :=
  { g with
    pending :=
      match g.pending.lookup id with
      | none => g.pending
      | some p => g.pending.insert id { p with sentAt := some now } }

/-- Delete a request. -/
def deletePending (id : UInt64) (p : PendingRequest) : Generation :=
  { g with
    pending := g.pending.erase id
    record := { g.record with removed := p.registration ::ₘ g.record.removed } }

/-- Note that requests which were removed are not answered. -/
def drop (registrations : Multiset Registration) : Generation :=
  { g with record := { g.record with dropped := registrations + g.record.dropped } }

/-- Note the result of a call of `sendMsgTo`. -/
def sendReturns (id : UInt64) (err : Option SendError) : Generation :=
  { g with record := { g.record with returned := g.record.returned ++ [(id, err)] } }

/-- `gen.incomingChan <- msg`. -/
def put (m : Message) : Generation := { g with incoming := g.incoming ++ [m] }

/-- The ids of `pending`, in the order a `range` loop visits them. -/
def RangeOrder (ids : List UInt64) : Prop :=
  ids.Nodup ∧ ids.toFinset = g.pending.keys

instance (g : Generation) (ids : List UInt64) : Decidable (g.RangeOrder ids) :=
  inferInstanceAs (Decidable (_ ∧ _))

end Generation

variable (params : Params)

def buildPacket (m : Message) : Except SendError Bytes :=
  match (Message.encode params.zlib params.dataCompression params.dictionary m).1 with
  | .error e => .error (.message e)
  | .ok encMsg =>
    match Packet.encode PacketType.data encMsg with
    | .error e => .error (.packet e)
    | .ok p => .ok p

/-- The test of `takeExpiredPending`. -/
def expired (now : ℕ) (p : PendingRequest) : Bool :=
  match p.sentAt with
  | none => false
  | some sentAt => decide (sentAt + params.requestTimeout < now)

/-- The response `reapPending` makes up. -/
def timeoutMessage (request : Message) : Message where
  typ := .response
  id := request.id
  route := request.route
  data := params.timeoutData
  err := true

/-- The message a delivery puts on `incomingChan`: the server's, with the route of
the request where it has none, or the timeout. -/
def Delivery.message (d : Delivery) : Message :=
  match d.received with
  | none => timeoutMessage params d.registration.msg
  | some m => if m.route = [] then { m with route := d.registration.msg.route } else m

/-- `gen.incomingChan <- msg` for a response. -/
def Generation.putResponse (g : Generation) (d : Delivery) : Generation :=
  { g.put (d.message params) with
    record := { g.record with delivered := g.record.delivered ++ [d] } }

/-- What `handlePackets` does with a packet. -/
def onPacket (p : Packet) : Option Point :=
  if p.typ = PacketType.data then
    match Message.decode params.zlib params.dictionary p.data with
    | .ok m =>
      if m.typ = MessageType.response then some (.takeLock m.id (.packets m))
      else some (.forward m)
    -- decoding always returns
    | .error _ | .crash => some .disconnect
  else if p.typ = PacketType.kick then some .disconnect
  else some .packets

open Generation in
/-- One statement of one goroutine. -/
def step (g : Generation) : Point → Choice → Result
  | .elsewhere, .go => some ({ g with nextID := g.nextID + 1 }, none)
  -- sendMsgTo
  | .sendMsg typ route data, .go =>
    let nextID := g.nextID + 1
    let m : Message := { typ := typ, id := nextID.toUInt64, route := route, data := data }
    let g := { g with nextID := nextID }
    match buildPacket params m with
    | .error e => some (g.sendReturns m.id (some e), none)
    | .ok frame =>
      some (g, some (if typ = MessageType.request then .registerSelect m frame
        else .writeLock m frame))
  | .registerSelect m frame, .go =>
    if g.slots < clientInflightLimit then
      some ({ g with slots := g.slots + 1 }, some (.registerLock m frame))
    else none
  | .registerSelect m _, .closed =>
    if g.closeCh then some (g.sendReturns m.id (some .connectionClosed), none) else none
  | .registerLock m frame, .go => g.lockPending (.registerCheck m frame)
  | .registerCheck m frame, .go =>
    if g.closed then some (g, some (.registerRelease m .connectionClosed))
    else if (g.pending.lookup m.id).isSome then
      some (g, some (.registerRelease m (.duplicateRequestID m.id)))
    else some (g.insertPending m, some (.registerUnlock m (.ok frame)))
  | .registerRelease m e, .go => g.receiveSlot (.registerUnlock m (.error e))
  | .registerUnlock m (.ok frame), .go => g.unlockPending (some (.writeLock m frame))
  | .registerUnlock m (.error e), .go => (g.sendReturns m.id (some e)).unlockPending none
  | .writeLock m frame, .go => g.lockWrite (.writeSelect m frame)
  | .writeSelect m _, .closed => g.onCloseCh (some (.writeUnlock m (some .connectionClosed)))
  | .writeSelect m frame, .go => g.unlessCloseCh (.sentLock m frame)
  | .sentLock m frame, .go => g.lockPending (.sentMark m frame)
  | .sentMark m frame, .tick now => some (g.markSent m.id now, some (.sentUnlock m frame))
  | .sentUnlock m frame, .go => g.unlockPending (some (.write m frame))
  | .write m frame, .written n failed =>
    (g.writeConn frame n failed).map fun r =>
      (r.1, some (.writeUnlock m (if r.2 then some .write else none)))
  | .writeUnlock m err, .go =>
    let g := { g with writeMu := false }
    match err with
    | some e =>
      if m.typ = MessageType.request then some (g, some (.takeLock m.id (.sendMsg e)))
      else some (g.sendReturns m.id (some e), none)
    | none => some (g.sendReturns m.id none, none)
  -- takePending
  | .takeLock id caller, .go => g.lockPending (.takeLookup id caller)
  | .takeLookup id caller, .go =>
    match g.pending.lookup id with
    | none => some (g, some (.takeUnlock id none caller))
    | some p => some (g.deletePending id p, some (.takeReceive id p.registration caller))
  | .takeReceive id registration caller, .go =>
    g.receiveSlot (.takeUnlock id (some registration) caller)
  | .takeUnlock id taken (.sendMsg e), .go =>
    ((g.drop (taken.elim 0 fun r => {r})).sendReturns id (some e)).unlockPending none
  | .takeUnlock _ none (.packets _), .go => g.unlockPending (some .packets)
  | .takeUnlock _ (some registration) (.packets m), .go =>
    g.unlockPending (some (.respond ⟨registration, some m⟩))
  -- handlePackets
  | .packets, .packet p => some (g, onPacket params p)
  | .packets, .closed => g.onCloseCh none
  | .forward m, .go => some (g.put m, some .packets)
  | .forward _, .closed => g.onCloseCh none
  | .respond d, .go => some (g.putResponse params d, some .packets)
  | .respond d, .closed => (g.drop {d.registration}).onCloseCh none
  -- pendingRequestsReaper
  | .reaper, .tick now => some (g, some (.reapLock now))
  | .reaper, .closed => g.onCloseCh none
  | .reapLock now, .order ids =>
    if g.RangeOrder ids then g.lockPending (.reapRange now ids []) else none
  | .reapRange _ [] expired, .go => g.unlockPending (some (.reapDeliver expired))
  | .reapRange now (id :: ids) reaped, .go =>
    match g.pending.lookup id with
    | none => some (g, some (.reapRange now ids reaped))
    | some p =>
      if expired params now p then
        some (g.deletePending id p, some (.reapReceive now ids (reaped ++ [p.registration])))
      else some (g, some (.reapRange now ids reaped))
  | .reapReceive now ids reaped, .go => g.receiveSlot (.reapRange now ids reaped)
  | .reapDeliver [], .go => some (g, some .reaper)
  | .reapDeliver (registration :: rest), .go =>
    some (g.putResponse params ⟨registration, none⟩, some (.reapDeliver rest))
  | .reapDeliver (registration :: rest), .closed =>
    (g.drop (registration :: rest)).onCloseCh none
  -- disconnectGeneration
  | .disconnect, .go =>
    match g.closeOnce with
    | .fresh => some ({ g with closeOnce := .running }, some .closeLock)
    | .running => none
    | .done => some (g, none)
  | .closeLock, .order ids =>
    if g.RangeOrder ids then ({ g with closed := true }).lockPending (.closeRange ids) else none
  | .closeRange [], .go => g.unlockPending (some .closeChannel)
  | .closeRange (id :: ids), .go =>
    match g.pending.lookup id with
    | none => some (g, some (.closeRange ids))
    | some p =>
      some ((g.deletePending id p).drop {p.registration}, some (.closeReceive ids))
  | .closeReceive ids, .go => g.receiveSlot (.closeRange ids)
  | .closeChannel, .go =>
    some ({ g with closeCh := true, connClosed := true, closeOnce := .done }, none)
  -- sendHeartbeats, where a `tick` finds that the server has been silent for too long,
  -- and safeWrite
  | .heartbeat, .tick _ => some (g, some .disconnect)
  | .heartbeat, .go =>
    match Packet.encode PacketType.heartbeat [] with
    | .error _ => some (g, some .disconnect)
    | .ok frame => some (g, some (.safeWrite frame .heartbeat))
  | .heartbeat, .closed => g.onCloseCh (some .disconnect)
  | .safeWrite _ caller, .closed => g.onCloseCh (writeReturns true caller)
  | .safeWrite b caller, .go => g.unlessCloseCh (.safeWriteLock b caller)
  | .safeWriteLock b caller, .go => g.lockWrite (.safeWriteSelect b caller)
  | .safeWriteSelect _ caller, .closed => g.onCloseCh (some (.safeWriteUnlock true caller))
  | .safeWriteSelect b caller, .go => g.unlessCloseCh (.safeWriteWrite b caller)
  | .safeWriteWrite b caller, .written n failed =>
    (g.writeConn b n failed).map fun r => (r.1, some (.safeWriteUnlock r.2 caller))
  | .safeWriteUnlock failed caller, .go =>
    some ({ g with writeMu := false }, writeReturns failed caller)
  | _, _ => none
where
  /-- `SafeWrite` returns to the user; a heartbeat loops, or disconnects. -/
  writeReturns (failed : Bool) : WriteCaller → Option Point
    | .safeWrite => none
    | .heartbeat => some (if failed then .disconnect else .heartbeat)

/-- The goroutines of a generation and the calls on it. -/
def generation : Threads.Program Generation Point Choice where
  start := {}
  main := if params.heartbeat then {.packets, .reaper, .heartbeat} else {.packets, .reaper}
  entry
    | .elsewhere => true
    | .sendMsg _ _ _ => true
    | .safeWrite _ .safeWrite => true
    | .disconnect => true
    | _ => false
  step := step params

theorem mem_generation_main {params : Params} {p : Point} (h : p ∈ (generation params).main) :
    p = .packets ∨ p = .reaper ∨ p = .heartbeat := by
  simp only [generation] at h
  split at h
  · simpa using h
  · have : p = .packets ∨ p = .reaper := by simpa using h
    exact this.imp_right .inl

end Pitaya.Client
