import Pitaya.Client.Generation

/-!
# What a goroutine of a generation can do

`step` is a function of some forty program points; the invariants need to know only what
a step does to the requests, the slots and `pendingMu`.

* `Point.free` — the points at which a goroutine has no slot, no request and not
  `pendingMu`; `Point.Fits` — what it knows about its local variables.
* `Moves` — the moves of a goroutine: quiet ones between free points, and the others one
  by one.
* `Talks` — the steps from free points one by one, for what they do to the ids, to the
  connection and to `writeMu`; `step_talks` is the inversion.
* `step_moves` — every step is a move.
-/

namespace Pitaya.Client

open Conn Option Generation

variable (params : Params)

/-- The points at which a goroutine has no slot, no request and not `pendingMu`. -/
def Point.free : Point → Bool
  | .elsewhere | .sendMsg _ _ _ | .registerSelect _ _ | .writeLock _ _ | .writeSelect _ _
  | .sentLock _ _ | .write _ _ | .writeUnlock _ _ | .takeLock _ _ | .packets | .forward _
  | .reaper | .reapLock _ | .disconnect | .closeLock | .closeChannel | .heartbeat
  | .safeWrite _ _ | .safeWriteLock _ _ | .safeWriteSelect _ _ | .safeWriteWrite _ _
  | .safeWriteUnlock _ _ => true
  | _ => false

/-- `handlePackets` asks for a response's own id. -/
def TakeCaller.Asks (id : UInt64) : TakeCaller → Prop
  | .sendMsg _ => True
  | .packets m => m.typ = MessageType.response ∧ m.id = id

/-- A delivery answers its registration. -/
def Delivery.Answers (d : Delivery) : Prop :=
  ∀ m, d.received = some m → m.typ = MessageType.response ∧ m.id = d.registration.msg.id

/-- What a goroutine knows about its local variables. -/
def Point.Fits : Point → Prop
  | .takeLock id caller | .takeLookup id caller | .takeUnlock id none caller => caller.Asks id
  | .takeReceive id registration caller | .takeUnlock id (some registration) caller =>
    registration.msg.id = id ∧ caller.Asks id
  | .forward m => m.typ ≠ MessageType.response
  | .respond d => d.Answers
  | _ => True

/-- Two states with the same requests. -/
structure SameRequests (g g' : Generation) : Prop where
  slots : g'.slots = g.slots
  pending : g'.pending = g.pending
  closed : g'.closed = g.closed
  pendingMu : g'.pendingMu = g.pendingMu
  incoming : g'.incoming = g.incoming
  registered : g'.record.registered = g.record.registered
  removed : g'.record.removed = g.record.removed
  dropped : g'.record.dropped = g.record.dropped
  delivered : g'.record.delivered = g.record.delivered

/-- The connection, the two close flags, `writeMu`, `nextID` and the results of calls are
no part of the requests. -/
theorem SameRequests.frame (g : Generation) (closeCh : Bool) (closeOnce : Once)
    (writeMu connClosed : Bool) (nextID : UInt32) (wire : Bytes)
    (returned : List (UInt64 × Option SendError)) :
    SameRequests g
      { g with closeCh, closeOnce, writeMu, connClosed, nextID, wire
               record := { g.record with returned } } :=
  ⟨rfl, rfl, rfl, rfl, rfl, rfl, rfl, rfl, rfl⟩

theorem SameRequests.refl (g : Generation) : SameRequests g g := .frame ..

/-- A goroutine moves from one point to the next. -/
inductive Moves (g : Generation) : Point → Generation → Option Point → Prop
  | quiet {p g' p'} (same : SameRequests g g') (free : p.free = true)
      (free' : ∀ q, p' = some q → q.free = true ∧ q.Fits) : Moves g p g' p'
  | acquire {m frame} (room : g.slots < clientInflightLimit) :
      Moves g (.registerSelect m frame) { g with slots := g.slots + 1 }
        (some (.registerLock m frame))
  -- `pendingMu.Lock`
  | lockRegister {m frame} (unlocked : g.pendingMu = false) :
      Moves g (.registerLock m frame) { g with pendingMu := true }
        (some (.registerCheck m frame))
  | lockSent {m frame} (unlocked : g.pendingMu = false) :
      Moves g (.sentLock m frame) { g with pendingMu := true } (some (.sentMark m frame))
  | lockTake {id caller} (unlocked : g.pendingMu = false) :
      Moves g (.takeLock id caller) { g with pendingMu := true } (some (.takeLookup id caller))
  | lockReap {now ids} (unlocked : g.pendingMu = false) :
      Moves g (.reapLock now) { g with pendingMu := true } (some (.reapRange now ids []))
  | lockClose {ids} (order : g.RangeOrder ids) (unlocked : g.pendingMu = false) :
      Moves g .closeLock { g with closed := true, pendingMu := true } (some (.closeRange ids))
  -- the critical sections
  | refuse {m frame e} :
      Moves g (.registerCheck m frame) g (some (.registerRelease m e))
  | insert {m frame} (opened : g.closed = false) (fresh : g.pending.lookup m.id = none) :
      Moves g (.registerCheck m frame) (g.insertPending m) (some (.registerUnlock m (.ok frame)))
  | mark {m frame now} :
      Moves g (.sentMark m frame) (g.markSent m.id now) (some (.sentUnlock m frame))
  | miss {id caller} : Moves g (.takeLookup id caller) g (some (.takeUnlock id none caller))
  | take {id caller p} (found : g.pending.lookup id = some p) :
      Moves g (.takeLookup id caller) (g.deletePending id p)
        (some (.takeReceive id p.registration caller))
  | skip {now id ids reaped} :
      Moves g (.reapRange now (id :: ids) reaped) g (some (.reapRange now ids reaped))
  | reap {now id ids reaped p} (found : g.pending.lookup id = some p) :
      Moves g (.reapRange now (id :: ids) reaped) (g.deletePending id p)
        (some (.reapReceive now ids (reaped ++ [p.registration])))
  | gone {id ids} (absent : g.pending.lookup id = none) :
      Moves g (.closeRange (id :: ids)) g (some (.closeRange ids))
  | drain {id ids p} (found : g.pending.lookup id = some p) :
      Moves g (.closeRange (id :: ids)) ((g.deletePending id p).drop {p.registration})
        (some (.closeReceive ids))
  -- `<-gen.slots`
  | receiveRegister {m e} (token : g.slots ≠ 0) :
      Moves g (.registerRelease m e) { g with slots := g.slots - 1 }
        (some (.registerUnlock m (.error e)))
  | receiveTake {id registration caller} (token : g.slots ≠ 0) :
      Moves g (.takeReceive id registration caller) { g with slots := g.slots - 1 }
        (some (.takeUnlock id (some registration) caller))
  | receiveReap {now ids reaped} (token : g.slots ≠ 0) :
      Moves g (.reapReceive now ids reaped) { g with slots := g.slots - 1 }
        (some (.reapRange now ids reaped))
  | receiveClose {ids} (token : g.slots ≠ 0) :
      Moves g (.closeReceive ids) { g with slots := g.slots - 1 } (some (.closeRange ids))
  -- `pendingMu.Unlock`
  | unlockRegister {m frame} :
      Moves g (.registerUnlock m (.ok frame)) { g with pendingMu := false }
        (some (.writeLock m frame))
  | unlockRefused {m e} :
      Moves g (.registerUnlock m (.error e))
        { g.sendReturns m.id (some e) with pendingMu := false } none
  | unlockSent {m frame} :
      Moves g (.sentUnlock m frame) { g with pendingMu := false } (some (.write m frame))
  | unlockSend {id taken e} :
      Moves g (.takeUnlock id taken (.sendMsg e))
        { (g.drop (taken.elim 0 fun r => {r})).sendReturns id (some e) with pendingMu := false }
        none
  | unlockMissed {id m} :
      Moves g (.takeUnlock id none (.packets m)) { g with pendingMu := false } (some .packets)
  | unlockTaken {id registration m} :
      Moves g (.takeUnlock id (some registration) (.packets m)) { g with pendingMu := false }
        (some (.respond ⟨registration, some m⟩))
  | unlockReap {now reaped} :
      Moves g (.reapRange now [] reaped) { g with pendingMu := false }
        (some (.reapDeliver reaped))
  | unlockClose :
      Moves g (.closeRange []) { g with pendingMu := false } (some .closeChannel)
  -- `deliver`
  | forward {m} : Moves g (.forward m) (g.put m) (some .packets)
  | respond {d} : Moves g (.respond d) (g.putResponse params d) (some .packets)
  | abandonResponse {d} : Moves g (.respond d) (g.drop {d.registration}) none
  | reaped : Moves g (.reapDeliver []) g (some .reaper)
  | timeout {registration rest} :
      Moves g (.reapDeliver (registration :: rest)) (g.putResponse params ⟨registration, none⟩)
        (some (.reapDeliver rest))
  | abandonTimeouts {registrations} :
      Moves g (.reapDeliver registrations) (g.drop registrations) none

variable {params} {g g' : Generation} {p' : Option Point}

namespace Generation

variable {next : Point}

theorem lockPending_eq_some (h : g.lockPending next = some (g', p')) :
    g.pendingMu = false ∧ { g with pendingMu := true } = g' ∧ some next = p' := by
  obtain ⟨hmu, ⟨⟩⟩ := ite_none_left_eq_some.mp h
  exact ⟨eq_false_of_ne_true hmu, rfl, rfl⟩

theorem receiveSlot_eq_some (h : g.receiveSlot next = some (g', p')) :
    g.slots ≠ 0 ∧ { g with slots := g.slots - 1 } = g' ∧ some next = p' := by
  obtain ⟨hslots, ⟨⟩⟩ := ite_none_left_eq_some.mp h
  exact ⟨hslots, rfl, rfl⟩

theorem lockWrite_eq_some (h : g.lockWrite next = some (g', p')) :
    g.writeMu = false ∧ { g with writeMu := true } = g' ∧ some next = p' := by
  obtain ⟨hmu, ⟨⟩⟩ := ite_none_left_eq_some.mp h
  exact ⟨eq_false_of_ne_true hmu, rfl, rfl⟩

theorem onCloseCh_eq_some {next : Option Point} (h : g.onCloseCh next = some (g', p')) :
    g.closeCh = true ∧ g = g' ∧ next = p' := by
  obtain ⟨hclosed, ⟨⟩⟩ := ite_none_right_eq_some.mp h
  exact ⟨hclosed, rfl, rfl⟩

theorem unlessCloseCh_eq_some (h : g.unlessCloseCh next = some (g', p')) :
    g.closeCh = false ∧ g = g' ∧ some next = p' := by
  obtain ⟨hopen, ⟨⟩⟩ := ite_none_left_eq_some.mp h
  exact ⟨eq_false_of_ne_true hopen, rfl, rfl⟩

theorem writeConn_eq_some {b : Bytes} {n : ℕ} {failed : Bool} {r : Generation × Bool}
    (h : g.writeConn b n failed = some r) :
    n ≤ b.length ∧ r = ({ g with wire := g.wire ++ b.take n },
      failed || decide (n < b.length)) := by
  obtain ⟨hle, ⟨⟩⟩ := ite_none_right_eq_some.mp h
  exact ⟨hle, rfl⟩

end Generation

/-- What `handlePackets` turns to after a packet, and `sendHeartbeats` after a write. -/
inductive Turns : Point → Prop
  | response {m : Message} (typ : m.typ = MessageType.response) :
      Turns (.takeLock m.id (.packets m))
  | other {m : Message} (typ : m.typ ≠ MessageType.response) : Turns (.forward m)
  | packets : Turns .packets
  | heartbeat : Turns .heartbeat
  | disconnect : Turns .disconnect

variable {q : Point}

theorem onPacket_turns {p : Packet} (h : onPacket params p = some q) : Turns q := by
  unfold onPacket at h
  split at h
  · split at h
    · split at h
      · next hresponse => cases h; exact .response hresponse
      · next hother => cases h; exact .other hother
    · cases h; exact .disconnect
    · cases h; exact .disconnect
  · split at h
    · cases h; exact .disconnect
    · cases h; exact .packets

theorem writeReturns_turns {failed : Bool} {caller : WriteCaller}
    (h : step.writeReturns failed caller = some q) : Turns q := by
  cases caller with
  | safeWrite => cases h
  | heartbeat =>
    cases failed with
    | false => cases h; exact .heartbeat
    | true => cases h; exact .disconnect

theorem Turns.free (h : Turns q) : q.free = true ∧ q.Fits := by
  cases h with
  | response typ => exact ⟨rfl, typ, rfl⟩
  | other typ => exact ⟨rfl, typ⟩
  | packets | heartbeat | disconnect => exact ⟨rfl, trivial⟩

theorem Moves.quiet_to {p : Point} (same : SameRequests g g') (hp : p.free = true)
    (hq : q.free = true ∧ q.Fits) : Moves params g p g' (some q) :=
  .quiet same hp fun q' h => by
    obtain rfl := some.inj h
    exact hq

variable {p : Point}

theorem Moves.quiet_end (same : SameRequests g g') (hp : p.free = true) :
    Moves params g p g' none :=
  .quiet same hp fun _ h => by cases h

/-! ## The steps from free points -/

variable (params g) in
/-- A goroutine at a free point moves to the next. -/
inductive Talks : Point → Choice → Generation → Option Point → Prop
  -- the id
  | elsewhere : Talks .elsewhere .go { g with nextID := g.nextID + 1 } none
  | refused {typ route data e} :
      Talks (.sendMsg typ route data) .go
        (({ g with nextID := g.nextID + 1 }).sendReturns (g.nextID + 1).toUInt64 (some e)) none
  | request {route data frame m} (id : m.id = (g.nextID + 1).toUInt64)
      (typ : m.typ = MessageType.request) (built : buildPacket params m = .ok frame) :
      Talks (.sendMsg .request route data) .go { g with nextID := g.nextID + 1 }
        (some (.registerSelect m frame))
  | other {typ route data frame m}
      (id : m.id = (g.nextID + 1).toUInt64) (other : m.typ ≠ MessageType.request)
      (built : buildPacket params m = .ok frame) :
      Talks (.sendMsg typ route data) .go { g with nextID := g.nextID + 1 }
        (some (.writeLock m frame))
  -- `registerPending`
  | acquire {m frame} (room : g.slots < clientInflightLimit) :
      Talks (.registerSelect m frame) .go { g with slots := g.slots + 1 }
        (some (.registerLock m frame))
  | registerClosed {m frame} (closed : g.closeCh = true) :
      Talks (.registerSelect m frame) .closed (g.sendReturns m.id (some .connectionClosed)) none
  -- the write of `sendMsgTo`
  | lockWrite {m frame} (unlocked : g.writeMu = false) :
      Talks (.writeLock m frame) .go { g with writeMu := true } (some (.writeSelect m frame))
  | writeClosed {m frame} (closed : g.closeCh = true) :
      Talks (.writeSelect m frame) .closed g (some (.writeUnlock m (some .connectionClosed)))
  | writeOpen {m frame} (opened : g.closeCh = false) :
      Talks (.writeSelect m frame) .go g (some (.sentLock m frame))
  | lockSent {m frame} (unlocked : g.pendingMu = false) :
      Talks (.sentLock m frame) .go { g with pendingMu := true } (some (.sentMark m frame))
  | write {m frame n failed} (le : n ≤ frame.length) :
      Talks (.write m frame) (.written n failed) { g with wire := g.wire ++ frame.take n }
        (some (.writeUnlock m
          (if failed || decide (n < frame.length) then some .write else none)))
  | writeFailed {m e} (request : m.typ = MessageType.request) :
      Talks (.writeUnlock m (some e)) .go { g with writeMu := false }
        (some (.takeLock m.id (.sendMsg e)))
  | writeReturns {m err}
      (other : err = none ∨ m.typ ≠ MessageType.request) :
      Talks (.writeUnlock m err) .go (({ g with writeMu := false }).sendReturns m.id err) none
  | lockTake {id caller} (unlocked : g.pendingMu = false) :
      Talks (.takeLock id caller) .go { g with pendingMu := true } (some (.takeLookup id caller))
  -- `handlePackets` and `pendingRequestsReaper`
  | packet {packet} : Talks .packets (.packet packet) g (onPacket params packet)
  | packetsClosed (closed : g.closeCh = true) : Talks .packets .closed g none
  | forward {m} : Talks (.forward m) .go (g.put m) (some .packets)
  | forwardClosed {m} (closed : g.closeCh = true) : Talks (.forward m) .closed g none
  | tick {now} : Talks .reaper (.tick now) g (some (.reapLock now))
  | reaperClosed (closed : g.closeCh = true) : Talks .reaper .closed g none
  | lockReap {now ids} (unlocked : g.pendingMu = false) :
      Talks (.reapLock now) (.order ids) { g with pendingMu := true } (some (.reapRange now ids []))
  -- `disconnectGeneration`
  | disconnect (fresh : g.closeOnce = .fresh) :
      Talks .disconnect .go { g with closeOnce := .running } (some .closeLock)
  | disconnected (done : g.closeOnce = .done) : Talks .disconnect .go g none
  | lockClose {ids} (order : g.RangeOrder ids) (unlocked : g.pendingMu = false) :
      Talks .closeLock (.order ids) { g with closed := true, pendingMu := true }
        (some (.closeRange ids))
  | closeChannel :
      Talks .closeChannel .go
        { g with closeCh := true, connClosed := true, closeOnce := .done } none
  -- `sendHeartbeats` and `safeWrite`
  | leave {choice} : Talks .heartbeat choice g (some .disconnect)
  | beat {frame} (built : Packet.encode PacketType.heartbeat [] = .ok frame) :
      Talks .heartbeat .go g (some (.safeWrite frame .heartbeat))
  | safeWriteClosed {b caller} (closed : g.closeCh = true) :
      Talks (.safeWrite b caller) .closed g (step.writeReturns true caller)
  | safeWriteOpen {b caller} (opened : g.closeCh = false) :
      Talks (.safeWrite b caller) .go g (some (.safeWriteLock b caller))
  | lockSafeWrite {b caller} (unlocked : g.writeMu = false) :
      Talks (.safeWriteLock b caller) .go { g with writeMu := true }
        (some (.safeWriteSelect b caller))
  | safeWriteRefused {b caller} (closed : g.closeCh = true) :
      Talks (.safeWriteSelect b caller) .closed g (some (.safeWriteUnlock true caller))
  | safeWriteGo {b caller} (opened : g.closeCh = false) :
      Talks (.safeWriteSelect b caller) .go g (some (.safeWriteWrite b caller))
  | safeWrite {b caller n failed} (le : n ≤ b.length) :
      Talks (.safeWriteWrite b caller) (.written n failed) { g with wire := g.wire ++ b.take n }
        (some (.safeWriteUnlock (failed || decide (n < b.length)) caller))
  | safeWriteReturns {failed caller} :
      Talks (.safeWriteUnlock failed caller) .go { g with writeMu := false }
        (step.writeReturns failed caller)

variable {choice : Choice}

/-- **What a step from a free point does.** -/
theorem step_talks (free : p.free = true) (h : step params g p choice = some (g', p')) :
    Talks params g p choice g' p' := by
  cases p with
  | elsewhere =>
    cases choice <;> cases h
    exact .elsewhere
  | sendMsg =>
    cases choice <;> try cases h
    simp only [step] at h
    split at h
    · cases h
      exact .refused
    · next frame built =>
      cases h
      split
      · next hrequest =>
        subst hrequest
        exact .request rfl rfl built
      · next hother => exact .other rfl hother built
  | registerSelect =>
    cases choice with
    | go =>
      obtain ⟨room, ⟨⟩⟩ := ite_none_right_eq_some.mp h
      exact .acquire room
    | closed =>
      obtain ⟨closed, ⟨⟩⟩ := ite_none_right_eq_some.mp h
      exact .registerClosed closed
    | _ => cases h
  | writeLock =>
    cases choice <;> try cases h
    obtain ⟨unlocked, rfl, rfl⟩ := lockWrite_eq_some h
    exact .lockWrite unlocked
  | writeSelect =>
    cases choice with
    | go =>
      obtain ⟨opened, rfl, rfl⟩ := unlessCloseCh_eq_some h
      exact .writeOpen opened
    | closed =>
      obtain ⟨closed, rfl, rfl⟩ := onCloseCh_eq_some h
      exact .writeClosed closed
    | _ => cases h
  | sentLock =>
    cases choice <;> try cases h
    obtain ⟨unlocked, rfl, rfl⟩ := lockPending_eq_some h
    exact .lockSent unlocked
  | write =>
    cases choice with
    | written =>
      obtain ⟨r, hwrite, hr⟩ := map_eq_some_iff.mp h
      obtain ⟨hle, rfl⟩ := writeConn_eq_some hwrite
      cases hr
      exact .write hle
    | _ => cases h
  | writeUnlock =>
    cases choice <;> try cases h
    simp only [step] at h
    split at h
    · split at h
      · next hrequest => cases h; exact .writeFailed hrequest
      · next hother => cases h; exact .writeReturns (.inr hother)
    · cases h; exact .writeReturns (.inl rfl)
  | takeLock =>
    cases choice <;> try cases h
    obtain ⟨unlocked, rfl, rfl⟩ := lockPending_eq_some h
    exact .lockTake unlocked
  | packets =>
    cases choice with
    | packet packet => cases h; exact .packet
    | closed =>
      obtain ⟨closed, rfl, rfl⟩ := onCloseCh_eq_some h
      exact .packetsClosed closed
    | _ => cases h
  | forward =>
    cases choice with
    | go => cases h; exact .forward
    | closed =>
      obtain ⟨closed, rfl, rfl⟩ := onCloseCh_eq_some h
      exact .forwardClosed closed
    | _ => cases h
  | reaper =>
    cases choice with
    | tick => cases h; exact .tick
    | closed =>
      obtain ⟨closed, rfl, rfl⟩ := onCloseCh_eq_some h
      exact .reaperClosed closed
    | _ => cases h
  | reapLock =>
    cases choice with
    | order =>
      obtain ⟨-, h⟩ := ite_none_right_eq_some.mp h
      obtain ⟨unlocked, rfl, rfl⟩ := lockPending_eq_some h
      exact .lockReap unlocked
    | _ => cases h
  | disconnect =>
    cases choice <;> try cases h
    simp only [step] at h
    split at h
    · next fresh => cases h; exact .disconnect fresh
    · cases h
    · next done => cases h; exact .disconnected done
  | closeLock =>
    cases choice with
    | order =>
      obtain ⟨order, h⟩ := ite_none_right_eq_some.mp h
      obtain ⟨unlocked, rfl, rfl⟩ := lockPending_eq_some h
      exact .lockClose order unlocked
    | _ => cases h
  | closeChannel =>
    cases choice <;> cases h
    exact .closeChannel
  | heartbeat =>
    cases choice with
    | tick => cases h; exact .leave
    | go =>
      simp only [step] at h
      split at h
      · cases h; exact .leave
      · next frame built => cases h; exact .beat built
    | closed =>
      obtain ⟨-, rfl, rfl⟩ := onCloseCh_eq_some h
      exact .leave
    | _ => cases h
  | safeWrite =>
    cases choice with
    | go =>
      obtain ⟨opened, rfl, rfl⟩ := unlessCloseCh_eq_some h
      exact .safeWriteOpen opened
    | closed =>
      obtain ⟨closed, rfl, rfl⟩ := onCloseCh_eq_some h
      exact .safeWriteClosed closed
    | _ => cases h
  | safeWriteLock =>
    cases choice <;> try cases h
    obtain ⟨unlocked, rfl, rfl⟩ := lockWrite_eq_some h
    exact .lockSafeWrite unlocked
  | safeWriteSelect =>
    cases choice with
    | go =>
      obtain ⟨opened, rfl, rfl⟩ := unlessCloseCh_eq_some h
      exact .safeWriteGo opened
    | closed =>
      obtain ⟨closed, rfl, rfl⟩ := onCloseCh_eq_some h
      exact .safeWriteRefused closed
    | _ => cases h
  | safeWriteWrite =>
    cases choice with
    | written =>
      obtain ⟨r, hwrite, hr⟩ := map_eq_some_iff.mp h
      obtain ⟨hle, rfl⟩ := writeConn_eq_some hwrite
      cases hr
      exact .safeWrite hle
    | _ => cases h
  | safeWriteUnlock =>
    cases choice <;> cases h
    exact .safeWriteReturns
  | _ => cases free

/-! ## Every step -/

theorem Talks.moves (h : Talks params g p choice g' p') : Moves params g p g' p' := by
  cases h with
  | elsewhere | refused | registerClosed | writeReturns
  | closeChannel => exact .quiet_end (.frame ..) rfl
  | request | other | lockWrite | write | writeFailed | disconnect | lockSafeWrite
  | safeWrite => exact .quiet_to (.frame ..) rfl ⟨rfl, trivial⟩
  | acquire room => exact .acquire room
  | writeClosed | writeOpen | tick | leave | beat | safeWriteOpen | safeWriteRefused
  | safeWriteGo => exact .quiet_to (.refl _) rfl ⟨rfl, trivial⟩
  | lockSent unlocked => exact .lockSent unlocked
  | lockTake unlocked => exact .lockTake unlocked
  | packet => exact .quiet (.refl _) rfl fun _ h => (onPacket_turns h).free
  | packetsClosed | forwardClosed | reaperClosed | disconnected => exact .quiet_end (.refl _) rfl
  | forward => exact .forward
  | lockReap unlocked => exact .lockReap unlocked
  | lockClose order unlocked => exact .lockClose order unlocked
  | safeWriteClosed => exact .quiet (.refl _) rfl fun _ h => (writeReturns_turns h).free
  | safeWriteReturns => exact .quiet (.frame ..) rfl fun _ h => (writeReturns_turns h).free

/-- **What a step does.** -/
theorem step_moves (h : step params g p choice = some (g', p')) : Moves params g p g' p' := by
  by_cases free : p.free = true
  · exact (step_talks free h).moves
  cases p with
  | registerLock =>
    cases choice <;> try cases h
    obtain ⟨unlocked, rfl, rfl⟩ := lockPending_eq_some h
    exact .lockRegister unlocked
  | registerCheck =>
    cases choice <;> try cases h
    simp only [step] at h
    split at h
    · cases h; exact .refuse
    · next opened =>
      split at h
      · cases h; exact .refuse
      · next fresh =>
        cases h
        exact .insert (eq_false_of_ne_true opened) (by simpa using fresh)
  | registerRelease =>
    cases choice <;> try cases h
    obtain ⟨token, rfl, rfl⟩ := receiveSlot_eq_some h
    exact .receiveRegister token
  | registerUnlock m result =>
    cases result with
    | ok => cases choice with
      | go => cases h; exact .unlockRegister
      | _ => cases h
    | error => cases choice with
      | go => cases h; exact .unlockRefused
      | _ => cases h
  | sentMark =>
    cases choice with
    | tick => cases h; exact .mark
    | _ => cases h
  | sentUnlock =>
    cases choice <;> cases h
    exact .unlockSent
  | takeLookup =>
    cases choice <;> try cases h
    simp only [step] at h
    split at h
    · cases h; exact .miss
    · next found => cases h; exact .take found
  | takeReceive =>
    cases choice <;> try cases h
    obtain ⟨token, rfl, rfl⟩ := receiveSlot_eq_some h
    exact .receiveTake token
  | takeUnlock id taken caller =>
    cases choice with
    | go =>
      cases caller with
      | sendMsg =>
        cases taken <;> (cases h; exact .unlockSend)
      | packets => cases taken with
        | none => cases h; exact .unlockMissed
        | some => cases h; exact .unlockTaken
    | _ => cases caller <;> cases taken <;> cases h
  | respond =>
    cases choice with
    | go => cases h; exact .respond
    | closed =>
      obtain ⟨-, rfl, rfl⟩ := onCloseCh_eq_some h
      exact .abandonResponse
    | _ => cases h
  | reapRange now todo =>
    cases todo with
    | nil => cases choice with
      | go => cases h; exact .unlockReap
      | _ => cases h
    | cons => cases choice with
      | go =>
        simp only [step] at h
        split at h
        · cases h; exact .skip
        · next found =>
          split at h
          · cases h; exact .reap found
          · cases h; exact .skip
      | _ => cases h
  | reapReceive =>
    cases choice <;> try cases h
    obtain ⟨token, rfl, rfl⟩ := receiveSlot_eq_some h
    exact .receiveReap token
  | reapDeliver reaped =>
    cases reaped with
    | nil => cases choice with
      | go => cases h; exact .reaped
      | _ => cases h
    | cons => cases choice with
      | go => cases h; exact .timeout
      | closed =>
        obtain ⟨-, rfl, rfl⟩ := onCloseCh_eq_some h
        exact .abandonTimeouts
      | _ => cases h
  | closeRange todo =>
    cases todo with
    | nil => cases choice with
      | go => cases h; exact .unlockClose
      | _ => cases h
    | cons => cases choice with
      | go =>
        simp only [step] at h
        split at h
        · next absent => cases h; exact .gone absent
        · next found => cases h; exact .drain found
      | _ => cases h
  | closeReceive =>
    cases choice <;> try cases h
    obtain ⟨token, rfl, rfl⟩ := receiveSlot_eq_some h
    exact .receiveClose token
  | _ => exact absurd rfl free

end Pitaya.Client
