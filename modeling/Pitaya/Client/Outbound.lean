import Pitaya.Client.Slots

/-!
# The outbound stream

`sendMsgTo` and `safeWrite` write whole frames, one at a time under `writeMu`, and check
`closeCh` before.  A write that fails may leave a part of its frame on the connection.
`sendMsgTo` and `SafeWrite` then return the error and leave the generation open; only a
heartbeat that fails disconnects it, after it has released `writeMu`.  So another writer
can go on behind the truncated frame.

* `writeMu_mutex` — one writer at a time.
-/

namespace Pitaya.Client

open Conn Threads Transition Framing List Option

/-- What `PomeloPacketEncoder.Encode` returns. -/
def IsFrame (b : Bytes) : Prop := ∃ typ data, Packet.encode typ data = .ok b

/-! ## Writers -/

/-- The bytes a goroutine is going to write. -/
def Point.outgoing : Point → Option Bytes
  | .registerSelect _ frame | .registerLock _ frame | .registerCheck _ frame
  | .registerUnlock _ (.ok frame) | .writeLock _ frame | .writeSelect _ frame
  | .sentLock _ frame | .sentMark _ frame | .sentUnlock _ frame | .write _ frame
  | .safeWrite frame _ | .safeWriteLock frame _ | .safeWriteSelect frame _
  | .safeWriteWrite frame _ => some frame
  | _ => none

/-- A goroutine has the lock `writeMu`. -/
def Point.writing : Point → Bool
  | .writeSelect _ _ | .sentLock _ _ | .sentMark _ _ | .sentUnlock _ _ | .write _ _
  | .writeUnlock _ _ | .safeWriteSelect _ _ | .safeWriteWrite _ _ | .safeWriteUnlock _ _ => true
  | _ => false

/-- A goroutine has found `closeCh` open, and has not written yet. -/
def Point.cleared : Point → Bool
  | .sentLock _ _ | .sentMark _ _ | .sentUnlock _ _ | .write _ _ | .safeWriteWrite _ _ => true
  | _ => false

/-- The bytes of a write, and how many of them the connection accepted. -/
def written : Event Point Choice → Option (Bytes × ℕ)
  | .run (.write _ frame) (.written n _) => some (frame, n)
  | .run (.safeWriteWrite b _) (.written n _) => some (b, n)
  | _ => none

/-- The event is a writer that finds `closeCh` open. -/
def passes : Event Point Choice → Bool
  | .run (.writeSelect _ _) .go | .run (.safeWriteSelect _ _) .go => true
  | _ => false

variable {params : Params} {g g' : Generation} {p : Point} {p' : Option Point}
  {c : Config Generation Point} {choice : Choice}

theorem Point.writing_of_cleared (h : p.cleared = true) : p.writing = true := by
  cases p <;> first | rfl | cases h

theorem written_run {w : Bytes × ℕ} (h : written (.run p choice) = some w) :
    p.cleared = true ∧ p.outgoing = some w.1 := by
  cases p <;> cases choice <;> cases h <;> exact ⟨rfl, rfl⟩

/-- What a step does to the outbound stream. -/
structure Sends (g : Generation) (p : Point) (choice : Choice) (g' : Generation)
    (p' : Option Point) : Prop where
  wire : g'.wire = g.wire ++ (written (.run p choice)).elim [] fun w => w.1.take w.2
  le : ∀ w, written (.run p choice) = some w → w.2 ≤ w.1.length
  outgoing : ∀ q, p' = some q → ∀ b, q.outgoing = some b → p.outgoing = some b ∨ IsFrame b
  cleared : ∀ q, p' = some q → q.cleared = true →
    written (.run p choice) = none ∧ (p.cleared = true ∨ passes (.run p choice) = true)

theorem Sends.silent (wire : g'.wire = g.wire) (nothing : written (.run p choice) = none)
    (outgoing : ∀ q, p' = some q → ∀ b, q.outgoing = some b → p.outgoing = some b ∨ IsFrame b)
    (cleared : ∀ q, p' = some q → q.cleared = (p.cleared || passes (.run p choice))) :
    Sends g p choice g' p' where
  wire := by rw [nothing, wire]; exact (append_nil _).symm
  le w hw := by rw [nothing] at hw; cases hw
  outgoing := outgoing
  cleared q hq hcleared := by
    rw [cleared q hq, Bool.or_eq_true] at hcleared
    exact ⟨nothing, hcleared⟩

theorem Sends.to {q : Point} (wire : g'.wire = g.wire) (nothing : written (.run p choice) = none)
    (outgoing : ∀ b, q.outgoing = some b → p.outgoing = some b ∨ IsFrame b)
    (cleared : q.cleared = (p.cleared || passes (.run p choice))) :
    Sends g p choice g' (some q) :=
  .silent wire nothing (fun q' h => by obtain rfl := some.inj h; exact outgoing)
    (fun q' h => by obtain rfl := some.inj h; exact cleared)

theorem Sends.ends (wire : g'.wire = g.wire) (nothing : written (.run p choice) = none) :
    Sends g p choice g' none :=
  .silent wire nothing (fun _ h => by cases h) (fun _ h => by cases h)

theorem isFrame_of_buildPacket {m : Message} {frame : Bytes}
    (h : buildPacket params m = .ok frame) : IsFrame frame := by
  unfold buildPacket at h
  split at h
  · cases h
  · next encMsg _ =>
    split at h
    · cases h
    · next hframe => cases h; exact ⟨_, encMsg, hframe⟩

theorem Turns.silent {q : Point} (h : Turns q) : q.outgoing = none ∧ q.cleared = false := by
  cases h <;> exact ⟨rfl, rfl⟩

theorem Sends.turns (wire : g'.wire = g.wire) (nothing : written (.run p choice) = none)
    (stays : (p.cleared || passes (.run p choice)) = false) (turns : ∀ q, p' = some q → Turns q) :
    Sends g p choice g' p' := by
  refine .silent wire nothing (fun q hq b hb => ?_) (fun q hq => ?_)
  · rw [(turns q hq).silent.1] at hb
    cases hb
  · rw [(turns q hq).silent.2, stays]

theorem Sends.write {b : Bytes} {n : ℕ} {q : Point} (hw : written (.run p choice) = some (b, n))
    (le : n ≤ b.length) (outgoing : q.outgoing = none) (cleared : q.cleared = false) :
    Sends g p choice { g with wire := g.wire ++ b.take n } (some q) where
  wire := by rw [hw]; rfl
  le w hw' := by
    rw [hw] at hw'
    cases hw'
    exact le
  outgoing q' hq b' hb := by
    cases hq
    rw [outgoing] at hb
    cases hb
  cleared q' hq hcleared := by
    cases hq
    rw [cleared] at hcleared
    cases hcleared

theorem Talks.sends (h : Talks params g p choice g' p') : Sends g p choice g' p' := by
  -- a frame that has just been built
  have built {frame : Bytes} (hframe : IsFrame frame) :
      ∀ b, some frame = some b → p.outgoing = some b ∨ IsFrame b := by
    rintro b ⟨⟩
    exact .inr hframe
  cases h with
  | request id typ hbuilt
  | other id other hbuilt => exact .to rfl rfl (built (isFrame_of_buildPacket hbuilt)) rfl
  | beat hbuilt => exact .to rfl rfl (built ⟨_, _, hbuilt⟩) rfl
  | write le | safeWrite le => exact .write rfl le rfl rfl
  | packet => exact .turns rfl rfl rfl fun _ => onPacket_turns
  | safeWriteClosed | safeWriteReturns => exact .turns rfl rfl rfl fun _ => writeReturns_turns
  | elsewhere | refused | registerClosed | writeReturns | packetsClosed | forwardClosed
  | reaperClosed | disconnected | closeChannel => exact .ends rfl rfl
  | writeClosed | safeWriteRefused => exact .to rfl rfl (fun b hb => by cases hb) rfl
  | _ => exact .to rfl rfl (fun b hb => .inl hb) rfl

/-- **What a step does to the outbound stream.** -/
theorem step_sends (h : step params g p choice = some (g', p')) : Sends g p choice g' p' := by
  cases step_moves h with
  | quiet same free => exact (step_talks free h).sends
  | unlockRefused | unlockSend | abandonResponse | abandonTimeouts => exact .ends rfl rfl
  | refuse => exact .to rfl rfl (fun b hb => by cases hb) rfl
  | _ => exact .to rfl rfl (fun b hb => .inl hb) rfl

/-! ## One writer at a time -/

theorem Turns.notWriting {q : Point} (h : Turns q) : q.writing = false := by
  cases h <;> rfl

theorem Talks.writeMu_conserved (h : Talks params g p choice g' p')
    (held : p.writing = true → g.writeMu = true) :
    g'.writeMu.toNat + p.writing.toNat
      = g.writeMu.toNat + p'.elim 0 fun q => q.writing.toNat := by
  have hturns (hp' : ∀ q, p' = some q → Turns q) : (p'.elim 0 fun q => q.writing.toNat) = 0 := by
    cases p' with
    | none => rfl
    | some q => exact congrArg Bool.toNat (hp' q rfl).notWriting
  cases h with
  | lockWrite unlocked | lockSafeWrite unlocked => rw [unlocked]; rfl
  | writeFailed | writeReturns => rw [held rfl]; rfl
  | safeWriteReturns =>
    rw [held rfl, hturns fun _ => writeReturns_turns]
    rfl
  | packet => rw [hturns fun _ => onPacket_turns]; rfl
  | safeWriteClosed => rw [hturns fun _ => writeReturns_turns]; rfl
  | _ => rfl

theorem step_writeMu (h : step params g p choice = some (g', p'))
    (held : p.writing = true → g.writeMu = true) :
    g'.writeMu.toNat + p.writing.toNat
      = g.writeMu.toNat + p'.elim 0 fun q => q.writing.toNat := by
  cases step_moves h with
  | quiet same free => exact (step_talks free h).writeMu_conserved held
  | _ => rfl

/-- **Mutual exclusion**: `writeMu` is a lock. -/
theorem writeMu_mutex : (generation params).Mutex Generation.writeMu Point.writing where
  start := rfl
  main p hp := by rcases mem_generation_main hp with rfl | rfl | rfl <;> rfl
  call p hentry := by cases p <;> first | rfl | cases hentry
  step _ _ _ _ _ hstep hlocked := step_writeMu hstep hlocked

/-! ## Truncated frames -/

/-- The event is a write that leaves a part of its frame on the connection. -/
def tears (e : Event Point Choice) : Bool :=
  (written e).any fun w => decide (0 < w.2 ∧ w.2 < w.1.length)

/-- A frame has been truncated. -/
def torn (events : Run Point Choice) : Bool := events.any tears

/-- After a frame has been truncated, no writer finds `closeCh` open. -/
def Stops (events : Run Point Choice) : Prop :=
  ∀ i (hi : i < events.length), passes events[i] = true → torn (events.take i) = false

instance (events : Run Point Choice) : Decidable (Stops events) :=
  inferInstanceAs (Decidable (∀ i (_ : i < events.length), _ → _))

theorem torn_concat (events : Run Point Choice) (e : Event Point Choice) :
    torn (events ++ [e]) = (torn events || tears e) := by
  rw [torn, any_append, any_cons, any_nil, Bool.or_false]
  rfl

theorem Stops.of_concat {events : Run Point Choice} {e : Event Point Choice}
    (h : Stops (events ++ [e])) : Stops events ∧ (passes e = true → torn events = false) := by
  constructor
  · intro i hi hpasses
    have htorn := h i (by rw [length_append]; omega)
    rw [getElem_append_left hi, take_append_of_le_length hi.le] at htorn
    exact htorn hpasses
  · intro hpasses
    have htorn := h events.length (by rw [length_append, length_singleton]; omega)
    rw [getElem_concat_length rfl, take_left] at htorn
    exact htorn hpasses

/-- The stream, and who may write to it. -/
structure Outbound (torn : Bool) (c : Config Generation Point) : Prop where
  outgoing : ∀ p ∈ c.threads, ∀ b, p.outgoing = some b → IsFrame b
  stream : Truncated IsFrame c.shared.wire
  whole : torn = false → Whole IsFrame c.shared.wire
  idle : torn = true → ∀ p ∈ c.threads, p.cleared = false

theorem Outbound.outgoing_step {torn : Bool} {rest : Multiset Point}
    (h : Outbound torn ⟨g, p ::ₘ rest⟩) (hsends : Sends g p choice g' p') :
    ∀ q ∈ rejoin p' rest, ∀ b, q.outgoing = some b → IsFrame b := by
  intro q hq b hb
  rcases mem_rejoin.mp hq with rfl | hq
  · exact (hsends.outgoing q rfl b hb).elim (h.outgoing p (Multiset.mem_cons_self p rest) b)
      fun hframe => hframe
  · exact h.outgoing q (Multiset.mem_cons_of_mem hq) b hb

theorem Outbound.silent {torn : Bool} {rest : Multiset Point} (h : Outbound torn ⟨g, p ::ₘ rest⟩)
    (hsends : Sends g p choice g' p') (hnothing : written (.run p choice) = none)
    (hstops : passes (.run p choice) = true → torn = false) :
    Outbound torn ⟨g', rejoin p' rest⟩ ∧ g'.wire = g.wire := by
  have hwire : g'.wire = g.wire := by
    rw [hsends.wire, hnothing]
    exact append_nil _
  refine ⟨⟨h.outgoing_step hsends, hwire ▸ h.stream, hwire ▸ h.whole, fun htorn q hq => ?_⟩, hwire⟩
  rcases mem_rejoin.mp hq with rfl | hq
  · refine Bool.eq_false_of_not_eq_true fun hcleared => ?_
    rcases (hsends.cleared q rfl hcleared).2 with hp | hpasses
    · rw [h.idle htorn p (Multiset.mem_cons_self p rest)] at hp
      cases hp
    · rw [hstops hpasses] at htorn
      cases htorn
  · exact h.idle htorn q (Multiset.mem_cons_of_mem hq)

/-- A step that writes: no frame has been truncated before, and nobody else is about to
write. -/
theorem Outbound.write {torn : Bool} {rest : Multiset Point} {b : Bytes} {n : ℕ}
    (h : Outbound torn ⟨g, p ::ₘ rest⟩)
    (hreach : (generation params).Reachable ⟨g, p ::ₘ rest⟩) (hsends : Sends g p choice g' p')
    (hw : written (.run p choice) = some (b, n)) :
    torn = false ∧ Outbound (tears (.run p choice)) ⟨g', rejoin p' rest⟩ := by
  have hp : p ∈ p ::ₘ rest := Multiset.mem_cons_self p rest
  obtain ⟨hcleared, houtgoing⟩ := written_run hw
  have htorn : torn = false := by
    refine Bool.eq_false_of_not_eq_true fun htorn => ?_
    rw [h.idle htorn p hp] at hcleared
    cases hcleared
  have hn : n ≤ b.length := hsends.le (b, n) hw
  have hwire : g'.wire = g.wire ++ b.take n := by
    rw [hsends.wire, hw]
    rfl
  have hstream := (h.whole htorn).append_take (h.outgoing p hp b houtgoing) hn
  refine ⟨htorn, h.outgoing_step hsends, hwire ▸ hstream.1, fun hwhole => ?_, fun _ q hq => ?_⟩
  · change Whole IsFrame g'.wire
    rw [hwire]
    refine hstream.2 ?_
    rw [tears, hw, any_some, decide_eq_false_iff_not] at hwhole
    dsimp only at hwhole
    omega
  · refine Bool.eq_false_of_not_eq_true fun hq' => ?_
    rcases mem_rejoin.mp hq with rfl | hq
    · cases hw.symm.trans (hsends.cleared q rfl hq').1
    · have halone := writeMu_mutex.alone hreach (Point.writing_of_cleared hcleared) hq
      rw [Point.writing_of_cleared hq'] at halone
      cases halone

theorem Outbound.step {torn : Bool} {rest : Multiset Point} (h : Outbound torn ⟨g, p ::ₘ rest⟩)
    (hreach : (generation params).Reachable ⟨g, p ::ₘ rest⟩)
    (hstops : passes (.run p choice) = true → torn = false)
    (hstep : step params g p choice = some (g', p')) :
    Outbound (torn || tears (.run p choice)) ⟨g', rejoin p' rest⟩ ∧
      (torn = true → g'.wire = g.wire) := by
  have hsends := step_sends hstep
  cases hw : written (.run p choice) with
  | none =>
    have htears : tears (.run p choice) = false := by rw [tears, hw]; rfl
    obtain ⟨hnext, hwire⟩ := h.silent hsends hw hstops
    rw [htears, Bool.or_false]
    exact ⟨hnext, fun _ => hwire⟩
  | some =>
    obtain ⟨rfl, hnext⟩ := h.write hreach hsends hw
    exact ⟨hnext, fun htorn => by cases htorn⟩

theorem Outbound.start : Outbound false ⟨(generation params).start, (generation params).main⟩ := by
  refine ⟨fun p hp b hb => ?_, Whole.nil.truncated, fun _ => .nil, fun h => by cases h⟩
  rcases mem_generation_main hp with rfl | rfl | rfl <;> cases hb

theorem Outbound.entry {torn : Bool} {threads : Multiset Point} (h : Outbound torn ⟨g, threads⟩)
    (hentry : (generation params).entry p = true)
    (hframe : ∀ b, p = .safeWrite b .safeWrite → IsFrame b) : Outbound torn ⟨g, p ::ₘ threads⟩ := by
  have hp : (∀ b, p.outgoing = some b → IsFrame b) ∧ p.cleared = false := by
    cases p with
    | elsewhere | sendMsg | disconnect => exact ⟨fun b hb => (by cases hb), rfl⟩
    | safeWrite b caller =>
      refine ⟨fun b' hb => ?_, rfl⟩
      cases hb
      cases caller with
      | safeWrite => exact hframe b rfl
      | heartbeat => cases hentry
    | _ => cases hentry
  refine ⟨fun q hq => ?_, h.stream, h.whole, fun htorn q hq => ?_⟩
  · rcases Multiset.mem_cons.mp hq with rfl | hq
    · exact hp.1
    · exact h.outgoing q hq
  · rcases Multiset.mem_cons.mp hq with rfl | hq
    · exact hp.2
    · exact h.idle htorn q hq

theorem Outbound.event {torn : Bool} {c' : Config Generation Point} {e : Event Point Choice}
    (h : Outbound torn c) (hreach : (generation params).Reachable c)
    (hstops : passes e = true → torn = false)
    (hframe : ∀ b, e = .call (.safeWrite b .safeWrite) → IsFrame b)
    (hstep : (generation params).system.step c e = some c') :
    Outbound (torn || tears e) c' ∧ (torn = true → c'.shared.wire = c.shared.wire) := by
  obtain ⟨g, threads⟩ := c
  rcases Program.system_step hstep with
    ⟨p, rfl, hentry, rfl⟩ | ⟨p, rest, choice, g', p', rfl, hc, hp, rfl⟩
  · rw [show tears (.call p) = false from rfl, Bool.or_false]
    exact ⟨h.entry hentry fun b hb => hframe b (congrArg Event.call hb), fun _ => rfl⟩
  · obtain rfl : threads = p ::ₘ rest := congrArg Config.threads hc
    exact h.step hreach hstops hp

theorem outbound {events : Run Point Choice}
    (hrun : (generation params).system.run events = some c) (hstops : Stops events)
    (hframes : ∀ b, .call (.safeWrite b .safeWrite) ∈ events → IsFrame b) :
    Outbound (torn events) c := by
  induction events using reverseRecOn generalizing c with
  | nil =>
    obtain rfl := some.inj hrun
    exact .start
  | append_singleton events e ih =>
    obtain ⟨c₀, hrun₀, hstep⟩ := System.run_concat_eq_some.mp hrun
    obtain ⟨hstops₀, hpasses⟩ := hstops.of_concat
    have h := ih hrun₀ hstops₀ fun b hb => hframes b (mem_append_left _ hb)
    rw [torn_concat]
    refine (h.event ⟨events, hrun₀⟩ hpasses (fun b hb => hframes b ?_) hstep).1
    exact mem_append_right _ (mem_singleton.mpr hb.symm)

theorem wire_of_torn {before after : Run Point Choice} {c₀ : Config Generation Point}
    (hbefore : (generation params).system.run before = some c₀) (htorn : torn before = true)
    (hrun : (generation params).system.run (before ++ after) = some c)
    (hstops : Stops (before ++ after))
    (hframes : ∀ b, .call (.safeWrite b .safeWrite) ∈ before ++ after → IsFrame b) :
    c.shared.wire = c₀.shared.wire := by
  revert hstops hframes
  apply System.run_induction_after hbefore (fun _ _ => rfl) ?_ hrun
  intro after e c₁ c hrun₁ ih hstep hstops hframes
  rw [← append_assoc] at hstops hframes
  obtain ⟨hstops₁, hpasses⟩ := hstops.of_concat
  have hframes₁ := fun b hb => hframes b (mem_append_left [e] hb)
  have htorn₁ : torn (before ++ after) = true := by
    rw [torn, any_append]
    exact Bool.or_eq_true_iff.mpr (.inl htorn)
  rw [← ih hstops₁ hframes₁]
  refine ((outbound hrun₁ hstops₁ hframes₁).event ⟨_, hrun₁⟩ hpasses
    (fun b hb => hframes b ?_) hstep).2 htorn₁
  exact mem_append_right _ (mem_singleton.mpr hb.symm)

/-- **Whole frames.**  In every interleaving of calls of `SendRequest`, `SendNotify` and
`SafeWrite` of whole frames, heartbeats and `Disconnect` in which no writer finds `closeCh`
open after a frame has been truncated, the bytes the connection accepted are a concatenation
of whole frames and at most one truncated frame, and nothing is written after that one. -/
theorem outbound_frames (params : Params) (events : Run Point Choice)
    (c : Config Generation Point) (hrun : (generation params).system.run events = some c)
    (hframes : ∀ b, .call (.safeWrite b .safeWrite) ∈ events → IsFrame b) (hstops : Stops events) :
    Truncated IsFrame c.shared.wire ∧
      ∀ before after c₀, events = before ++ after →
        (generation params).system.run before = some c₀ → torn before = true →
        c.shared.wire = c₀.shared.wire := by
  refine ⟨(outbound hrun hstops hframes).stream, ?_⟩
  rintro before after c₀ rfl hbefore htorn
  exact wire_of_torn hbefore htorn hrun hstops hframes

/-! ## Behind a truncated frame -/

/-- A notification and its packet. -/
def notification (id : UInt64) : Message :=
  { typ := .notify, id := id, route := [114], data := [7] }

@[inherit_doc notification]
def notificationFrame : Bytes := [4, 0, 0, 4, 2, 1, 114, 7]

/-- `SendNotify`, up to the check of `closeCh`. -/
def notifyUntilCheck (id : UInt64) : Run Point Choice :=
  [.call (.sendMsg .notify [114] [7]), .run (.sendMsg .notify [114] [7]) .go,
   .run (.writeLock (notification id) notificationFrame) .go]

/-- `SendNotify`, from an open `closeCh` on; the connection accepts `n` bytes. -/
def notifyWrites (id : UInt64) (n : ℕ) : Run Point Choice :=
  let m := notification id
  [.run (.writeSelect m notificationFrame) .go, .run (.sentLock m notificationFrame) .go,
   .run (.sentMark m notificationFrame) (.tick 10), .run (.sentUnlock m notificationFrame) .go,
   .run (.write m notificationFrame) (.written n (decide (n < 8))),
   .run (.writeUnlock m (if n < 8 then some .write else none)) .go]

/-- `SendNotify`, from a closed `closeCh` on. -/
def notifyRefused (id : UInt64) : Run Point Choice :=
  [.run (.writeSelect (notification id) notificationFrame) .closed,
   .run (.writeUnlock (notification id) (some .connectionClosed)) .go]

/-- `Disconnect` without requests in flight. -/
def disconnectIdle : Run Point Choice :=
  [.call .disconnect, .run .disconnect .go, .run .closeLock (.order []),
   .run (.closeRange []) .go, .run .closeChannel .go]

/-- A notification is truncated, the client disconnects, and the next one is refused. -/
def truncatedThenClosed : Run Point Choice :=
  notifyUntilCheck 1 ++ notifyWrites 1 7 ++ disconnectIdle ++ notifyUntilCheck 2 ++ notifyRefused 2

/-- The stream ends with the truncated notification. -/
theorem outbound_frames_disconnect : ∃ c,
    (generation quietParams).system.run truncatedThenClosed = some c ∧
    Truncated IsFrame c.shared.wire ∧ c.shared.wire = notificationFrame.take 7 := by
  have hcalls : truncatedThenClosed.all (fun e => match e with
      | .call (.safeWrite _ _) => false
      | _ => true) = true := by
    decide +kernel
  refine reaches_and (by decide +kernel) fun c hc _ =>
    (outbound_frames quietParams _ c hc (fun b hb => ?_) (by decide +kernel)).1
  cases List.all_eq_true.mp hcalls _ hb

/-- A frame has a header, and unless the header says 0 it is as long as the header says. -/
theorem IsFrame.header {f : Bytes} (h : IsFrame f) : ∃ t a b c body, f = t :: a :: b :: c :: body ∧
    Packet.ValidType t ∧
    (Packet.bytesToInt [a, b, c] ≠ 0 → body.length = Packet.bytesToInt [a, b, c]) := by
  obtain ⟨typ, data, h⟩ := h
  obtain ⟨valid, hle, rfl⟩ := Packet.encode_eq_ok_iff.mp h
  refine ⟨typ, _, _, _, data, rfl, valid, ?_⟩
  change Packet.bytesToInt (Packet.intToBytes data.length) ≠ 0 →
    data.length = Packet.bytesToInt (Packet.intToBytes data.length)
  rw [Packet.bytesToInt_intToBytes]
  intro hne
  by_cases hmax : data.length = Packet.maxPacketSize
  · rw [hmax] at hne
    exact absurd rfl hne
  · exact ((Packet.mod_eq_self_iff_ne_max hle).mpr hmax).symm

theorem front_of_truncated {bytes : Bytes} (h : Truncated IsFrame bytes) (hne : bytes ≠ []) :
    ∃ f, IsFrame f ∧ ((∃ more, bytes = f ++ more ∧ Truncated IsFrame more) ∨
      ∃ n, n < f.length ∧ bytes = f.take n) := by
  obtain ⟨_, cut, ⟨frames, hframes, rfl⟩, rfl, hcut⟩ := h
  cases frames with
  | nil =>
    rcases hcut with rfl | ⟨f, n, hf, hn, rfl⟩
    · exact absurd rfl hne
    · exact ⟨f, hf, .inr ⟨n, hn, rfl⟩⟩
  | cons f frames =>
    refine ⟨f, hframes f mem_cons_self, .inl ⟨frames.flatten ++ cut, ?_, ?_⟩⟩
    · rw [flatten_cons, append_assoc]
    · exact ⟨_, cut, ⟨frames, fun g hg => hframes g (mem_cons_of_mem f hg), rfl⟩, rfl, hcut⟩

theorem validType_of_truncated {t : UInt8} {bytes : Bytes}
    (h : Truncated IsFrame (t :: bytes)) : Packet.ValidType t := by
  obtain ⟨f, hf, hfront⟩ := front_of_truncated h (cons_ne_nil _ _)
  obtain ⟨t', a, b, c, body, rfl, valid, -⟩ := hf.header
  rcases hfront with ⟨more, hbytes, -⟩ | ⟨n, -, hbytes⟩
  · cases hbytes
    exact valid
  · cases n with
    | zero => cases hbytes
    | succ =>
      cases hbytes
      exact valid

/-- Behind as many bytes as its header says, a stream of frames goes on as one. -/
theorem truncated_drop {t a b c : UInt8} {bytes : Bytes}
    (h : Truncated IsFrame (t :: a :: b :: c :: bytes)) (hne : Packet.bytesToInt [a, b, c] ≠ 0)
    (hle : Packet.bytesToInt [a, b, c] ≤ bytes.length) :
    Truncated IsFrame (bytes.drop (Packet.bytesToInt [a, b, c])) := by
  obtain ⟨f, hf, hfront⟩ := front_of_truncated h (cons_ne_nil _ _)
  obtain ⟨t', a', b', c', body, rfl, -, hlen⟩ := hf.header
  rcases hfront with ⟨more, hbytes, hmore⟩ | ⟨n, hn, hbytes⟩
  · simp only [cons_append, cons.injEq] at hbytes
    obtain ⟨rfl, rfl, rfl, rfl, rfl⟩ := hbytes
    rw [← hlen hne, drop_left]
    exact hmore
  · -- a truncated frame is shorter than its header says
    have hn4 : 4 ≤ n := by
      have hlength := congrArg length hbytes
      simp only [length_cons, length_take] at hlength
      omega
    obtain ⟨m, rfl⟩ := Nat.exists_eq_add_of_le' hn4
    obtain ⟨rfl, rfl, rfl, rfl, rfl⟩ := hbytes
    rw [← hlen hne, length_take] at hle
    simp only [length_cons] at hn
    omega

/-- The first notification is truncated, and the second one goes on behind it: the last byte of
the first is missing, and what follows it is no frame. -/
theorem notification_follows_truncated : ∃ c,
    (generation quietParams).system.run (notifyUntilCheck 1 ++ notifyWrites 1 7 ++
      notifyUntilCheck 2 ++ notifyWrites 2 8) = some c ∧
    (¬ Truncated IsFrame c.shared.wire ∧
      Packet.decode c.shared.wire = .error .wrongPomeloPacketType) ∧
    c.shared.wire = notificationFrame.take 7 ++ notificationFrame := by
  refine reaches_and (by decide +kernel) fun c hc hwire => ⟨fun h => ?_, ?_⟩
  · rw [hwire] at h
    have hrest : Truncated IsFrame [0, 0, 4, 2, 1, 114, 7] :=
      truncated_drop h (by decide) (by decide)
    exact absurd (validType_of_truncated hrest) (by decide)
  · rw [hwire]
    decide +kernel

end Pitaya.Client
