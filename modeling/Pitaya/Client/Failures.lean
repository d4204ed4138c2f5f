import Pitaya.Client.Responses

/-!
# Requests that failed

`sendMsgTo` registers a request before it writes, stamps `sentAt` and writes, and
takes the request out of `pending` again if the write failed.  The write may block
for longer than a request may take, so by then the reaper, or a response, can have
taken it, and the caller gets the error and the answer.

* `Numbers` — what a step does to the ids: who draws one, who registers a request
  under it, which call returns with it; `step_numbers` is the inversion.
* `Numbered` — as long as the counter does not wrap (`NoWrap`), a drawn id belongs to
  one call, and a request is registered under it once.
-/

namespace Pitaya.Client

open Conn Threads Transition Multiset Program

/-! ## The ids of calls -/

/-- The id of the call of `sendMsgTo` that a goroutine is in. -/
def Point.call : Point → Multiset UInt64
  | .registerSelect m _ | .registerLock m _ | .registerCheck m _ | .registerRelease m _
  | .registerUnlock m _ | .writeLock m _ | .writeSelect m _ | .sentLock m _ | .sentMark m _
  | .sentUnlock m _ | .write m _ | .writeUnlock m _ => {m.id}
  | .takeLock id (.sendMsg _) | .takeLookup id (.sendMsg _) | .takeReceive id _ (.sendMsg _)
  | .takeUnlock id _ (.sendMsg _) => {id}
  | _ => 0

/-- The id of the call, if it has not registered a request: not yet, not any more, or
because it sends no request. -/
def Point.unregistered : Point → Multiset UInt64
  | .registerSelect m _ | .registerLock m _ | .registerCheck m _ | .registerRelease m _
  | .registerUnlock m (.error _) => {m.id}
  | .writeLock m _ | .writeSelect m _ | .sentLock m _ | .sentMark m _ | .sentUnlock m _
  | .write m _ | .writeUnlock m _ => if m.typ = MessageType.request then 0 else {m.id}
  | _ => 0

/-- `registerPending` is called with requests. -/
def Point.Typed : Point → Prop
  | .registerSelect m _ | .registerLock m _ | .registerCheck m _ | .registerRelease m _
  | .registerUnlock m _ => m.typ = MessageType.request
  | _ => True

/-- What a step does to the ids. -/
inductive Numbers (g : Generation) : Point → Generation → Option Point → Prop
  | keep {p g' p'} (nextID : g'.nextID = g.nextID)
      (returned : g'.record.returned = g.record.returned)
      (registered : g'.record.registered = g.record.registered)
      (call : p'.elim 0 Point.call = p.call)
      (unregistered : p'.elim 0 Point.unregistered = p.unregistered)
      (typed : ∀ q, p' = some q → q.Typed) : Numbers g p g' p'
  | elsewhere : Numbers g .elsewhere { g with nextID := g.nextID + 1 } none
  | refused {typ route data e} :
      Numbers g (.sendMsg typ route data)
        (({ g with nextID := g.nextID + 1 }).sendReturns (g.nextID + 1).toUInt64 (some e)) none
  | draw {typ route data q} (call : q.call = {(g.nextID + 1).toUInt64})
      (unregistered : q.unregistered = q.call) (typed : q.Typed) :
      Numbers g (.sendMsg typ route data) { g with nextID := g.nextID + 1 } (some q)
  | insert {m frame} (typed : m.typ = MessageType.request) :
      Numbers g (.registerCheck m frame) (g.insertPending m) (some (.registerUnlock m (.ok frame)))
  | returns {p g' id err} (nextID : g'.nextID = g.nextID)
      (returned : g'.record.returned = g.record.returned ++ [(id, err)])
      (registered : g'.record.registered = g.record.registered) (call : p.call = {id})
      (failed : ∀ e, err = some e → p.unregistered = {id} ∨
        ∃ taken, p = .takeUnlock id taken (.sendMsg e)) : Numbers g p g' none

variable {params : Params} {g g' : Generation} {p : Point} {p' : Option Point}
  {c : Config Generation Point}

theorem Numbers.to {q : Point} (nextID : g'.nextID = g.nextID)
    (returned : g'.record.returned = g.record.returned)
    (registered : g'.record.registered = g.record.registered) (call : q.call = p.call)
    (unregistered : q.unregistered = p.unregistered) (typed : q.Typed) :
    Numbers g p g' (some q) :=
  .keep nextID returned registered call unregistered fun q' h => by
    obtain rfl := Option.some.inj h
    exact typed

theorem Numbers.ends (nextID : g'.nextID = g.nextID)
    (returned : g'.record.returned = g.record.returned)
    (registered : g'.record.registered = g.record.registered) (call : p.call = 0)
    (unregistered : p.unregistered = 0) : Numbers g p g' none :=
  .keep nextID returned registered call.symm unregistered.symm fun _ h => by cases h

theorem Numbers.outside (call : p.call = 0) (unregistered : p.unregistered = 0)
    (nextID : g'.nextID = g.nextID) (returned : g'.record.returned = g.record.returned)
    (registered : g'.record.registered = g.record.registered)
    (next : ∀ q, p' = some q → q.call = 0 ∧ q.unregistered = 0 ∧ q.Typed) :
    Numbers g p g' p' := by
  cases p' with
  | none => exact .ends nextID returned registered call unregistered
  | some q =>
    obtain ⟨hcall, hunregistered, htyped⟩ := next q rfl
    exact .to nextID returned registered (hcall.trans call.symm)
      (hunregistered.trans unregistered.symm) htyped

theorem Turns.outside {q : Point} (h : Turns q) : q.call = 0 ∧ q.unregistered = 0 ∧ q.Typed := by
  cases h <;> exact ⟨rfl, rfl, trivial⟩

variable {choice : Choice}

theorem Talks.numbers (h : Talks params g p choice g' p') (hp : p.Typed) : Numbers g p g' p' := by
  cases h with
  | elsewhere => exact .elsewhere
  | refused => exact .refused
  | request id typ => exact .draw (singleton_inj.mpr id) rfl typ
  | other id other => exact .draw (singleton_inj.mpr id) (if_neg other) trivial
  | acquire => exact .to rfl rfl rfl rfl rfl hp
  | registerClosed => exact .returns rfl rfl rfl rfl fun e _ => .inl rfl
  | writeFailed request => exact .to rfl rfl rfl rfl (if_pos request).symm trivial
  | writeReturns other =>
    refine .returns rfl rfl rfl rfl fun e he => .inl (if_neg ?_)
    rcases other with rfl | other
    · cases he
    · exact other
  | @lockTake id caller => cases caller <;> exact .to rfl rfl rfl rfl rfl trivial
  | packet => exact .outside rfl rfl rfl rfl rfl fun _ h => (onPacket_turns h).outside
  | safeWriteClosed
  | safeWriteReturns => exact .outside rfl rfl rfl rfl rfl fun _ h => (writeReturns_turns h).outside
  | packetsClosed | forwardClosed | reaperClosed | disconnected | closeChannel =>
    exact .ends rfl rfl rfl rfl rfl
  | _ => exact .to rfl rfl rfl rfl rfl trivial

/-- **What a step does to the ids.** -/
theorem step_numbers (hp : p.Typed) (h : step params g p choice = some (g', p')) :
    Numbers g p g' p' := by
  cases step_moves h with
  | quiet same free => exact (step_talks free h).numbers hp
  | acquire | lockRegister | refuse | receiveRegister => exact .to rfl rfl rfl rfl rfl hp
  | @lockTake _ caller | @miss _ caller | @take _ caller | @receiveTake _ _ caller =>
    cases caller <;> exact .to rfl rfl rfl rfl rfl trivial
  | insert => exact .insert hp
  | unlockRegister => exact .to rfl rfl rfl rfl (if_pos hp) trivial
  | unlockRefused => exact .returns rfl rfl rfl rfl fun e _ => .inl rfl
  | @unlockSend id taken e =>
    refine .returns rfl rfl rfl rfl ?_
    rintro e' ⟨⟩
    exact .inr ⟨taken, rfl⟩
  | abandonResponse | abandonTimeouts => exact .ends rfl rfl rfl rfl rfl
  | _ => exact .to rfl rfl rfl rfl rfl trivial

/-! ## An id belongs to one call -/

/-- Distinct ids up to a number. -/
def Distinct (n : ℕ) (ids : Multiset UInt64) : Prop := ids.Nodup ∧ ∀ id ∈ ids, id.toNat ≤ n

theorem Distinct.of_le {n n' : ℕ} {ids ids' : Multiset UInt64} (h : Distinct n ids)
    (hids : ids' ≤ ids) (hn : n ≤ n') : Distinct n' ids' :=
  ⟨nodup_of_le hids h.1, fun id hid => (h.2 id (mem_of_le hids hid)).trans hn⟩

variable {id : UInt64}

theorem Distinct.notMem {n : ℕ} {ids : Multiset UInt64} (h : Distinct n ids)
    (hid : id.toNat = n + 1) : id ∉ ids := by
  intro hmem
  have := h.2 id hmem
  omega

theorem Distinct.cons {n : ℕ} {ids : Multiset UInt64} (h : Distinct n ids)
    (hid : id.toNat = n + 1) : Distinct (n + 1) (id ::ₘ ids) := by
  refine ⟨nodup_cons.mpr ⟨h.notMem hid, h.1⟩, fun id' hid' => ?_⟩
  rcases mem_cons.mp hid' with rfl | hid'
  · exact hid.le
  · exact (h.2 id' hid').trans (Nat.le_succ n)

/-- The ids of the calls, returned and in progress. -/
def callIDs (c : Config Generation Point) : Multiset UInt64 :=
  (c.shared.record.returned.map Prod.fst : List UInt64) + Program.total Point.call c.threads

/-- The ids under which a request is registered, and those of the calls without one. -/
def requestIDs (c : Config Generation Point) : Multiset UInt64 :=
  (c.shared.record.registered.map fun r => r.msg.id : List UInt64) +
    Program.total Point.unregistered c.threads

/-- Every id belongs to one call, and to one request at most. -/
structure Numbered (c : Config Generation Point) : Prop where
  typed : ∀ p ∈ c.threads, p.Typed
  calls : Distinct c.shared.nextID.toNat (callIDs c)
  requests : Distinct c.shared.nextID.toNat (requestIDs c)

/-- The next step of the goroutine draws an id. -/
def Point.draws : Point → Bool
  | .elsewhere | .sendMsg _ _ _ => true
  | _ => false

/-- The counter `nextID` does not wrap. -/
def NoWrap (c : Config Generation Point) : Event Point Choice → Prop
  | .call _ => True
  | .run p _ => p.draws = true → c.shared.nextID.toNat + 1 < 2 ^ 32

instance (c : Config Generation Point) (e : Event Point Choice) : Decidable (NoWrap c e) :=
  match e with
  | .call _ => inferInstanceAs (Decidable True)
  | .run _ _ => inferInstanceAs (Decidable (_ → _))

theorem toNat_nextID {n : UInt32} (h : n.toNat + 1 < 2 ^ 32) :
    (n + 1).toNat = n.toNat + 1 ∧ (n + 1).toUInt64.toNat = n.toNat + 1 := by
  have hadd : (n + 1).toNat = n.toNat + 1 := by
    exact Nat.mod_eq_of_lt h
  exact ⟨hadd, by rw [UInt32.toNat_toUInt64, hadd]⟩

theorem callIDs_cons (g : Generation) (p : Point) (rest : Multiset Point) :
    callIDs ⟨g, p ::ₘ rest⟩ = (g.record.returned.map Prod.fst : List UInt64) +
      (p.call + Program.total Point.call rest) := by
  rw [callIDs, total_cons]

theorem requestIDs_cons (g : Generation) (p : Point) (rest : Multiset Point) :
    requestIDs ⟨g, p ::ₘ rest⟩ = (g.record.registered.map fun r => r.msg.id : List UInt64) +
      (p.unregistered + Program.total Point.unregistered rest) := by
  rw [requestIDs, total_cons]

theorem Numbers.typed (h : Numbers g p g' p') : ∀ q, p' = some q → q.Typed := by
  rintro q rfl
  cases h with
  | keep _ _ _ _ _ typed => exact typed q rfl
  | draw _ _ typed => exact typed
  | insert typed => exact typed

theorem coe_map_concat {α : Type} (f : α → UInt64) (l : List α) (a : α) :
    (((l ++ [a]).map f : List UInt64) : Multiset UInt64) = f a ::ₘ (l.map f : List UInt64) := by
  rw [List.map_append, ← coe_add, List.map_singleton, coe_singleton, add_comm, singleton_add]

theorem Numbers.callIDs_eq (h : Numbers g p g' p') (rest : Multiset Point) :
    (g'.nextID = g.nextID ∧ callIDs ⟨g', rejoin p' rest⟩ = callIDs ⟨g, p ::ₘ rest⟩) ∨
      (p.draws = true ∧ g'.nextID = g.nextID + 1 ∧ callIDs ⟨g', rejoin p' rest⟩ ≤
        (g.nextID + 1).toUInt64 ::ₘ callIDs ⟨g, p ::ₘ rest⟩) := by
  rw [callIDs_cons, callIDs, total_rejoin]
  cases h with
  | keep nextID returned registered call =>
    exact .inl ⟨nextID, by rw [call, returned]⟩
  | elsewhere => exact .inr ⟨rfl, rfl, le_cons_self _ _⟩
  | refused =>
    refine .inr ⟨rfl, rfl, le_of_eq ?_⟩
    change (((g.record.returned ++ [_]).map Prod.fst : List UInt64) : Multiset UInt64) + _ = _
    rw [coe_map_concat, cons_add]
    rfl
  | draw call =>
    refine .inr ⟨rfl, rfl, le_of_eq ?_⟩
    change _ + (Point.call _ + _) = _ ::ₘ (_ + (0 + _))
    rw [call, zero_add, singleton_add, add_cons]
  | insert => exact .inl ⟨rfl, rfl⟩
  | returns nextID returned registered call =>
    refine .inl ⟨nextID, ?_⟩
    change _ + (0 + _) = _
    rw [returned, coe_map_concat, call, zero_add, singleton_add, cons_add, add_cons]

/-- A step keeps the ids of the requests or loses some, or draws the next one. -/
theorem Numbers.requestIDs_le (h : Numbers g p g' p') (rest : Multiset Point) :
    (g'.nextID = g.nextID ∧ requestIDs ⟨g', rejoin p' rest⟩ ≤ requestIDs ⟨g, p ::ₘ rest⟩) ∨
      (p.draws = true ∧ g'.nextID = g.nextID + 1 ∧ requestIDs ⟨g', rejoin p' rest⟩ ≤
        (g.nextID + 1).toUInt64 ::ₘ requestIDs ⟨g, p ::ₘ rest⟩) := by
  rw [requestIDs_cons, requestIDs, total_rejoin]
  cases h with
  | keep nextID returned registered call unregistered =>
    exact .inl ⟨nextID, by rw [unregistered, registered]⟩
  | elsewhere | refused => exact .inr ⟨rfl, rfl, le_cons_self _ _⟩
  | draw call unregistered =>
    refine .inr ⟨rfl, rfl, le_of_eq ?_⟩
    change _ + (Point.unregistered _ + _) = _ ::ₘ (_ + (0 + _))
    rw [unregistered, call, zero_add, singleton_add, add_cons]
  | insert =>
    refine .inl ⟨rfl, le_of_eq ?_⟩
    change (((g.record.registered ++ [_]).map _ : List UInt64) : Multiset UInt64) + (0 + _) =
      _ + ({_} + _)
    rw [coe_map_concat, zero_add, singleton_add, cons_add, add_cons]
  | returns nextID returned registered =>
    refine .inl ⟨nextID, ?_⟩
    rw [registered]
    exact add_le_add_right (add_le_add_left (zero_le _) _) _

variable {rest : Multiset Point}

theorem Numbered.step (h : Numbered ⟨g, p ::ₘ rest⟩)
    (hwrap : NoWrap ⟨g, p ::ₘ rest⟩ (.run p choice))
    (hstep : step params g p choice = some (g', p')) : Numbered ⟨g', rejoin p' rest⟩ := by
  have hnumbers := step_numbers (h.typed p (mem_cons_self p rest)) hstep
  refine ⟨fun q hq => ?_, ?_, ?_⟩
  · rcases mem_rejoin.mp hq with rfl | hq
    · exact hnumbers.typed q rfl
    · exact h.typed q (mem_cons_of_mem hq)
  · rcases hnumbers.callIDs_eq rest with ⟨hnext, hids⟩ | ⟨hdraws, hnext, hids⟩
    · rw [hids, hnext]
      exact h.calls
    · obtain ⟨hn, hid⟩ := toNat_nextID (hwrap hdraws)
      rw [hnext, hn]
      exact (h.calls.cons hid).of_le hids le_rfl
  · rcases hnumbers.requestIDs_le rest with ⟨hnext, hids⟩ | ⟨hdraws, hnext, hids⟩
    · rw [hnext]
      exact h.requests.of_le hids le_rfl
    · obtain ⟨hn, hid⟩ := toNat_nextID (hwrap hdraws)
      rw [hnext, hn]
      exact (h.requests.cons hid).of_le hids le_rfl

/-! ## A failed request -/

/-- No request registered under the id can be answered any more. -/
def Gone (g : Generation) (id : UInt64) : Prop :=
  ∀ r ∈ g.record.registered, r.msg.id = id → r ∈ g.record.dropped

theorem Gone.step (h : Gone g id) (hmoves : Moves params g p g' p') (hother : id ∉ p.call) :
    Gone g' id := by
  have hdrop (registrations : Multiset Registration) : Gone (g.drop registrations) id :=
    fun r hr hid => mem_add.mpr (.inr (h r hr hid))
  cases hmoves with
  | quiet same =>
    intro r hr hid
    rw [same.registered] at hr
    rw [same.dropped]
    exact h r hr hid
  | @insert m frame opened fresh =>
    intro r hr hid
    rcases List.mem_append.mp hr with hr | hr
    · exact h r hr hid
    · rw [List.mem_singleton.mp hr] at hid
      exact absurd (mem_singleton.mpr hid.symm) hother
  | drain => exact fun r hr hid => mem_add.mpr (.inr (h r hr hid))
  | unlockSend | abandonResponse | abandonTimeouts => exact hdrop _
  | _ => exact h

/-- The id of the request that the next step looks for, after its write has failed. -/
def cleanup : Event Point Choice → Option UInt64
  | .run (.takeLookup id (.sendMsg _)) _ => some id
  | _ => none

/-- Nobody has answered the id, and nobody has taken its request in order to do so. -/
def Unanswered (c : Config Generation Point) (id : UInt64) : Prop :=
  (∀ m ∈ c.shared.incoming, m.typ = MessageType.response → m.id ≠ id) ∧
    ∀ p ∈ c.threads, ∀ r ∈ p.custody, r.msg.id ≠ id

instance (c : Config Generation Point) (id : UInt64) : Decidable (Unanswered c id) :=
  inferInstanceAs (Decidable (_ ∧ _))

/-- After a failed write `takePending` finds the request in `pending`, or nobody answers it. -/
def Cleans (c : Config Generation Point) (e : Event Point Choice) : Prop :=
  ∀ id ∈ cleanup e, id ∉ c.shared.pending → Unanswered c id

instance (c : Config Generation Point) (e : Event Point Choice) : Decidable (Cleans c e) :=
  match h : cleanup e with
  | none => .isTrue (by simp [Cleans, h])
  | some id => decidable_of_iff (id ∉ c.shared.pending → Unanswered c id) (by simp [Cleans, h])

/-- A request that is not in `pending`, and that nobody answers, has been dropped. -/
theorem Unanswered.gone (h : Unanswered c id) (hreach : (generation params).Reachable c)
    (hid : id ∉ c.shared.pending) : Gone c.shared id := by
  have hanswered := answered hreach
  intro r hr hr'
  change r ∈ (c.shared.record.registered : Multiset Registration) at hr
  rw [(consistent hreach).split, removed_balanced hreach] at hr
  rcases mem_add.mp hr with hr | hr
  · rcases mem_add.mp hr with hr | hr
    · refine (mem_add.mp hr).resolve_left fun hdelivered => ?_
      obtain ⟨d, hd, rfl⟩ := List.mem_map.mp hdelivered
      obtain ⟨htyp, hmsg, -⟩ := Delivery.message_answers (hanswered.answers d hd)
      have hm : d.message params ∈ _ := List.mem_map_of_mem hd
      rw [← hanswered.responses] at hm
      exact h.1 _ (List.mem_of_mem_filter hm) htyp (hmsg.trans hr')
    · obtain ⟨p, hp, hr⟩ := mem_bind.mp hr
      exact absurd hr' (h.2 p hp r hr)
  · obtain ⟨request, hrequest, rfl⟩ := mem_map.mp hr
    obtain ⟨id', hlookup⟩ := Finmap.mem_values.mp hrequest
    obtain rfl := ((consistent hreach).keyed id' request hlookup).symm.trans hr'
    exact absurd (Finmap.mem_of_lookup_eq_some hlookup) hid

/-- Who returned an error, and who is about to without having found the request. -/
structure Failed (c : Config Generation Point) : Prop where
  numbered : Numbered c
  done : ∀ id e, (id, some e) ∈ c.shared.record.returned → Gone c.shared id
  missed : ∀ id e, .takeUnlock id none (.sendMsg e) ∈ c.threads → Gone c.shared id

theorem Numbered.notMem_call (h : Numbered ⟨g, p ::ₘ rest⟩)
    (hid : id ∈ g.record.returned.map Prod.fst ∨ ∃ q ∈ rest, id ∈ q.call) : id ∉ p.call := by
  have hnodup := h.calls.1
  rw [callIDs_cons, add_left_comm] at hnodup
  refine disjoint_right.mp (nodup_add.mp hnodup).2.2 (mem_add.mpr ?_)
  refine hid.imp (fun hid => hid) ?_
  rintro ⟨q, hq, hcall⟩
  obtain ⟨others, rfl⟩ := exists_cons_of_mem hq
  rw [total_cons]
  exact mem_add.mpr (.inl hcall)

theorem Numbered.registered_inj (h : Numbered c) {r r' : Registration}
    (hr : r ∈ c.shared.record.registered) (hr' : r' ∈ c.shared.record.registered)
    (hid : r.msg.id = r'.msg.id) : r = r' := by
  have hnodup : (c.shared.record.registered.map fun r => r.msg.id).Nodup :=
    (nodup_add.mp h.requests.1).1
  exact List.inj_on_of_nodup_map hnodup hr hr' hid

/-- A call that returns an error has not registered its request, or comes from
`takePending`. -/
theorem Numbers.failed {e : SendError} (h : Numbers g p g' p')
    (hid : (id, some e) ∈ g'.record.returned) : (id, some e) ∈ g.record.returned ∨
      (g'.record.registered = g.record.registered ∧ p.draws = true ∧
        id = (g.nextID + 1).toUInt64) ∨
      (g'.record.registered = g.record.registered ∧ p.unregistered = {id}) ∨
      ∃ taken, p = .takeUnlock id taken (.sendMsg e) := by
  cases h with
  | keep nextID returned => exact .inl (returned ▸ hid)
  | elsewhere | draw | insert => exact .inl hid
  | refused =>
    refine (List.mem_append.mp hid).imp (fun hid => hid) fun hid => .inl ⟨rfl, rfl, ?_⟩
    cases List.mem_singleton.mp hid
    rfl
  | returns nextID returned registered call failed =>
    rw [returned] at hid
    refine (List.mem_append.mp hid).imp (fun hid => hid) fun hid => .inr ?_
    cases List.mem_singleton.mp hid
    exact (failed e rfl).imp (fun hp => ⟨registered, hp⟩) fun hp => hp

theorem lookup_of_missed {caller : TakeCaller}
    (hstep : step params g p choice = some (g', some (.takeUnlock id none caller))) :
    p = .takeLookup id caller ∧ id ∉ g.pending ∧ g' = g := by
  cases step_moves hstep with
  | quiet same free free' => cases (free' _ rfl).1
  | miss =>
    refine ⟨rfl, Finmap.lookup_eq_none.mp ?_, rfl⟩
    cases choice with
    | go =>
      simp only [step] at hstep
      split at hstep
      · assumption
      · cases (Prod.mk.inj (Option.some.inj hstep)).2
    | _ => cases hstep

theorem registered_of_custody (hreach : (generation params).Reachable c) {r : Registration}
    (hp : p ∈ c.threads) (hr : r ∈ p.custody) : r ∈ c.shared.record.registered := by
  refine mem_of_le (removed_le_registered hreach) ?_
  obtain ⟨rest, hrest⟩ := exists_cons_of_mem hp
  rw [removed_balanced hreach, hrest, total_cons]
  exact mem_add.mpr (.inr (mem_add.mpr (.inl hr)))

theorem Failed.step (h : Failed ⟨g, p ::ₘ rest⟩)
    (hreach : (generation params).Reachable ⟨g, p ::ₘ rest⟩)
    (hwrap : NoWrap ⟨g, p ::ₘ rest⟩ (.run p choice))
    (hcleans : Cleans ⟨g, p ::ₘ rest⟩ (.run p choice))
    (hstep : step params g p choice = some (g', p')) : Failed ⟨g', rejoin p' rest⟩ := by
  have hmoves := step_moves hstep
  have hp : p ∈ p ::ₘ rest := mem_cons_self p rest
  have hnumbered := h.numbered
  -- without a registered request there is nothing to drop
  have hnone {id : UInt64} (hregistered : g'.record.registered = g.record.registered)
      (hid : id ∉ g.record.registered.map fun r => r.msg.id) : Gone g' id := by
    intro r hr hr'
    rw [hregistered] at hr
    exact absurd (List.mem_map.mpr ⟨r, hr, hr'⟩) hid
  refine ⟨hnumbered.step hwrap hstep, fun id e hid => ?_, fun id e hq => ?_⟩
  · rcases (step_numbers (hnumbered.typed p hp) hstep).failed hid with
      hid | ⟨hregistered, hdraws, rfl⟩ | ⟨hregistered, hunregistered⟩ | ⟨taken, rfl⟩
    · refine (h.done id e hid).step hmoves (hnumbered.notMem_call (.inl ?_))
      exact List.mem_map_of_mem hid
    · refine hnone hregistered fun hmem => ?_
      exact hnumbered.requests.notMem (toNat_nextID (hwrap hdraws)).2 (mem_add.mpr (.inl hmem))
    · refine hnone hregistered fun hmem => ?_
      have hnodup := hnumbered.requests.1
      rw [requestIDs_cons, hunregistered] at hnodup
      refine disjoint_left.mp (nodup_add.mp hnodup).2.2 hmem ?_
      exact mem_add.mpr (.inl (mem_singleton_self id))
    · -- the request that `takePending` found is dropped as the call returns
      cases hmoves with
      | quiet same free => cases free
      | unlockSend =>
        cases taken with
        | none => exact fun r hr hid => mem_add.mpr (.inr (h.missed id e hp r hr hid))
        | some taken =>
          have htaken : taken ∈ g.record.registered :=
            registered_of_custody hreach hp (mem_singleton_self taken)
          have hfits : taken.msg.id = id := (fits hreach _ hp).1
          intro r hr hid
          obtain rfl : r = taken := hnumbered.registered_inj hr htaken (hid.trans hfits.symm)
          exact mem_add.mpr (.inl (mem_singleton_self r))
  · rcases mem_rejoin.mp hq with rfl | hq
    · obtain ⟨rfl, hmissed, rfl⟩ := lookup_of_missed hstep
      exact (hcleans id rfl hmissed).gone hreach hmissed
    · exact (h.missed id e (mem_cons_of_mem hq)).step hmoves
        (hnumbered.notMem_call (.inr ⟨_, hq, mem_singleton_self id⟩))

theorem Numbered.start : Numbered ⟨(generation params).start, (generation params).main⟩ := by
  have hmain (held : Point → Multiset UInt64)
      (hheld : held .packets = 0 ∧ held .reaper = 0 ∧ held .heartbeat = 0) :
      total held (generation params).main = 0 := by
    refine total_eq_zero fun p hp => ?_
    rcases mem_generation_main hp with rfl | rfl | rfl
    · exact hheld.1
    · exact hheld.2.1
    · exact hheld.2.2
  refine ⟨fun p hp => ?_, ?_, ?_⟩
  · rcases mem_generation_main hp with rfl | rfl | rfl <;> trivial
  · rw [callIDs, hmain Point.call ⟨rfl, rfl, rfl⟩]
    exact ⟨nodup_zero, fun id hid => by cases hid⟩
  · rw [requestIDs, hmain Point.unregistered ⟨rfl, rfl, rfl⟩]
    exact ⟨nodup_zero, fun id hid => by cases hid⟩

theorem Numbered.entry {threads : Multiset Point} (h : Numbered ⟨g, threads⟩)
    (hentry : (generation params).entry p = true) : Numbered ⟨g, p ::ₘ threads⟩ := by
  have hfree : p.call = 0 ∧ p.unregistered = 0 ∧ p.Typed := by
    cases p <;> first | exact ⟨rfl, rfl, trivial⟩ | cases hentry
  refine ⟨fun q hq => ?_, ?_, ?_⟩
  · rcases mem_cons.mp hq with rfl | hq
    · exact hfree.2.2
    · exact h.typed q hq
  · rw [callIDs_cons, hfree.1, zero_add]
    exact h.calls
  · rw [requestIDs_cons, hfree.2.1, zero_add]
    exact h.requests

theorem failed {events : Run Point Choice} (hrun : (generation params).system.run events = some c)
    (hmeets : (generation params).system.Meets (fun c e => NoWrap c e ∧ Cleans c e) events) :
    Failed c := by
  refine config_induction_of_meets ?_ ?_ ?_ hrun hmeets
  · refine ⟨.start, fun id e hid => absurd hid List.not_mem_nil, fun id e hp => ?_⟩
    rcases mem_generation_main hp with hp | hp | hp <;> cases hp
  · intro g threads p _ _ h hentry
    refine ⟨h.numbered.entry hentry, h.done, fun id e hq => ?_⟩
    rcases mem_cons.mp hq with rfl | hq
    · cases hentry
    · exact h.missed id e hq
  · exact fun g p rest choice g' p' hreach hC h hstep => h.step hreach hC.1 hC.2 hstep

/-- No `Response` with the id of requests that have been dropped. -/
theorem Gone.no_response {id : UInt64} (h : Gone c.shared id)
    (hreach : (generation params).Reachable c) :
    ∀ m ∈ c.shared.incoming, m.typ = MessageType.response → m.id ≠ id := by
  intro m hm htyp hid
  have hanswered := answered hreach
  have hresponse : m ∈ c.shared.incoming.filter fun m => m.typ = MessageType.response :=
    List.mem_filter.mpr ⟨hm, decide_eq_true htyp⟩
  rw [hanswered.responses] at hresponse
  obtain ⟨d, hd, rfl⟩ := List.mem_map.mp hresponse
  have hdelivered : d.registration ∈ c.shared.record.delivered.map Delivery.registration :=
    List.mem_map_of_mem hd
  have hsettled := (settled_le_removed hreach).trans (removed_le_registered hreach)
  have hregistered : d.registration ∈ c.shared.record.registered :=
    Multiset.mem_of_le hsettled (Multiset.mem_add.mpr (.inl hdelivered))
  have hdropped : d.registration ∈ c.shared.record.dropped :=
    h _ hregistered ((Delivery.message_answers (hanswered.answers d hd)).2.1.symm.trans hid)
  -- what has been answered has not been dropped
  have hnodup : c.shared.settled.Nodup :=
    Multiset.nodup_of_le hsettled (consistent hreach).registered_nodup
  exact Multiset.disjoint_left.mp (Multiset.nodup_add.mp hnodup).2.2 hdelivered hdropped

/-- **A failed request is not answered.**  In every interleaving in which `nextID` does not
wrap and in which every call whose write fails finds its request in `pending`, or finds that nobody
answers it, there is never a `Response` with the id of a call that returned an error. -/
theorem failed_request_unanswered (params : Params) (events : Run Point Choice)
    (c : Config Generation Point) (hrun : (generation params).system.run events = some c)
    (hmeets : (generation params).system.Meets (fun c e => NoWrap c e ∧ Cleans c e) events)
    (id : UInt64) (e : SendError) (hid : (id, some e) ∈ c.shared.record.returned) :
    ∀ m ∈ c.shared.incoming, m.typ = MessageType.response → m.id ≠ id :=
  ((failed hrun hmeets).done id e hid).no_response ⟨events, hrun⟩

/-- `SendRequest`, up to the write. -/
def sendUntilWrite : Run Point Choice := oneRequest.take 11

/-- The write fails, and the call looks for its request. -/
def writeFails : Run Point Choice :=
  [.run (.write firstRequest firstFrame) (.written 0 true),
   .run (.writeUnlock firstRequest (some .write)) .go, .run (.takeLock 1 (.sendMsg .write)) .go,
   .run (.takeLookup 1 (.sendMsg .write)) .go]

/-- It finds the request, and returns the error. -/
def failsFound : Run Point Choice :=
  [.run (.takeReceive 1 ⟨0, firstRequest⟩ (.sendMsg .write)) .go,
   .run (.takeUnlock 1 (some ⟨0, firstRequest⟩) (.sendMsg .write)) .go]

/-- It does not find the request, and returns the error. -/
def failsMissed : Run Point Choice := [.run (.takeUnlock 1 none (.sendMsg .write)) .go]

/-- The reaper finds that the request has timed out. -/
def timeOut : Run Point Choice :=
  [.run .reaper (.tick 16), .run (.reapLock 16) (.order [1]), .run (.reapRange 16 [1] []) .go,
   .run (.reapReceive 16 [] [⟨0, firstRequest⟩]) .go,
   .run (.reapRange 16 [] [⟨0, firstRequest⟩]) .go, .run (.reapDeliver [⟨0, firstRequest⟩]) .go,
   .run (.reapDeliver []) .go]

/-- `SendRequest` fails at once, and a response to the request comes all the same. -/
def failThenRespond : Run Point Choice :=
  sendUntilWrite ++ writeFails ++ failsFound ++ respondTwice.drop 6

/-- A response to a request that failed is dropped. -/
theorem failed_request_unanswered_late : ∃ c,
    (generation quietParams).system.run failThenRespond = some c ∧
    (∀ m ∈ c.shared.incoming, m.typ = MessageType.response → m.id ≠ 1) ∧
    (1, some .write) ∈ c.shared.record.returned := by
  refine reaches_and (by decide +kernel) fun c hc hreturned => ?_
  have hmeets : (generation quietParams).system.Meets (fun c e => NoWrap c e ∧ Cleans c e)
      failThenRespond :=
    System.meets_of_meetsFrom (by decide +kernel)
  exact failed_request_unanswered quietParams _ c hc hmeets 1 .write hreturned

/-- A write that blocks for longer than a request may take, and then fails: the caller gets
the error, and the timeout as a `Response`. -/
theorem failed_request_times_out : ∃ c, (generation quietParams).system.run
      (sendUntilWrite ++ timeOut ++ writeFails ++ failsMissed) = some c ∧
    c.shared.record.returned = [(1, some .write)] ∧
    c.shared.incoming = [timeoutMessage quietParams firstRequest] := by
  decide +kernel

end Pitaya.Client
