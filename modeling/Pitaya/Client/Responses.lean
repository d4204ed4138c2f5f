import Mathlib.Data.List.Count
import Pitaya.Client.Slots

/-!
# Responses

A response of the server, the timeout of the reaper, a failed write and a disconnect
race to remove the same request from `pending`; whoever removes it may put a
`Response` on `incomingChan` afterwards, outside the lock.
-/

namespace Pitaya.Client

open Conn Threads Transition Multiset Finmap Option Program Generation

variable {params : Params} {g g' : Generation} {p : Point} {p' : Option Point}
  {c : Config Generation Point}

/-! ## Registered, removed, pending -/

/-- The registrations in `pending`. -/
def Generation.outstanding (g : Generation) : Multiset Registration :=
  g.pending.values.map PendingRequest.registration

/-- Every registered request is removed or pending, under its own id, and the
registrations are numbered. -/
structure Consistent (g : Generation) : Prop where
  split : (g.record.registered : Multiset Registration) = g.record.removed + g.outstanding
  numbered : g.record.registered.map Registration.number
    = List.range g.record.registered.length
  keyed : ∀ id r, g.pending.lookup id = some r → r.registration.msg.id = id

theorem Consistent.registered_nodup (h : Consistent g) : g.record.registered.Nodup := by
  refine List.Nodup.of_map Registration.number ?_
  rw [h.numbered]
  exact List.nodup_range

theorem Consistent.of_same {g g' : Generation} (h : Consistent g)
    (registered : g'.record.registered = g.record.registered)
    (removed : g'.record.removed = g.record.removed) (pending : g'.pending = g.pending) :
    Consistent g' where
  split := by
    rw [registered, removed, outstanding, pending]
    exact h.split
  numbered := by
    rw [registered]
    exact h.numbered
  keyed := by
    rw [pending]
    exact h.keyed

theorem Consistent.insert {m : Message} (h : Consistent g)
    (fresh : g.pending.lookup m.id = none) : Consistent (g.insertPending m) where
  split := by
    have hvalues : (g.insertPending m).outstanding
        = ⟨g.record.registered.length, m⟩ ::ₘ g.outstanding := by
      rw [outstanding, insertPending, values_insert_of_notMem (lookup_eq_none.mp fresh), map_cons]
      rfl
    rw [hvalues]
    change ((g.record.registered ++ [_] : List Registration) : Multiset Registration)
      = g.record.removed + _
    rw [← coe_add, h.split, add_cons, coe_singleton, add_comm, singleton_add]
  numbered := by
    change (g.record.registered ++ [_]).map _ = List.range (g.record.registered ++ [_]).length
    rw [List.map_append, h.numbered, List.length_append, List.length_singleton, List.range_succ]
    rfl
  keyed := by
    intro id r hlookup
    by_cases hid : id = m.id
    · subst hid
      rw [insertPending, lookup_insert] at hlookup
      obtain rfl := some.inj hlookup
      rfl
    · rw [insertPending, lookup_insert_of_ne _ hid] at hlookup
      exact h.keyed id r hlookup

theorem Consistent.mark {id : UInt64} {now : ℕ} (h : Consistent g) :
    Consistent (g.markSent id now) := by
  cases found : g.pending.lookup id with
  | none =>
    refine h.of_same rfl rfl ?_
    rw [markSent, found]
  | some r =>
    have hpending : (g.markSent id now).pending
        = g.pending.insert id { r with sentAt := some now } := by
      rw [markSent, found]
    refine ⟨?_, h.numbered, ?_⟩
    · have hsame : (g.markSent id now).outstanding = g.outstanding := by
        rw [outstanding, outstanding, hpending, values_insert,
          values_of_lookup found, map_cons, map_cons]
      rw [hsame]
      exact h.split
    · intro id' r' hlookup
      rw [hpending] at hlookup
      by_cases hid : id' = id
      · subst hid
        rw [lookup_insert] at hlookup
        obtain rfl := some.inj hlookup
        exact h.keyed id' r found
      · rw [lookup_insert_of_ne _ hid] at hlookup
        exact h.keyed id' r' hlookup

theorem Consistent.delete {id : UInt64} {r : PendingRequest} (h : Consistent g)
    (found : g.pending.lookup id = some r) : Consistent (g.deletePending id r) where
  split := by
    have hvalues : g.outstanding = r.registration ::ₘ (g.deletePending id r).outstanding := by
      rw [outstanding, values_of_lookup found, map_cons]
      rfl
    change (g.record.registered : Multiset Registration) = (_ ::ₘ g.record.removed) + _
    rw [h.split, hvalues, add_cons, cons_add]
  numbered := h.numbered
  keyed := by
    intro id' r' hlookup
    rw [deletePending] at hlookup
    by_cases hid : id' = id
    · subst hid
      rw [lookup_erase] at hlookup
      cases hlookup
    · rw [lookup_erase_ne hid] at hlookup
      exact h.keyed id' r' hlookup

theorem Moves.consistent (h : Moves params g p g' p') (hg : Consistent g) : Consistent g' := by
  cases h with
  | quiet same => exact hg.of_same same.registered same.removed same.pending
  | insert opened fresh => exact hg.insert fresh
  | mark => exact hg.mark
  | take found | reap found => exact hg.delete found
  | drain found => exact (hg.delete found).of_same rfl rfl rfl
  | _ => exact hg.of_same rfl rfl rfl

theorem consistent_start : Consistent {} where
  split := rfl
  numbered := rfl
  keyed id r hlookup := by
    cases hlookup

theorem consistent (h : (generation params).Reachable c) : Consistent c.shared :=
  shared_invariant (J := Consistent) consistent_start
    (fun _ _ _ _ _ hg hstep => (step_moves hstep).consistent hg) h

/-! ## Custody -/

/-- The requests a goroutine has removed and neither answered nor dropped. -/
def Point.custody : Point → Multiset Registration
  | .takeReceive _ registration _ | .takeUnlock _ (some registration) _ => {registration}
  | .respond d => {d.registration}
  | .reapRange _ _ reaped | .reapReceive _ _ reaped | .reapDeliver reaped => reaped
  | _ => 0

/-- The requests that have been answered or dropped. -/
def Generation.settled (g : Generation) : Multiset Registration :=
  (g.record.delivered.map Delivery.registration : List Registration) + g.record.dropped

theorem Point.custody_of_free (h : p.free = true) : p.custody = 0 := by
  cases p <;> first | rfl | cases h

theorem putResponse_settled (g : Generation) (d : Delivery) :
    (g.putResponse params d).settled = d.registration ::ₘ g.settled := by
  change (((g.record.delivered ++ [d]).map _ : List Registration) : Multiset Registration) + _ = _
  rw [List.map_append, ← coe_add, List.map_singleton, coe_singleton,
    add_right_comm, add_comm, singleton_add]
  rfl

theorem drop_settled (g : Generation) (registrations : Multiset Registration) :
    (g.drop registrations).settled = g.settled + registrations := by
  change _ + (registrations + g.record.dropped) = _
  rw [add_comm registrations, ← add_assoc]
  rfl

/-- A step removes, answers and drops what the custody of the goroutine gains and
loses. -/
theorem Moves.custody_conserved (h : Moves params g p g' p') :
    g'.record.removed + (g.settled + p.custody)
      = g.record.removed + (g'.settled + p'.elim 0 Point.custody) := by
  -- a removed request goes into the custody of the goroutine
  have remove (registration : Registration) (custody : Multiset Registration) :
      (registration ::ₘ g.record.removed) + (g.settled + custody)
        = g.record.removed + (g.settled + (custody + {registration})) := by
    rw [← singleton_add]
    abel
  cases h with
  | quiet same free free' =>
    have hsettled : g'.settled = g.settled := by
      rw [settled, same.delivered, same.dropped, settled]
    rw [same.removed, hsettled, Point.custody_of_free free]
    cases p' with
    | none => rfl
    | some q =>
      change _ = _ + (_ + q.custody)
      rw [Point.custody_of_free (free' q rfl).1]
  | take => exact remove _ 0
  | reap => exact remove _ _
  | drain =>
    refine (remove _ 0).trans ?_
    change _ = _ + (settled (drop _ _) + 0)
    rw [drop_settled, zero_add, add_zero]
    rfl
  | @unlockSend id taken e =>
    change _ = _ + ((g.drop _).settled + 0)
    rw [drop_settled, add_zero]
    cases taken <;> rfl
  | respond =>
    change _ = _ + ((g.putResponse params _).settled + 0)
    rw [putResponse_settled, ← singleton_add, add_comm {_}, add_zero]
    rfl
  | abandonResponse | abandonTimeouts =>
    change _ = _ + ((g.drop _).settled + 0)
    rw [drop_settled, add_zero]
    rfl
  | @timeout registration rest =>
    change _ + (_ + ((registration :: rest : List Registration) : Multiset Registration))
      = _ + ((g.putResponse params _).settled + _)
    rw [putResponse_settled, ← cons_coe, add_cons, cons_add]
    rfl
  | _ => rfl

/-- **Custody**: a removed request has been answered, or dropped, or one goroutine
has it. -/
theorem removed_balanced (h : (generation params).Reachable c) :
    c.shared.record.removed = c.shared.settled + Program.total Point.custody c.threads := by
  refine balanced (fun g => g.record.removed) settled Point.custody ?_ ?_ ?_ h
  · rw [total_eq_zero fun p hp => Point.custody_of_free (generation_main_free p hp)]
    rfl
  · exact fun p hp => Point.custody_of_free (generation_entry_free hp)
  · exact fun g p rest choice g' p' _ _ hstep => (step_moves hstep).custody_conserved

theorem removed_le_registered (h : (generation params).Reachable c) :
    c.shared.record.removed ≤ c.shared.record.registered := by
  rw [(consistent h).split]
  exact le_add_right _ _

theorem settled_le_removed (h : (generation params).Reachable c) :
    c.shared.settled ≤ c.shared.record.removed := by
  rw [removed_balanced h]
  exact le_add_right _ _

/-! ## Answers -/

theorem fits_of_entry (h : (generation params).entry p = true) : p.Fits := by
  cases p <;> trivial

theorem fits_of_main : ∀ p ∈ (generation params).main, p.Fits := by
  intro p hp
  rcases mem_generation_main hp with rfl | rfl | rfl <;> trivial

theorem Moves.fits {q : Point} (h : Moves params g p g' (some q)) (hg : Consistent g)
    (hp : p.Fits) : q.Fits := by
  cases h with
  | quiet same free free' => exact (free' q rfl).2
  | take found => exact ⟨hg.keyed _ _ found, hp⟩
  | unlockTaken =>
    obtain ⟨hid, htyp, hm⟩ := hp
    intro m' hm'
    obtain rfl := some.inj hm'
    exact ⟨htyp, hm.trans hid.symm⟩
  | _ => trivial

theorem fits (h : (generation params).Reachable c) : ∀ p ∈ c.threads, p.Fits :=
  thread_invariant (J := fun _ p => p.Fits) fits_of_main
    (fun _ _ _ _ hentry => fits_of_entry hentry)
    (fun _ _ _ _ _ _ hreach hp hstep => (step_moves hstep).fits (consistent hreach) hp)
    (fun _ _ _ _ _ _ _ _ _ _ hq _ => hq) h

/-- The `Response`s on `incomingChan` are the answers that have been recorded. -/
structure Answered (params : Params) (g : Generation) : Prop where
  responses : g.incoming.filter (fun m => m.typ = MessageType.response)
    = g.record.delivered.map (Delivery.message params)
  answers : ∀ d ∈ g.record.delivered, d.Answers

/-- The message of a delivery is a response to the registered request; unless the
server gave a route, it has the route of the request. -/
theorem Delivery.message_answers {d : Delivery} (h : d.Answers) :
    (d.message params).typ = MessageType.response ∧
      (d.message params).id = d.registration.msg.id ∧
      ((∀ m, d.received = some m → m.route = []) →
        (d.message params).route = d.registration.msg.route) := by
  obtain ⟨registration, received⟩ := d
  cases received with
  | none => exact ⟨rfl, rfl, fun _ => rfl⟩
  | some m =>
    obtain ⟨htyp, hid⟩ := h m rfl
    by_cases hroute : m.route = []
    · have hmessage : Delivery.message params ⟨registration, some m⟩
          = { m with route := registration.msg.route } := if_pos hroute
      rw [hmessage]
      exact ⟨htyp, hid, fun _ => rfl⟩
    · have hmessage : Delivery.message params ⟨registration, some m⟩ = m := if_neg hroute
      rw [hmessage]
      exact ⟨htyp, hid, fun hnone => absurd (hnone m rfl) hroute⟩

theorem Answered.respond {d : Delivery} (h : Answered params g) (hd : d.Answers) :
    Answered params (g.putResponse params d) where
  responses := by
    have htyp : (d.message params).typ = MessageType.response :=
      (Delivery.message_answers hd).1
    change (g.incoming ++ [_]).filter _ = (g.record.delivered ++ [_]).map _
    rw [List.filter_append, h.responses, List.map_append, List.map_singleton,
      List.filter_singleton, htyp]
    rfl
  answers := by
    intro d' hd'
    rcases List.mem_append.mp hd' with hold | hnew
    · exact h.answers d' hold
    · rw [List.mem_singleton.mp hnew]
      exact hd

theorem Moves.answered (h : Moves params g p g' p') (hp : p.Fits) (hg : Answered params g) :
    Answered params g' := by
  cases h with
  | quiet same =>
    refine ⟨?_, ?_⟩
    · rw [same.incoming, same.delivered]
      exact hg.responses
    · rw [same.delivered]
      exact hg.answers
  | forward =>
    refine ⟨?_, hg.answers⟩
    change (g.incoming ++ [_]).filter _ = _
    rw [List.filter_append, hg.responses, List.filter_singleton, decide_eq_false hp]
    exact List.append_nil _
  | respond => exact hg.respond hp
  | timeout => exact hg.respond fun _ hm => by cases hm
  | _ => exact ⟨hg.responses, hg.answers⟩

theorem answered (h : (generation params).Reachable c) : Answered params c.shared := by
  apply config_induction
    ⟨rfl, fun _ hd => by cases hd⟩ (fun _ _ _ _ hg _ => hg) ?_ h
  intro g p rest choice g' p' hreach hg hstep
  exact (step_moves hstep).answered (fits hreach p (mem_cons_self p rest)) hg

/-- **Responses are delivered at most once, and to requests.**  In every state the
goroutines of a generation reach: the `Response`s on `incomingChan` are the messages
of the recorded deliveries, each of which has the id of the request it answers and
its route unless the server gave one; the requests that were answered are distinct
and were removed from `pending`, each of them once; removed and pending requests
together are the registered ones; and there are at most as many `Response`s with an
id as requests registered under it. -/
theorem responses_once (params : Params) (c : Config Generation Point)
    (h : (generation params).Reachable c) :
    c.shared.incoming.filter (fun m => m.typ = MessageType.response)
      = c.shared.record.delivered.map (Delivery.message params) ∧
    (∀ d ∈ c.shared.record.delivered, (d.message params).id = d.registration.msg.id ∧
      ((∀ m, d.received = some m → m.route = []) →
        (d.message params).route = d.registration.msg.route)) ∧
    ((c.shared.record.delivered.map Delivery.registration : List Registration) :
      Multiset Registration) ≤ c.shared.record.removed ∧
    c.shared.record.removed.Nodup ∧
    c.shared.record.removed + c.shared.outstanding = c.shared.record.registered ∧
    ∀ id, (c.shared.incoming.countP fun m => m.typ = MessageType.response ∧ m.id = id)
      ≤ c.shared.record.registered.countP fun r => r.msg.id = id := by
  have hconsistent := consistent h
  have hanswered := answered h
  have hremoved : ((c.shared.record.delivered.map Delivery.registration : List Registration) :
      Multiset Registration) ≤ c.shared.record.removed :=
    (Multiset.le_add_right _ _).trans (settled_le_removed h)
  have hregistered := removed_le_registered h
  refine ⟨hanswered.responses, fun d hd => (Delivery.message_answers (hanswered.answers d hd)).2,
    hremoved, Multiset.nodup_of_le hregistered hconsistent.registered_nodup,
    hconsistent.split.symm, fun id => ?_⟩
  calc (c.shared.incoming.countP fun m => m.typ = MessageType.response ∧ m.id = id)
      = (c.shared.incoming.filter fun m => m.typ = MessageType.response).countP
          fun m => m.id = id := by
        rw [List.countP_filter]
        exact List.countP_congr fun m _ => by
          rw [decide_eq_true_eq, Bool.and_eq_true, decide_eq_true_eq, decide_eq_true_eq, and_comm]
    _ = (c.shared.record.delivered.map Delivery.registration).countP
          fun r => r.msg.id = id := by
        rw [hanswered.responses, List.countP_map, List.countP_map]
        refine List.countP_congr fun d hd => ?_
        have hid : (d.message params).id = d.registration.msg.id :=
          (Delivery.message_answers (hanswered.answers d hd)).2.1
        simp only [Function.comp_apply, hid]
    _ ≤ c.shared.record.registered.countP fun r => r.msg.id = id :=
        List.Subperm.countP_le _ (Multiset.coe_le.mp (hremoved.trans hregistered))

/-- A response of the server to the first request, without a route. -/
def firstResponse : Message := { typ := .response, id := 1, data := [9] }

@[inherit_doc firstResponse]
def firstResponsePacket : Packet := { typ := PacketType.data, length := 3, data := [4, 1, 9] }

/-- `handlePackets` answers the request when the response arrives, and drops the
response when it arrives a second time. -/
def respondTwice : Run Point Choice :=
  let caller := TakeCaller.packets firstResponse
  .run .packets (.packet firstResponsePacket) ::
  steps .go [.takeLock 1 caller, .takeLookup 1 caller, .takeReceive 1 ⟨0, firstRequest⟩ caller,
    .takeUnlock 1 (some ⟨0, firstRequest⟩) caller,
    .respond ⟨⟨0, firstRequest⟩, some firstResponse⟩] ++
  .run .packets (.packet firstResponsePacket) ::
  steps .go [.takeLock 1 caller, .takeLookup 1 caller, .takeUnlock 1 none caller]

/-- One request and two responses to it: one `Response`, with the route of the
request. -/
theorem responses_once_duplicate : ∃ c,
    (generation quietParams).system.run (oneRequest ++ respondTwice) = some c ∧
    (c.shared.incoming.countP fun m => m.typ = MessageType.response ∧ m.id = 1)
      ≤ (c.shared.record.registered.countP fun r => r.msg.id = 1) ∧
    c.shared.incoming = [{ firstResponse with route := [114] }] :=
  reaches_and (by decide +kernel) fun c hc _ =>
    (responses_once quietParams c ⟨_, hc⟩).2.2.2.2.2 1

end Pitaya.Client
