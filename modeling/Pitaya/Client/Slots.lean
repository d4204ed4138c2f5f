import Pitaya.Client.Moves

/-!
# In-flight slots

A request takes a token of `slots` outside the lock, is admitted or refused under it,
and the token is given back in one of six places.  Over every interleaving of the
goroutines of a generation:

* `Point.holdsSlot` and `Point.owesSlot` — a goroutine in `registerPending` that has a
  token and has neither inserted nor released it; a goroutine that has deleted a
  request and not yet received its token.
* `pendingMu_mutex` — at most one goroutine is in a critical section.
* `pending_draining` — once `closed`, what is left in `pending` is still to be visited
  by the loop of `disconnectGeneration`.
* `slot_accounting` puts them together.
-/

namespace Pitaya.Client

open Conn Threads Transition Finmap List Program Generation

/-! ## Who has a token -/

/-- In `registerPending`, with a token that is neither inserted nor released. -/
def Point.holdsSlot : Point → Bool
  | .registerLock _ _ | .registerCheck _ _ | .registerRelease _ _ => true
  | _ => false

/-- Between the deletion of a request and the receive of its token. -/
def Point.owesSlot : Point → Bool
  | .takeReceive _ _ _ | .reapReceive _ _ _ | .closeReceive _ => true
  | _ => false

/-- About to receive from `slots` under `pendingMu`. -/
def Point.receives : Point → Bool
  | .registerRelease _ _ | .takeReceive _ _ _ | .reapReceive _ _ _ | .closeReceive _ => true
  | _ => false

/-- The tokens a goroutine accounts for. -/
def Point.tokens (p : Point) : ℕ := p.holdsSlot.toNat + p.owesSlot.toNat

/-- In a critical section of `pendingMu`. -/
def Point.locked : Point → Bool
  | .registerCheck _ _ | .registerRelease _ _ | .registerUnlock _ _ | .sentMark _ _
  | .sentUnlock _ _ | .takeLookup _ _ | .takeReceive _ _ _ | .takeUnlock _ _ _
  | .reapRange _ _ _ | .reapReceive _ _ _ | .closeRange _ | .closeReceive _ => true
  | _ => false

/-- The ids the loop of `disconnectGeneration` has still to visit. -/
def Point.closing : Point → List UInt64
  | .closeRange ids | .closeReceive ids => ids
  | _ => []

variable {p : Point}

theorem Point.tokens_of_free (h : p.free = true) : p.tokens = 0 := by
  cases p <;> first | rfl | cases h

theorem Point.locked_of_free (h : p.free = true) : p.locked = false := by
  cases p <;> first | rfl | cases h

theorem Point.closing_of_free (h : p.free = true) : p.closing = [] := by
  cases p <;> first | rfl | cases h

theorem Point.locked_of_owesSlot (h : p.owesSlot = true) : p.locked = true := by
  cases p <;> first | rfl | cases h

theorem Point.tokens_of_receives (h : p.receives = true) : p.tokens = 1 := by
  cases p <;> first | rfl | cases h

variable {params : Params} {g g' : Generation} {p : Point} {p' : Option Point}

/-! ## One step -/

theorem markSent_size (g : Generation) (id : UInt64) (now : ℕ) :
    (g.markSent id now).pending.size = g.pending.size := by
  unfold markSent
  split
  · rfl
  · next found => exact size_insert_of_mem (mem_of_lookup_eq_some found) _

theorem deletePending_size {id : UInt64} {r : PendingRequest}
    (found : g.pending.lookup id = some r) :
    (g.deletePending id r).pending.size + 1 = g.pending.size :=
  size_erase_of_mem (mem_of_lookup_eq_some found)

theorem insertPending_size {m : Message} (fresh : g.pending.lookup m.id = none) :
    (g.insertPending m).pending.size = g.pending.size + 1 :=
  size_insert_of_notMem (lookup_eq_none.mp fresh) _

theorem Moves.tokens_conserved (h : Moves params g p g' p') :
    g'.slots + (g.pending.size + p.tokens)
      = g.slots + (g'.pending.size + p'.elim 0 Point.tokens) := by
  -- the receives give back the token the goroutine accounts for
  have receive (n : ℕ) (token : g.slots ≠ 0) : g.slots - 1 + (n + 1) = g.slots + (n + 0) := by
    omega
  -- the deletions turn a pending request into a token that is owed
  have delete {id : UInt64} {r : PendingRequest} (found : g.pending.lookup id = some r) :
      g.slots + (g.pending.size + 0) = g.slots + ((g.deletePending id r).pending.size + 1) := by
    rw [deletePending_size found]
    rfl
  cases h with
  | quiet same free free' =>
    rw [same.slots, same.pending, Point.tokens_of_free free]
    cases p' with
    | none => rfl
    | some q => exact congrArg _ (congrArg _ (Point.tokens_of_free (free' q rfl).1).symm)
  | acquire => exact Nat.add_right_comm g.slots 1 _
  | insert opened fresh =>
    change g.slots + (g.pending.size + 1) = g.slots + ((g.insertPending _).pending.size + 0)
    rw [insertPending_size fresh]
  | mark =>
    change g.slots + (g.pending.size + 0) = g.slots + ((g.markSent _ _).pending.size + 0)
    rw [markSent_size]
  | take found | reap found | drain found => exact delete found
  | receiveRegister token | receiveTake token | receiveReap token
  | receiveClose token => exact receive _ token
  | _ => rfl

/-- A goroutine in a critical section has the mutex, and gives it up when it leaves. -/
theorem Moves.lock_conserved (h : Moves params g p g' p')
    (held : p.locked = true → g.pendingMu = true) :
    g'.pendingMu.toNat + p.locked.toNat
      = g.pendingMu.toNat + p'.elim 0 fun q => q.locked.toNat := by
  cases h with
  | quiet same free free' =>
    rw [same.pendingMu, Point.locked_of_free free]
    cases p' with
    | none => rfl
    | some q =>
      change _ = _ + q.locked.toNat
      rw [Point.locked_of_free (free' q rfl).1]
  | lockRegister unlocked | lockSent unlocked | lockTake unlocked | lockReap unlocked
  | lockClose order unlocked => rw [unlocked]; rfl
  | unlockRegister | unlockRefused | unlockSent | unlockSend | unlockMissed | unlockTaken
  | unlockReap | unlockClose => rw [held rfl]; rfl
  | _ => rfl

theorem mem_markSent {id id' : UInt64} {now : ℕ} (h : id' ∈ (g.markSent id now).pending) :
    id' ∈ g.pending := by
  unfold markSent at h
  split at h
  · exact h
  · next found =>
    rcases mem_insert.mp h with rfl | h
    · exact mem_of_lookup_eq_some found
    · exact h

/-- Once `closed`, a request is pending because the loop of `disconnectGeneration`
has not come to it: the stepping goroutine will, or it was not for it before. -/
theorem Moves.draining (h : Moves params g p g' p') (closed : g'.closed = true) {id : UInt64}
    (hid : id ∈ g'.pending) :
    (∃ q, p' = some q ∧ id ∈ q.closing) ∨
      (g.closed = true ∧ id ∈ g.pending ∧ id ∉ p.closing) := by
  cases h with
  | quiet same free =>
    refine .inr ⟨same.closed ▸ closed, same.pending ▸ hid, ?_⟩
    rw [Point.closing_of_free free]
    exact not_mem_nil
  | lockClose order =>
    refine .inl ⟨_, rfl, ?_⟩
    have hkeys : id ∈ g.pending.keys := mem_keys.mpr hid
    rw [← order.2] at hkeys
    exact mem_toFinset.mp hkeys
  | insert opened =>
    have hclosed : g.closed = true := closed
    rw [opened] at hclosed
    cases hclosed
  | mark => exact .inr ⟨closed, mem_markSent hid, not_mem_nil⟩
  | take | reap => exact .inr ⟨closed, (mem_erase.mp hid).2, not_mem_nil⟩
  | @gone id' ids absent =>
    by_cases hin : id ∈ ids
    · exact .inl ⟨_, rfl, hin⟩
    · refine .inr ⟨closed, hid, fun hcons => ?_⟩
      rcases mem_cons.mp hcons with rfl | htail
      · exact lookup_eq_none.mp absent hid
      · exact hin htail
  | @drain id' ids r found =>
    obtain ⟨hne, hmem⟩ := mem_erase.mp hid
    by_cases hin : id ∈ ids
    · exact .inl ⟨_, rfl, hin⟩
    · refine .inr ⟨closed, hmem, fun hcons => ?_⟩
      rcases mem_cons.mp hcons with rfl | htail
      · exact hne rfl
      · exact hin htail
  | @receiveClose ids token =>
    by_cases hin : id ∈ ids
    · exact .inl ⟨_, rfl, hin⟩
    · exact .inr ⟨closed, hid, hin⟩
  | _ => exact .inr ⟨closed, hid, not_mem_nil⟩

theorem Moves.slots_le (h : Moves params g p g' p') (hle : g.slots ≤ clientInflightLimit) :
    g'.slots ≤ clientInflightLimit := by
  cases h with
  | quiet same => rwa [same.slots]
  | acquire room => exact room
  | receiveRegister | receiveTake | receiveReap | receiveClose =>
    exact (Nat.sub_le _ _).trans hle
  | _ => exact hle

/-! ## Every interleaving -/

theorem generation_entry_free (h : (generation params).entry p = true) : p.free = true := by
  cases p <;> first | rfl | cases h

theorem generation_main_free : ∀ p ∈ (generation params).main, p.free = true := by
  intro p hp
  rcases mem_generation_main hp with rfl | rfl | rfl <;> rfl

variable {c : Config Generation Point}

/-- **The tokens**: one for each pending request, and those the goroutines account
for. -/
theorem slots_balanced (h : (generation params).Reachable c) :
    c.shared.slots = c.shared.pending.size + Program.total Point.tokens c.threads := by
  refine balanced slots (fun g => g.pending.size) Point.tokens ?_ ?_ ?_ h
  · rw [total_eq_zero fun p hp => Point.tokens_of_free (generation_main_free p hp)]
    rfl
  · exact fun p hp => Point.tokens_of_free (generation_entry_free hp)
  · exact fun g p rest choice g' p' _ _ hstep => (step_moves hstep).tokens_conserved

/-- **Mutual exclusion**: `pendingMu` is a lock. -/
theorem pendingMu_mutex : (generation params).Mutex Generation.pendingMu Point.locked where
  start := rfl
  main p hp := Point.locked_of_free (generation_main_free p hp)
  call _ hentry := Point.locked_of_free (generation_entry_free hentry)
  step _ _ _ _ _ hstep hlocked := (step_moves hstep).lock_conserved hlocked

/-- **The drain.** -/
theorem pending_draining (h : (generation params).Reachable c) :
    c.shared.closed = true → ∀ id ∈ c.shared.pending, ∃ p ∈ c.threads, id ∈ p.closing := by
  intro hclosed id hid
  refine (attended (P := generation params)
    (O := fun g => g.closed = true ∧ id ∈ g.pending) (D := fun _ => False)
    (W := fun p => id ∈ p.closing) nofun ?_ h ⟨hclosed, hid⟩).resolve_left not_false
  rintro g p rest choice g' p' - hstep ⟨hclosed, hid⟩
  rcases (step_moves hstep).draining hclosed hid with ⟨q, rfl, hin⟩ | ⟨hbefore, hmem, hnot⟩
  · exact .inr (.inr ⟨q, mem_rejoin.mpr (.inl rfl), hin⟩)
  · exact .inl ⟨⟨hbefore, hmem⟩, False.elim, fun hin => absurd hin hnot⟩

/-- Outside the critical sections, only calls of `registerPending` account for
tokens. -/
theorem total_tokens_of_unlocked (h : (generation params).Reachable c)
    (unlocked : c.shared.pendingMu = false) :
    Program.total Point.tokens c.threads = c.threads.countP fun p => p.holdsSlot = true := by
  have hlocked : ∀ p ∈ c.threads, p.locked = false := fun p hp =>
    pendingMu_mutex.outside h unlocked hp
  have hown : ∀ p ∈ c.threads, p.tokens = p.holdsSlot.toNat := by
    intro p hp
    have howes : p.owesSlot = false := by
      refine eq_false_of_ne_true fun howes => ?_
      have := Point.locked_of_owesSlot howes
      rw [hlocked p hp] at this
      cases this
    rw [Point.tokens, howes]
    rfl
  rw [← total_toNat]
  exact congrArg Multiset.sum (Multiset.map_congr rfl hown)

theorem tokens_le_slots (h : (generation params).Reachable c) (hp : p ∈ c.threads) :
    p.tokens ≤ c.shared.slots := by
  obtain ⟨rest, hrest⟩ := Multiset.exists_cons_of_mem hp
  have hbal := slots_balanced h
  rw [hrest, total_cons] at hbal
  omega

theorem receives_go (hp : p.receives = true) (token : g.slots ≠ 0) :
    (step params g p .go).isSome = true := by
  have hreceive (next : Point) : (g.receiveSlot next).isSome = true := by
    rw [receiveSlot, if_neg token]
    rfl
  cases p with
  | registerRelease | takeReceive | reapReceive | closeReceive => exact hreceive _
  | _ => cases hp

/-- In one of the functions that handle `pending` and `slots`. -/
def Point.inCall : Point → Bool
  | .registerSelect _ _ | .registerLock _ _ | .registerCheck _ _ | .registerRelease _ _
  | .registerUnlock _ _ | .takeLock _ _ | .takeLookup _ _ | .takeReceive _ _ _
  | .takeUnlock _ _ _ | .reapLock _ | .reapRange _ _ _ | .reapReceive _ _ _ | .disconnect
  | .closeLock | .closeRange _ | .closeReceive _ | .closeChannel => true
  | _ => false

theorem Point.tokens_of_not_inCall (h : p.inCall = false) : p.tokens = 0 := by
  cases p <;> first | rfl | cases h

theorem Point.closing_of_not_inCall (h : p.inCall = false) : p.closing = [] := by
  cases p <;> first | rfl | cases h

/-- **Slot accounting.**  In every state the goroutines of a generation reach: while
nobody holds `pendingMu`, the tokens in `slots` are one for each pending request and
one for each call of `registerPending` that has taken a slot and neither inserted nor
released; there are at most thirty; a receive under `pendingMu` never blocks; and when
the generation is closed and no call is in progress, `pending` and `slots` are empty. -/
theorem slot_accounting (params : Params) (c : Config Generation Point)
    (h : (generation params).Reachable c) :
    (c.shared.pendingMu = false →
      c.shared.slots = c.shared.pending.size + c.threads.countP fun p => p.holdsSlot = true) ∧
    c.shared.slots ≤ clientInflightLimit ∧
    (∀ p ∈ c.threads, p.receives = true → (step params c.shared p .go).isSome = true) ∧
    (c.shared.closed = true → (∀ p ∈ c.threads, p.inCall = false) →
      c.shared.pending = ∅ ∧ c.shared.slots = 0) := by
  refine ⟨fun unlocked => ?_, ?_, fun p hp hreceives => ?_, fun hclosed hreturned => ?_⟩
  · rw [slots_balanced h, total_tokens_of_unlocked h unlocked]
  · exact Program.shared_invariant (J := fun g => g.slots ≤ clientInflightLimit) (Nat.zero_le _)
      (fun g p choice g' p' hle hstep => (step_moves hstep).slots_le hle) h
  · refine receives_go hreceives fun hzero => ?_
    have hle := tokens_le_slots h hp
    rw [Point.tokens_of_receives hreceives, hzero] at hle
    exact absurd hle (by decide)
  · have hempty : c.shared.pending.size = 0 := by
      refine Finmap.size_eq_zero_iff.mpr fun id hid => ?_
      obtain ⟨p, hp, hin⟩ := pending_draining h hclosed id hid
      rw [Point.closing_of_not_inCall (hreturned p hp)] at hin
      exact absurd hin List.not_mem_nil
    refine ⟨Finmap.eq_empty_of_size_eq_zero hempty, ?_⟩
    rw [slots_balanced h, hempty,
      Program.total_eq_zero fun p hp => Point.tokens_of_not_inCall (hreturned p hp), zero_add]

/-- A generation without heartbeats. -/
def quietParams : Params := { zlib := Message.markOnly, heartbeat := false }

/-- The first request of a client and its packet. -/
def firstRequest : Message := { typ := .request, id := 1, route := [114], data := [7] }

@[inherit_doc firstRequest]
def firstFrame : Bytes := [4, 0, 0, 5, 0, 1, 1, 114, 7]

/-- A call of `SendRequest` that runs to its end without being interrupted. -/
def oneRequest : Run Point Choice :=
  .call (.sendMsg .request [114] [7]) ::
  steps .go [.sendMsg .request [114] [7], .registerSelect firstRequest firstFrame,
    .registerLock firstRequest firstFrame, .registerCheck firstRequest firstFrame,
    .registerUnlock firstRequest (.ok firstFrame), .writeLock firstRequest firstFrame,
    .writeSelect firstRequest firstFrame, .sentLock firstRequest firstFrame] ++
  [.run (.sentMark firstRequest firstFrame) (.tick 10),
   .run (.sentUnlock firstRequest firstFrame) .go,
   .run (.write firstRequest firstFrame) (.written 9 false),
   .run (.writeUnlock firstRequest none) .go]

/-- `Disconnect` with that request in flight. -/
def disconnectOne : Run Point Choice :=
  [.call .disconnect, .run .disconnect .go, .run .closeLock (.order [1])] ++
  steps .go [.closeRange [1], .closeReceive [], .closeRange [], .closeChannel]

/-- A request that is in flight when the client disconnects leaves nothing behind. -/
theorem slot_accounting_disconnect : ∃ c,
    (generation quietParams).system.run (oneRequest ++ disconnectOne) = some c ∧
    (c.shared.pending = ∅ ∧ c.shared.slots = 0) ∧ c.shared.closed ∧
    (∀ p ∈ c.threads, p.inCall = false) ∧ c.shared.record.registered.length = 1 :=
  reaches_and (by decide +kernel) fun c hc ⟨hclosed, hreturned, _⟩ =>
    (slot_accounting quietParams c ⟨_, hc⟩).2.2.2 hclosed hreturned

end Pitaya.Client
