import Pitaya.Agent.Goroutines

/-!
# The queue of an agent

`Push`, `ResponseMID`, the answers to heartbeats and the heartbeats themselves go through the
channel `chSend` to the write goroutine.
-/

namespace Pitaya.Goroutines

open Conn Transition Threads List Option

variable {messagesBufferSize : ℕ} {s s' : Shared} {p : Point} {p' : Option Point} {choice : Choice}

/-- What an event puts into `chSend`. -/
def queued : Event Point Choice → List PendingWrite
  | .run (.enqueue _ m) .go => [.message m]
  | .run .sendHeartbeatResponse .go => [.heartbeatAck]
  | .run .tick .go => [.heartbeat]
  | _ => []

/-- What was queued has been written, in the order of the queue, or is still queued.  Only one write
can be missing, the one with which the write goroutine has ended. -/
def WritesInOrder (events : Run Point Choice) (c : Config Shared Point) : Prop :=
  ∃ lost, events.flatMap queued = c.shared.sent ++ lost ++ c.shared.chSend ∧ lost.length ≤ 1 ∧
    (.write ∈ c.threads → lost = [])

/-- The other goroutines put at most one write at the end of the queue. -/
theorem step_queued (h : step messagesBufferSize s p choice = some (s', p')) (hp : p ≠ .write) :
    p' ≠ some .write ∧ s'.sent = s.sent ∧ s'.chSend = s.chSend ++ queued (.run p choice) := by
  cases p with
  | write => exact absurd rfl hp
  | sendHeartbeatResponse | tick | enqueue =>
    cases choice with
    | go =>
      dsimp only [step, answer] at h
      simp only [map_eq_some_iff, bind_eq_some_iff] at h
      obtain ⟨t, ht, ⟨⟩⟩ := h
      obtain rfl := put_eq ht
      exact ⟨nofun, rfl, rfl⟩
    | stop =>
      obtain ⟨-, ⟨⟩⟩ := ite_none_right_eq_some.mp h
      exact ⟨nofun, rfl, (append_nil _).symm⟩
    | _ => cases h
  | close call ch =>
    cases choice <;> try cases h
    dsimp only [step] at h
    split at h <;> cases h <;> refine ⟨?_, rfl, (append_nil _).symm⟩
    · exact nofun
    · cases ch <;> exact nofun
  | _ =>
    -- the queue is left alone
    cases choice <;> dsimp only [step, processPacket, closes, answer] at h
    all_goals repeat' split at h
    all_goals cases h
    all_goals exact ⟨nofun, rfl, (append_nil _).symm⟩

/-- The write goroutine writes what is first in the queue, or drops it and ends. -/
theorem step_write (h : step messagesBufferSize s .write choice = some (s', p')) :
    (∃ w, s.chSend = w :: s'.chSend ∧ s'.sent = s.sent ++ [w] ∧ p' = some .write) ∨
      ∃ lost, lost.length ≤ 1 ∧ s.chSend = lost ++ s'.chSend ∧ s'.sent = s.sent ∧
        p' = some (.lock {}) := by
  cases choice with
  | go =>
    dsimp only [step] at h
    split at h
    · cases h
    · next w rest hqueue =>
      obtain ⟨-, ⟨⟩⟩ := ite_none_left_eq_some.mp h
      exact .inl ⟨w, hqueue, rfl, rfl⟩
  | fail =>
    dsimp only [step] at h
    split at h
    · cases h
    · next w rest hqueue =>
      cases h
      exact .inr ⟨[w], le_rfl, hqueue, rfl, rfl⟩
  | stop =>
    obtain ⟨-, ⟨⟩⟩ := ite_none_right_eq_some.mp h
    exact .inr ⟨[], Nat.zero_le _, rfl, rfl, rfl⟩
  | _ => cases h

theorem one_writer {c : Config Shared Point} (h : (goroutines messagesBufferSize).Reachable c) :
    c.threads.count .write ≤ 1 := by
  refine Program.config_induction (I := fun c => c.threads.count .write ≤ 1) (le_of_eq rfl) ?_ ?_ h
  · intro s threads p _ hone hentry
    rwa [Multiset.count_cons_of_ne (by rintro rfl; cases hentry)]
  · intro s p rest choice s' p' _ hone hstep
    refine (countP_rejoin_le rest ?_).trans hone
    rintro q hnext rfl
    by_contra hp
    exact (step_queued hstep (Ne.symm hp)).1 hnext

/-- **What is queued is written in order**, in every interleaving. -/
theorem written_in_order (messagesBufferSize : ℕ) (events : Run Point Choice)
    (c : Config Shared Point) (hrun : (goroutines messagesBufferSize).system.run events = some c) :
    WritesInOrder events c := by
  refine System.run_induction ⟨[], rfl, Nat.zero_le _, fun _ => rfl⟩ ?_ hrun
  rintro events e ⟨s, threads⟩ c' hbefore ⟨lost, hqueue, hlost, hwriter⟩ hstep
  have hone := one_writer ⟨events, hbefore⟩
  dsimp only at hqueue hwriter hone
  unfold WritesInOrder
  rw [flatMap_append, hqueue, flatMap_singleton]
  rcases Program.system_step hstep with
    ⟨p, rfl, hentry, rfl⟩ | ⟨p, rest, choice, s', p', rfl, hc, hp, rfl⟩
  · refine ⟨lost, append_nil _, hlost, fun h => hwriter ?_⟩
    exact (Multiset.mem_cons.mp h).resolve_left (by rintro rfl; cases hentry)
  · obtain rfl : threads = p ::ₘ rest := congrArg Config.threads hc
    by_cases hw : p = .write
    · subst hw
      obtain rfl := hwriter (Multiset.mem_cons_self _ _)
      rcases step_write hp with ⟨w, hw, hsent, rfl⟩ | ⟨lost, hlost, hw, hsent, rfl⟩
      · refine ⟨[], ?_, Nat.zero_le _, fun _ => rfl⟩
        rw [hw, hsent]
        simp [queued]
      · refine ⟨lost, ?_, hlost, fun h => ?_⟩
        · rw [hw, hsent]
          simp [queued]
        -- there is no other write goroutine
        · have hmem := (Multiset.mem_cons.mp h).resolve_left nofun
          rw [Multiset.count_cons_self] at hone
          exact absurd (Multiset.one_le_count_iff_mem.mpr hmem) (by omega)
    · obtain ⟨hnext, hsent, hchSend⟩ := step_queued hp hw
      refine ⟨lost, ?_, hlost, fun h => hwriter ?_⟩
      · rw [hsent, hchSend, append_assoc]
      · exact Multiset.mem_cons_of_mem ((mem_rejoin.mp h).resolve_left hnext)

/-- A heartbeat is queued behind a push, and the write of the push fails. -/
def failedPush : Run Point Choice :=
  let m : PendingMessage := { typ := .push, route := [114], payload := [7] }
  [.call (.push [114] [7]), .run (.push [114] [7]) .go, .run (.send false m) .go,
    .run (.enqueue false m) .go, .run .heartbeat .go, .run .tick .go, .run .write .fail]

theorem written_in_order_failed : ∃ c, (goroutines 2).system.run failedPush = some c ∧
    WritesInOrder failedPush c ∧ c.shared.sent = [] ∧ c.shared.chSend = [.heartbeat] :=
  reaches_and (by decide +kernel) fun c hc _ => written_in_order 2 failedPush c hc

end Pitaya.Goroutines
