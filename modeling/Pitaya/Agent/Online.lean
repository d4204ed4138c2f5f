import Pitaya.Agent.Teardown

/-!
# The online flag in the cluster store

When a bound session of a frontend ends, the close callback of `remote/sys.go` writes the
online flag of the session to the cluster store.  The callback runs once, under the goroutine
that tears the agent down; the flag is cleared in memory by `sessionImpl.Close` and
`sessionImpl.Kick`, but not by `agentImpl.Close`, which the goroutines of the agent call
directly.

* `Told` — what the events so far have done to the flag, and the flags that were read to be
  written.
* `heartbeat_timeout_online` — a heartbeat timeout leaves the flag "1".
-/

namespace Pitaya.Goroutines

open Transition Threads Multiset Program

variable {messagesBufferSize : ℕ} {s s' : Shared} {p : Point} {p' : Option Point} {choice : Choice}
  {rest : Multiset Point} {c : Config Shared Point} {events : Run Point Choice}

/-! ## The teardown happens -/

theorem chDie_or_ending (h : (goroutines messagesBufferSize).Reachable c) :
    .chDie ∈ c.shared.teardown.closed ∨ ∃ p ∈ c.threads, p.ending = true := by
  refine attended (O := fun _ => True) (D := fun s => .chDie ∈ s.teardown.closed)
    (W := fun p => p.ending = true) (fun _ => .inr ⟨.read, by simp [goroutines], rfl⟩) ?_ h trivial
  intro s p rest choice s' p' hreach hstep _
  have hat := (teardown_owned hreach).2 p (mem_cons_self p rest)
  cases step_moves hstep with
  | outside h => exact .inl ⟨trivial, fun hdie => h.teardown ▸ hdie,
    fun hends => .inr (h.ends hends)⟩
  | panics hclosed => exact absurd hclosed (Closing.not_mem (hat rfl))
  | @close call ch hopen =>
    refine .inl ⟨trivial, List.mem_append_left _, fun _ => .inr ⟨_, rfl, ?_⟩⟩
    cases ch <;> rfl
  | release =>
    have htorn : Torn s.teardown := hat rfl
    refine .inr (.inl ?_)
    rw [Teardown.return, htorn.closed]
    decide
  | _ => exact .inl ⟨trivial, id, fun _ => .inr ⟨_, rfl, rfl⟩⟩

/-- When every goroutine has finished, the agent is torn down. -/
theorem torn_of_done (h : (goroutines messagesBufferSize).Reachable c) (hdone : c.threads = 0) :
    Torn c.shared.teardown := by
  have hnobody (p : Point) : p ∉ c.threads := by
    rw [hdone]
    exact notMem_zero p
  have hfree : c.shared.closeMutex = false := by
    refine Bool.eq_false_of_not_eq_true fun hlocked => ?_
    obtain ⟨p, hp, -⟩ := closeMutex_mutex.exists_inside h hlocked
    exact hnobody p hp
  refine ((teardown_owned h).1 hfree).1.torn ((chDie_or_ending h).resolve_right ?_)
  rintro ⟨p, hp, -⟩
  exact hnobody p hp

/-! ## What is written -/

/-- The event clears the flag. -/
def takesOffline : Event Point Choice → Bool
  | .run p _ => p.takesOffline.isSome
  | .call _ => false

/-- The event reads the flag to write it. -/
def flushes : Event Point Choice → Bool
  | .run (.callbacks call) .go => call.reason ≠ CloseReason.kickRebind
  | _ => false

/-- The flag is cleared before it is read to be written. -/
def OfflineFirst (events : Run Point Choice) : Prop :=
  ∃ before e after, events = before ++ e :: after ∧ flushes e = true ∧
    ∃ e' ∈ before, takesOffline e' = true

theorem offlineFirst_concat {e : Event Point Choice} : OfflineFirst (events ++ [e]) ↔
      OfflineFirst events ∨ flushes e = true ∧ ∃ e' ∈ events, takesOffline e' = true := by
  constructor
  · rintro ⟨before, e₁, after, hsplit, hflushes, hoffline⟩
    rcases List.eq_nil_or_concat after with rfl | ⟨after, e₂, rfl⟩
    · obtain ⟨rfl, hlast⟩ := List.append_inj' hsplit rfl
      obtain rfl := List.singleton_inj.mp hlast
      exact .inr ⟨hflushes, hoffline⟩
    · rw [List.concat_eq_append, ← List.cons_append, ← List.append_assoc] at hsplit
      obtain ⟨rfl, -⟩ := List.append_inj' hsplit rfl
      exact .inl ⟨before, e₁, after, rfl, hflushes, hoffline⟩
  · rintro (⟨before, e₁, after, rfl, hflushes, hoffline⟩ | ⟨hflushes, hoffline⟩)
    · exact ⟨before, e₁, after ++ [e], by simp, hflushes, hoffline⟩
    · exact ⟨events, e, [], rfl, hflushes, hoffline⟩

/-- The goroutine runs the close callbacks, for this reason. -/
def Point.calling : Point → Option CloseReason
  | .callbacks call => some call.reason
  | _ => none

/-- The event runs the close callbacks. -/
def callbackReason : Event Point Choice → Option CloseReason
  | .run p _ => p.calling
  | .call _ => none

/-- The flag the goroutine is about to write. -/
def Point.flag : Point → Option Bytes
  | .hset _ flag => some flag
  | _ => none

/-- The flags that were read to be written. -/
def flags (c : Config Shared Point) : Multiset Bytes :=
  c.shared.written + c.threads.filterMap Point.flag

/-- The close callbacks that were invoked have been run, or a goroutine is about to run them. -/
def Invoked (events : Run Point Choice) (c : Config Shared Point) : Prop :=
  (c.shared.teardown.onSessionClosed : Multiset CloseReason) =
    events.filterMap callbackReason + c.threads.filterMap Point.calling

/-- What holds of the events so far. -/
structure Told (events : Run Point Choice) (c : Config Shared Point) : Prop where
  invoked : Invoked events c
  flushed : (flags c).card = events.countP flushes
  online : c.shared.online = false ↔ ∃ e ∈ events, takesOffline e = true
  flag : ∀ flag ∈ flags c, flag = [48] ↔ OfflineFirst events

theorem Outside.bind_flag (h : Outside s choice p s' p') :
    p'.bind Point.flag = none ∧ p'.bind Point.calling = none := by
  cases p' with
  | none => exact ⟨rfl, rfl⟩
  | some q =>
    have hinside := h.next q rfl
    constructor <;> cases q <;> first | rfl | cases hinside

namespace Point

variable (call : p.call = none)
include call

theorem flag_of_call : p.flag = none := by
  cases p <;> first | rfl | cases call

theorem flushes_of_call : flushes (.run p choice) = false := by
  cases p <;> first | rfl | cases call

end Point

namespace Moves

variable (h : Moves s choice p s' p')
include h

theorem online_eq : s'.online = (s.online && p.takesOffline.isNone) := by
  cases h with
  | outside h =>
    rw [h.online, h.stays]
    exact (Bool.and_true _).symm
  | offline call status takes =>
    rw [takes]
    exact (Bool.and_false _).symm
  | _ => exact (Bool.and_true _).symm

theorem invokes : (s'.teardown.onSessionClosed : Multiset CloseReason) =
    s.teardown.onSessionClosed + rejoin (p'.bind Point.calling) 0 := by
  cases h with
  | outside h =>
    rw [h.teardown, h.bind_flag.2]
    exact (add_zero _).symm
  | @close call ch => cases ch <;> exact (add_zero _).symm
  | release next => rcases next with rfl | rfl <;> exact (add_zero _).symm
  | invoke => exact coe_add _ _
  | _ => exact (add_zero _).symm

theorem flags_eq :
    flushes (.run p choice) = false ∧ flags ⟨s', rejoin p' rest⟩ = flags ⟨s, p ::ₘ rest⟩ ∨
      flushes (.run p choice) = true ∧
        flags ⟨s', rejoin p' rest⟩ = flag s.online ::ₘ flags ⟨s, p ::ₘ rest⟩ := by
  dsimp only [flags]
  rw [Threads.filterMap_cons, filterMap_rejoin]
  cases h with
  | outside h =>
    refine .inl ⟨Point.flushes_of_call h.call, ?_⟩
    rw [h.written, h.bind_flag.1, Point.flag_of_call h.call]
  | offline call =>
    refine .inl ⟨Point.flushes_of_call call, ?_⟩
    rw [Point.flag_of_call call]
    rfl
  | callbacks quiet =>
    refine .inl ⟨?_, rfl⟩
    cases choice <;> first | rfl | exact decide_eq_false (not_not_intro (quiet rfl))
  | flush hgo hreason =>
    subst hgo
    exact .inr ⟨decide_eq_true hreason, add_cons _ _ _⟩
  | hset =>
    refine .inl ⟨rfl, ?_⟩
    dsimp only
    rw [← coe_add, add_assoc]
    rfl
  | @close call ch => cases ch <;> exact .inl ⟨rfl, rfl⟩
  | release next => rcases next with rfl | rfl <;> exact .inl ⟨rfl, rfl⟩
  | _ => exact .inl ⟨rfl, rfl⟩

end Moves

theorem flag_eq_iff {online : Bool} : flag online = [48] ↔ online = false := by
  cases online <;> decide

theorem countP_flushes_le (h : (goroutines messagesBufferSize).Reachable c)
    (hinvoked : Invoked events c) : events.countP flushes ≤ 1 := by
  have hcard := congrArg card hinvoked
  rw [card_add, coe_card, coe_card, List.length_filterMap_eq_countP] at hcard
  have hmono : events.countP flushes ≤ events.countP fun e => (callbackReason e).isSome := by
    refine List.countP_mono_left fun e _ he => ?_
    unfold flushes at he
    split at he
    · rfl
    · cases he
  have honce := (once h).atMost
  omega

/-- An event that does not read the flag. -/
theorem Told.pass {e : Event Point Choice} {c' : Config Shared Point} (h : Told events c)
    (hinvoked : Invoked (events ++ [e]) c')
    (honline : c'.shared.online = false ↔ ∃ e' ∈ events ++ [e], takesOffline e' = true)
    (hflushes : flushes e = false) (hflags : flags c' = flags c) : Told (events ++ [e]) c' := by
  refine ⟨hinvoked, ?_, honline, fun flag hflag => ?_⟩
  · rw [hflags, h.flushed, List.countP_append, List.countP_singleton, hflushes]
    rfl
  · rw [h.flag flag (hflags ▸ hflag), offlineFirst_concat, hflushes]
    simp

/-- **What the events have done.** -/
theorem told (hrun : (goroutines messagesBufferSize).system.run events = some c) :
    Told events c := by
  refine System.run_induction ?_ ?_ hrun
  · exact ⟨rfl, rfl, iff_of_false nofun (by simp), fun flag h => absurd h (notMem_zero flag)⟩
  rintro events e ⟨s, threads⟩ c' hrun htold hstep
  have hreach : (goroutines messagesBufferSize).Reachable c' :=
    System.Reachable.step ⟨events, hrun⟩ hstep
  rcases system_step hstep with
    ⟨p, rfl, hentry, rfl⟩ | ⟨p, rest, choice, s', p', rfl, hc, hp, rfl⟩
  · have hp : p.calling = none ∧ p.flag = none := by
      cases p <;> first | exact ⟨rfl, rfl⟩ | cases hentry
    refine htold.pass ?_ ?_ rfl ?_
    · have hevent : [Event.call p].filterMap callbackReason = [] := rfl
      rw [Invoked, Threads.filterMap_cons, hp.1, List.filterMap_append, hevent, List.append_nil]
      exact htold.invoked
    · simpa [takesOffline] using htold.online
    · rw [flags, Threads.filterMap_cons, hp.2]
      rfl
  · obtain rfl : threads = p ::ₘ rest := congrArg Config.threads hc
    have hmoves := step_moves hp
    have hinvoked : Invoked (events ++ [.run p choice]) ⟨s', rejoin p' rest⟩ := by
      have hevent : ([Event.run p choice].filterMap callbackReason : Multiset CloseReason) =
          rejoin p.calling 0 := by
        cases hcalling : p.calling <;> simp [callbackReason, hcalling, rejoin]
      have hbefore : (s.teardown.onSessionClosed : Multiset CloseReason) = _ := htold.invoked
      rw [Invoked, hmoves.invokes, hbefore, List.filterMap_append, ← coe_add, hevent,
        Threads.filterMap_cons, filterMap_rejoin, rejoin_add p.calling,
        rejoin_add (p'.bind Point.calling) (rest.filterMap _)]
      abel
    have honline : s'.online = false ↔
        ∃ e ∈ events ++ [.run p choice], takesOffline e = true := by
      rw [hmoves.online_eq, Bool.and_eq_false_iff, htold.online]
      simp [takesOffline, or_and_right, exists_or]
    rcases hmoves.flags_eq with ⟨hflushes, hflags⟩ | ⟨hflushes, hflags⟩
    · exact htold.pass hinvoked honline hflushes hflags
    · -- nothing was read before
      have hcount := countP_flushes_le hreach hinvoked
      rw [List.countP_append, List.countP_singleton, hflushes, ← htold.flushed] at hcount
      have hnone : flags ⟨s, p ::ₘ rest⟩ = 0 := card_eq_zero.mp (by simpa using hcount)
      have hbefore : ¬ OfflineFirst events := by
        rintro ⟨before, e, after, rfl, hflushes, -⟩
        have hpos := htold.flushed
        rw [hnone, card_zero] at hpos
        refine List.countP_eq_zero.mp hpos.symm e ?_ hflushes
        exact List.mem_append_right before List.mem_cons_self
      rw [hnone] at hflags
      refine ⟨hinvoked, ?_, honline, fun flag hflag => ?_⟩
      · rw [hflags, List.countP_append, List.countP_singleton, hflushes, ← htold.flushed, hnone]
        rfl
      · rw [hflags] at hflag
        obtain rfl := mem_singleton.mp hflag
        rw [flag_eq_iff, htold.online, offlineFirst_concat, or_iff_right hbefore]
        exact (and_iff_right hflushes).symm

/-! ## When all is done -/

/-- The event closes the agent without taking the session offline. -/
def closesDirectly : Event Point Choice → Bool
  | .call (.lock _) => true
  | .call _ => false
  | .run p choice => direct p choice

/-- Nobody closes the agent of a session that is online, without taking it offline. -/
def Orderly (messagesBufferSize : ℕ) (events : Run Point Choice) : Prop :=
  (goroutines messagesBufferSize).system.Meets
    (fun c e => closesDirectly e = true → c.shared.online = false) events

/-- In an orderly run the flag is cleared before anybody gets into `agentImpl.Close`. -/
theorem offline_of_orderly (hrun : (goroutines messagesBufferSize).system.run events = some c)
    (horderly : Orderly messagesBufferSize events) :
    (c.shared.teardown.closed ≠ [] ∨ ∃ p ∈ c.threads, p.call.isSome = true) →
      c.shared.online = false := by
  apply config_induction_of_meets ?_ ?_ ?_ hrun horderly
  · simp [goroutines, Point.call]
  · rintro s threads p - hC hI hentry (hclosed | ⟨q, hq, hcall⟩)
    · exact hI (.inl hclosed)
    · rcases mem_cons.mp hq with rfl | hq
      · have hdirect : q.call = none ∨ closesDirectly (.call q) = true := by
          cases q <;> first | exact .inl rfl | exact .inr rfl | cases hentry
        rcases hdirect with hnone | hdirect
        · rw [hnone] at hcall
          cases hcall
        · exact hC hdirect
      · exact hI (.inr ⟨q, hq, hcall⟩)
  · intro s p rest choice s' p' _ hC hI hstep hcase
    have hp := mem_cons_self p rest
    cases step_moves hstep with
    | outside h =>
      rw [h.online]
      rw [h.teardown] at hcase
      rcases hcase with hclosed | ⟨q, hq, hcall⟩
      · exact hI (.inl hclosed)
      · rcases mem_rejoin.mp hq with hq | hq
        · exact (h.enters q hq hcall).elim (fun hclosed => hI (.inl hclosed)) hC
        · exact hI (.inr ⟨q, mem_cons_of_mem hq, hcall⟩)
    | offline => rfl
    | _ => exact hI (.inr ⟨_, hp, rfl⟩)

/-- **The stored flag.**  When every goroutine of a bound session has finished, closing it has
written the online field once unless it was closed for a rebind, and has written "0" if and only
if the flag was cleared before the close callback read it; in particular if nobody closed the
agent of a session that was online. -/
theorem online_flag_iff (messagesBufferSize : ℕ) (events : Run Point Choice)
    (c : Config Shared Point) (hrun : (goroutines messagesBufferSize).system.run events = some c)
    (hbound : ∀ call choice, .run (.callbacks call) choice ∈ events → choice = .go)
    (hreason : CloseReason.kickRebind ∉ c.shared.teardown.onSessionClosed) (hdone : c.threads = 0) :
    (∃ flag, c.shared.written = [flag]) ∧
      (c.shared.written.getLast? = some [48] ↔ OfflineFirst events) ∧
      (Orderly messagesBufferSize events → c.shared.written.getLast? = some [48]) := by
  have htold := told hrun
  have hreach : (goroutines messagesBufferSize).Reachable c := ⟨events, hrun⟩
  obtain ⟨reason, hone⟩ := List.length_eq_one_iff.mp (torn_of_done hreach hdone).onSessionClosed
  -- the callbacks were run once, and read the flag
  obtain ⟨e, he, hcalled⟩ : ∃ e ∈ events, callbackReason e = some reason := by
    have hinvoked := htold.invoked
    rw [Invoked, hdone, hone] at hinvoked
    have hmem : reason ∈ (events.filterMap callbackReason : Multiset CloseReason) := by
      rw [← add_zero (events.filterMap callbackReason : Multiset CloseReason)]
      exact hinvoked ▸ mem_singleton_self reason
    exact List.mem_filterMap.mp hmem
  obtain ⟨call, choice, rfl, rfl⟩ :
      ∃ call choice, e = .run (.callbacks call) choice ∧ call.reason = reason := by
    cases e with
    | call => cases hcalled
    | run p choice =>
      cases p <;> first | exact ⟨_, choice, rfl, Option.some.inj hcalled⟩ | cases hcalled
  obtain rfl := hbound call choice he
  have hflushes : flushes (.run (.callbacks call) .go) = true := by
    refine decide_eq_true fun hrebind => hreason ?_
    rw [hone, hrebind]
    exact List.mem_singleton_self _
  have hflags : flags c = c.shared.written := by
    rw [flags, hdone]
    exact add_zero _
  obtain ⟨flag, hwritten⟩ : ∃ flag, c.shared.written = [flag] := by
    have hflushed := htold.flushed
    rw [hflags, coe_card] at hflushed
    have hatMost := countP_flushes_le hreach htold.invoked
    have hpos := List.countP_pos_iff.mpr ⟨_, he, hflushes⟩
    exact List.length_eq_one_iff.mp (by omega)
  have hlast : c.shared.written.getLast? = some [48] ↔ OfflineFirst events := by
    rw [← htold.flag flag (by rw [hflags, hwritten]; exact mem_singleton_self flag), hwritten]
    exact Option.some_inj
  refine ⟨⟨flag, hwritten⟩, hlast, fun horderly => hlast.mpr ?_⟩
  obtain ⟨before, after, rfl⟩ := List.append_of_mem he
  obtain ⟨c₀, hbefore, -⟩ := System.run_append_eq_some.mp hrun
  refine ⟨before, _, after, rfl, hflushes, (told hbefore).online.mp ?_⟩
  exact offline_of_orderly hbefore horderly.of_append
    (.inr ⟨_, mem_threads_of_run hrun hbefore, rfl⟩)

/-- A goroutine tears the agent down and writes the flag. -/
def tearsDown (flag : Bytes) : Run Point Choice :=
  setsClosed ++ closesChannels (steps .go [.callbacks {}, .hset {} flag])

/-- A goroutine finds the agent closed. -/
def findsClosed : Run Point Choice := steps .go [.lock {}, .getStatus {}, .unlock {}]

/-- The heartbeat times out.  The other goroutines follow, and the read loop closes the session
last. -/
def heartbeatTimeout : Run Point Choice :=
  .run .heartbeat .fail :: tearsDown [49] ++ .run .write .stop :: findsClosed ++
    .run .handle .stop :: findsClosed ++ [.run .keepClusterCacheAlive .stop, .run .read .fail] ++
    .run (.closeSession .normal) .go :: findsClosed

theorem heartbeat_timeout_online :
    ∃ c, (goroutines 1).system.run heartbeatTimeout = some c ∧ c.threads = 0 ∧
      c.shared.online = false ∧ c.shared.written.getLast? = some [49] := by
  decide +kernel

/-- The peer closes the connection. -/
def peerClosed : Run Point Choice :=
  .run .read .fail :: .run (.closeSession .normal) .go :: tearsDown [48] ++
    .run .write .stop :: findsClosed ++ .run .heartbeat .stop :: findsClosed ++
    .run .handle .stop :: findsClosed ++ [.run .keepClusterCacheAlive .stop]

theorem online_flag_peerClosed : ∃ c, (goroutines 1).system.run peerClosed = some c ∧
    c.shared.written.getLast? = some [48] := by
  obtain ⟨c, hc, hreason, hdone⟩ : ∃ c, (goroutines 1).system.run peerClosed = some c ∧
      CloseReason.kickRebind ∉ c.shared.teardown.onSessionClosed ∧ c.threads = 0 := by
    decide +kernel
  have hbound (call choice) (he : Event.run (.callbacks call) choice ∈ peerClosed) :
      choice = .go := by
    simp [peerClosed, tearsDown, setsClosed, closesChannels, findsClosed, steps] at he
    exact he.2
  obtain ⟨-, hflag, -⟩ := online_flag_iff 1 peerClosed c hc hbound hreason hdone
  refine ⟨c, hc, hflag.mpr ⟨peerClosed.take 11, .run (.callbacks {}) .go, peerClosed.drop 12,
    rfl, rfl, .run (.closeSession .normal) .go, ?_, rfl⟩⟩
  exact List.mem_cons_of_mem _ List.mem_cons_self

end Pitaya.Goroutines
