import Pitaya.Agent.Goroutines

/-!
# The teardown of an agent

`agentImpl.Close` has two guards.  The status can be overwritten by packet processing while a
call is on its way; the channel `chDie` cannot be opened again.  What the calls do under
`closeMutex` therefore happens once, but the status and the answers that depend on it need not
last.

* `ClosedForGood` — the status stays closed and later callers are told so.
* `acknowledged_after_close` — a handshake that is acknowledged after a heartbeat timeout.
-/

namespace Pitaya.Goroutines

open Conn Transition Threads Multiset Program

variable {messagesBufferSize : ℕ} {s s' : Shared} {p : Point} {c : Config Shared Point}

/-! ## Under the lock -/

/-- The channels in the order in which they are closed. -/
def channels : List Channel := [.chStopWrite, .chStopHeartbeat, .chStopKeepCacheAlive, .chDie]

/-- The channels that are closed before this one. -/
def Channel.before : Channel → List Channel
  | .chStopWrite => []
  | .chStopHeartbeat => [.chStopWrite]
  | .chStopKeepCacheAlive => [.chStopWrite, .chStopHeartbeat]
  | .chDie => [.chStopWrite, .chStopHeartbeat, .chStopKeepCacheAlive]

/-- The channels closed so far are `done`, and the close callbacks have not been run. -/
structure Closing (t : Teardown) (done : List Channel) : Prop where
  closed : t.closed = done
  onSessionClosed : t.onSessionClosed = []
  returned : t.returned = 0
  panicked : t.panicked = false

/-- The agent is torn down. -/
structure Torn (t : Teardown) : Prop where
  closed : t.closed = channels
  onSessionClosed : t.onSessionClosed.length = 1
  panicked : t.panicked = false

/-- The teardown is not under way. -/
def Settled (t : Teardown) : Prop := Closing t [] ∨ Torn t

/-- What holds while nobody has the lock. -/
def Free (s : Shared) : Prop := Settled s.teardown ∧ (s.status = .closed → Torn s.teardown)

/-- What holds for the goroutine that has the lock. -/
def At (s : Shared) : Point → Prop
  | .getStatus _ => Free s
  | .setClosed _ | .select _ => Settled s.teardown
  | .close _ ch => Closing s.teardown ch.before
  | .onSessionClosed _ => Closing s.teardown channels
  | .callbacks _ | .hset _ _ | .connClose _ | .unlock _ => Torn s.teardown
  | _ => True

theorem closeMutex_mutex :
    (goroutines messagesBufferSize).Mutex Shared.closeMutex Point.inside where
  start := rfl
  main := by simp [goroutines, Point.inside, Point.call]
  call p hentry := by
    cases p <;> first | rfl | cases hentry
  step s p choice s' p' hstep hlocked := by
    cases step_moves hstep with
    | outside h =>
      rw [Point.inside_of_call h.call, h.closeMutex]
      cases p' with
      | none => rfl
      | some q => rw [Option.elim_some, h.next q rfl]
    | offline call =>
      rw [Point.inside_of_call call]
      rfl
    | acquire free =>
      rw [free]
      rfl
    | panics =>
      rw [hlocked rfl]
      rfl
    | @close call ch hopen =>
      cases ch <;> rfl
    | release next =>
      rw [hlocked rfl]
      rcases next with rfl | rfl <;> rfl
    | _ => rfl

variable {choice : Choice} {p' : Option Point}

theorem Outside.free (h : Outside s choice p s' p') (hfree : Free s) : Free s' := by
  refine ⟨h.teardown ▸ hfree.1, fun hstatus => ?_⟩
  cases hsets : p.setsStatus with
  | false =>
    rw [h.status hsets] at hstatus
    exact h.teardown ▸ hfree.2 hstatus
  | true => exact absurd hstatus (h.sets hsets)

theorem Outside.at (h : Outside s choice p s' p') {q : Point} (hat : At s q) : At s' q := by
  cases q <;>
    first
    | exact h.free hat
    | trivial
    | rw [At, h.teardown]
      exact hat

variable {t : Teardown}

theorem Closing.close {ch : Channel} (h : Closing t ch.before) :
    Closing (t.close ch) (ch.next.elim channels Channel.before) where
  closed := by
    rw [Teardown.close, h.closed]
    cases ch <;> rfl
  onSessionClosed := h.onSessionClosed
  returned := h.returned
  panicked := h.panicked

theorem Closing.not_mem {ch : Channel} (h : Closing t ch.before) : ch ∉ t.closed := by
  rw [h.closed]
  cases ch <;> decide

theorem Settled.torn (h : Settled t) (hdie : .chDie ∈ t.closed) : Torn t := by
  rcases h with h | h
  · rw [h.closed] at hdie
    cases hdie
  · exact h

theorem Settled.closing (h : Settled t) (hdie : .chDie ∉ t.closed) : Closing t [] := by
  rcases h with h | h
  · exact h
  · rw [h.closed] at hdie
    exact absurd (by decide) hdie

/-- **How far the teardown is.** -/
theorem teardown_owned (h : (goroutines messagesBufferSize).Reachable c) :
    (c.shared.closeMutex = false → Free c.shared) ∧
      ∀ p ∈ c.threads, p.inside = true → At c.shared p := by
  refine closeMutex_mutex.owns ?_ ?_ ?_ ?_ ?_ h
  · exact ⟨.inl ⟨rfl, rfl, rfl, rfl⟩, nofun⟩
  · intro s p choice s' q hstep hp hq hfree
    cases step_moves hstep with
    | outside h => cases (h.next q rfl).symm.trans hq
    | offline => cases hq
    | acquire => exact hfree
    | _ => cases hp
  · intro s p choice s' q hstep hp hq hat
    cases step_moves hstep with
    | outside h => cases (Point.inside_of_call h.call).symm.trans hp
    | offline => cases hq
    | acquire => cases hp
    | closed hstatus => exact hat.2 hstatus
    | unclosed => exact hat.1
    | mark | callbacks | flush | hset | connClose => exact hat
    | died hdie => exact hat.torn hdie
    | first hdie => exact hat.closing hdie
    | @close call ch hopen =>
      have hclose := Closing.close hat
      cases ch <;> exact hclose
    | invoke =>
      refine ⟨hat.closed, ?_, hat.panicked⟩
      rw [hat.onSessionClosed]
      rfl
    | release next =>
      rcases next with h | h <;> cases h
      cases hq
  · intro s p choice s' p' hstep hp hnext hat
    have hout {q : Point} (hq : q.inside = true) : p' ≠ some q := by
      intro h
      cases (hnext q h).symm.trans hq
    cases step_moves hstep with
    | outside h => cases (Point.inside_of_call h.call).symm.trans hp
    | offline call => cases (Point.inside_of_call call).symm.trans hp
    | panics hclosed => exact absurd hclosed (Closing.not_mem hat)
    | release =>
      have htorn : Torn s.teardown.return := ⟨hat.closed, hat.onSessionClosed, hat.panicked⟩
      exact ⟨.inr htorn, fun _ => htorn⟩
    | @close call ch hopen =>
      cases ch <;> exact absurd rfl (hout rfl)
    | _ => exact absurd rfl (hout rfl)
  · intro s p choice s' p' hstep hp hnext
    cases step_moves hstep with
    | outside h => exact ⟨h.free, fun q _ => h.at⟩
    | offline => exact ⟨id, fun q _ hat => by cases q <;> exact hat⟩
    | acquire => cases hnext _ rfl
    | _ => cases hp

/-! ## Once -/

/-- No channel is closed twice, and the close callbacks are run once, before `Close` returns. -/
structure Once (t : Teardown) : Prop where
  nodup : t.closed.Nodup
  panicked : t.panicked = false
  atMost : t.onSessionClosed.length ≤ 1
  returned : t.returned ≠ 0 → t.onSessionClosed.length = 1

theorem Closing.once {done : List Channel} (h : Closing t done) (hdone : done.Nodup) : Once t where
  nodup := h.closed ▸ hdone
  panicked := h.panicked
  atMost := by
    rw [h.onSessionClosed]
    exact Nat.zero_le 1
  returned hreturned := absurd h.returned hreturned

theorem Torn.once (h : Torn t) : Once t where
  nodup := by
    rw [h.closed]
    decide
  panicked := h.panicked
  atMost := h.onSessionClosed.le
  returned _ := h.onSessionClosed

theorem Settled.once (h : Settled t) : Once t :=
  h.elim (fun h => h.once List.nodup_nil) Torn.once

theorem At.once (hat : At s p) (hp : p.inside = true) : Once s.teardown := by
  cases p with
  | getStatus => exact hat.1.once
  | setClosed | select => exact Settled.once hat
  | close call ch => exact Closing.once hat (by cases ch <;> decide)
  | onSessionClosed => exact Closing.once hat (by decide)
  | callbacks | hset | connClose | unlock => exact Torn.once hat
  | _ => cases hp

theorem once (h : (goroutines messagesBufferSize).Reachable c) : Once c.shared.teardown := by
  obtain ⟨hfree, hat⟩ := teardown_owned h
  cases hlocked : c.shared.closeMutex with
  | false => exact (hfree hlocked).1.once
  | true =>
    obtain ⟨p, hp, hinside⟩ := closeMutex_mutex.exists_inside h hlocked
    exact (hat p hp hinside).once hinside

theorem returned_mono {after : Run Point Choice} {c' : Config Shared Point}
    (hreturned : c.shared.teardown.returned ≠ 0)
    (hrun : (goroutines messagesBufferSize).system.runFrom c after = some c') :
    c'.shared.teardown.returned ≠ 0 := by
  refine shared_runFrom (J := fun s => s.teardown.returned ≠ 0) ?_ hreturned hrun
  intro s p choice s' p' hs hstep
  cases step_moves hstep with
  | outside h => exact h.teardown.symm ▸ hs
  | release => exact Nat.succ_ne_zero _
  | _ => exact hs

/-- **The teardown happens exactly once.**  In every interleaving no channel is closed twice, and
once a call of `Close` has returned the close callbacks have been run exactly once, and are not
run again. -/
theorem teardown_once (h : (goroutines messagesBufferSize).Reachable c) :
    c.shared.teardown.closed.Nodup ∧ c.shared.teardown.panicked = false ∧
      (c.shared.teardown.returned ≠ 0 → ∀ after c',
        (goroutines messagesBufferSize).system.runFrom c after = some c' →
          c'.shared.teardown.onSessionClosed.length = 1) := by
  refine ⟨(once h).nodup, (once h).panicked, fun hreturned after c' hrun => ?_⟩
  exact (once (h.runFrom hrun)).returned (returned_mono hreturned hrun)

/-- A goroutine gets into `agentImpl.Close` and sets the status. -/
def setsClosed : Run Point Choice := steps .go [.lock {}, .getStatus {}, .setClosed {}]

/-- It closes the channels and runs the close callbacks. -/
def closesChannels (callbacks : Run Point Choice) : Run Point Choice :=
  steps .go (.select {} :: channels.map (.close {}) ++ [.onSessionClosed {}]) ++ callbacks ++
    steps .go [.connClose {}, .unlock {}]

/-- The read loop gets the acknowledgement of the handshake, and the heartbeat times out. -/
def acknowledges : Run Point Choice :=
  [.run .read (.packet .handshakeAck), .run (.processPacket .handshakeAck) .go,
    .run .heartbeat .fail]

/-- The heartbeat closes the agent, the handshake is acknowledged, and the session is closed: two
calls return, and the close callbacks are run once. -/
def closedTwice : Run Point Choice :=
  acknowledges ++ setsClosed ++ .run (.setStatus true) .go ::
    closesChannels [.run (.callbacks {}) .panics] ++
    .run .read .fail :: .run (.closeSession .normal) .go :: setsClosed ++
    steps .go [.select {}, .connClose {}, .unlock {}]

theorem teardown_once_closedTwice : ∃ c, (goroutines 1).system.run closedTwice = some c ∧
    (c.shared.teardown.closed.Nodup ∧ c.shared.teardown.onSessionClosed.length = 1) ∧
      c.shared.teardown.returned = 2 := by
  refine reaches_and (by decide +kernel) fun c hc hreturned => ?_
  have honce := teardown_once ⟨closedTwice, hc⟩
  refine ⟨honce.1, honce.2.2 ?_ [] c rfl⟩
  rw [hreturned]
  exact nofun

/-! ## Closed for good -/

/-- An agent that has been closed is closed, and who looked at it after it was closed was told
so. -/
structure ClosedForGood (c : Config Shared Point) : Prop where
  status : c.shared.hasClosed = true ↔ c.shared.status = .closed
  answers : ∀ a ∈ c.shared.answers, a.1 = true → a.2 = .brokenPipe

/-- Packet processing does not set the status of an agent that has been closed. -/
def RespectsClosed (c : Config Shared Point) : Event Point Choice → Prop
  | .run p _ => p.setsStatus = true → c.shared.hasClosed = false
  | .call _ => True

instance (c : Config Shared Point) (e : Event Point Choice) : Decidable (RespectsClosed c e) := by
  cases e <;> unfold RespectsClosed <;> infer_instance

theorem hasClosed_of_closed (h : (goroutines messagesBufferSize).Reachable c) :
    c.shared.status = .closed → c.shared.hasClosed = true := by
  refine shared_invariant (J := fun s => s.status = .closed → s.hasClosed = true) ?_ ?_ h
  · intro hstatus
    cases hstatus
  intro s p choice s' p' hs hstep hstatus
  cases step_moves hstep with
  | outside h =>
    rw [h.hasClosed]
    cases hsets : p.setsStatus with
    | false => exact hs ((h.status hsets).symm.trans hstatus)
    | true => exact absurd hstatus (h.sets hsets)
  | mark => rfl
  | _ => exact hs hstatus

/-- The status stays closed if and only if packet processing does not set it. -/
theorem status_step (hs : s.hasClosed = true → s.status = .closed)
    (hstep : step messagesBufferSize s p choice = some (s', p')) :
    (s'.hasClosed = true → s'.status = .closed) ↔ (p.setsStatus = true → s.hasClosed = false) := by
  cases step_moves hstep with
  | outside h =>
    rw [h.hasClosed]
    cases hsets : p.setsStatus with
    | false =>
      rw [h.status hsets]
      exact iff_of_true hs nofun
    | true =>
      have hne := h.sets hsets
      constructor
      · intro h _
        exact Bool.eq_false_of_not_eq_true fun hclosed => hne (h hclosed)
      · intro h hclosed
        cases (h rfl).symm.trans hclosed
  | offline call status => exact iff_of_true hs fun h => (by cases status.symm.trans h)
  | mark => exact iff_of_true (fun _ => rfl) nofun
  | _ => exact iff_of_true hs nofun

variable {events : Run Point Choice}

theorem status_along_iff (hrun : (goroutines messagesBufferSize).system.run events = some c) :
    (∀ before c', before <+: events →
      (goroutines messagesBufferSize).system.run before = some c' →
        c'.shared.hasClosed = true → c'.shared.status = .closed) ↔
      (goroutines messagesBufferSize).system.Meets RespectsClosed events := by
  refine System.forall_prefix_iff_meets (C := RespectsClosed) ?_ ?_ hrun
  · intro hclosed
    cases hclosed
  intro c e c' _ hc hstep
  rcases system_step hstep with
    ⟨p, rfl, -, rfl⟩ | ⟨p, rest, choice, s', p', rfl, -, hp, rfl⟩
  · exact iff_of_true hc trivial
  · exact status_step hc hp

/-- As long as the status stays closed, no caller overlooks that it was closed. -/
theorem answers_of_respects (hrun : (goroutines messagesBufferSize).system.run events = some c)
    (hmeets : (goroutines messagesBufferSize).system.Meets RespectsClosed events) :
    (c.shared.hasClosed = true → c.shared.status = .closed) ∧
      (∀ a ∈ c.shared.answers, a.1 = true → a.2 = .brokenPipe) ∧
      ∀ p ∈ c.threads, p.late = false := by
  apply config_induction_of_meets
    ?_ ?_ ?_ hrun hmeets
  · exact ⟨nofun, nofun, by simp [goroutines, Point.late]⟩
  · rintro s threads p _ _ ⟨hstatus, hanswers, hlate⟩ hentry
    refine ⟨hstatus, hanswers, fun q hq => ?_⟩
    rcases mem_cons.mp hq with rfl | hq
    · cases q <;> first | rfl | cases hentry
    · exact hlate q hq
  · rintro s p rest choice s' p' _ hC ⟨hstatus, hanswers, hlate⟩ hstep
    have hsees : ¬ Overlooks s p := by
      rintro (h | ⟨hclosed, hopen⟩)
      · cases (hlate p (mem_cons_self p rest)).symm.trans h
      · exact hopen (hstatus hclosed)
    refine ⟨(status_step hstatus hstep).mpr hC, ?_⟩
    have hrest (q : Point) (hq : q ∈ rest) : q.late = false := hlate q (mem_cons_of_mem hq)
    cases step_moves hstep with
    | outside h =>
      constructor
      · intro a ha hlate
        rcases h.answers a ha with ha | ha
        · exact hanswers a ha hlate
        · exact (ha hlate).resolve_right hsees
      · intro q hq
        rcases mem_rejoin.mp hq with hq | hq
        · exact Bool.eq_false_of_not_eq_true fun h' => hsees (h.late q hq h')
        · exact hrest q hq
    | release next =>
      refine ⟨hanswers, fun q hq => ?_⟩
      rcases mem_rejoin.mp hq with rfl | hq
      · rcases next with h | h <;> cases h
        rfl
      · exact hrest q hq
    | @close call ch hopen =>
      refine ⟨hanswers, fun q hq => ?_⟩
      rcases mem_cons.mp hq with rfl | hq
      · cases ch <;> rfl
      · exact hrest q hq
    | panics => exact ⟨hanswers, hrest⟩
    | _ =>
      refine ⟨hanswers, fun q hq => ?_⟩
      rcases mem_cons.mp hq with rfl | hq
      · rfl
      · exact hrest q hq

/-- **A closed agent stays closed**, and `Push` and `ResponseMID` return a broken pipe to all who
call them afterwards, if and only if packet processing never sets the status of an agent that has
been closed. -/
theorem closed_for_good_iff (hrun : (goroutines messagesBufferSize).system.run events = some c) :
    (∀ before c', before <+: events →
      (goroutines messagesBufferSize).system.run before = some c' → ClosedForGood c') ↔
      (goroutines messagesBufferSize).system.Meets RespectsClosed events := by
  refine ⟨fun h => (status_along_iff hrun).mp fun before c' hpre hbefore =>
    (h before c' hpre hbefore).status.mp, ?_⟩
  rintro hmeets before c' ⟨after, rfl⟩ hbefore
  obtain ⟨hstatus, hanswers, -⟩ := answers_of_respects hbefore hmeets.of_append
  exact ⟨⟨hstatus, hasClosed_of_closed ⟨before, hbefore⟩⟩, hanswers⟩

/-- The heartbeat closes the agent, and a caller of `Push` is told so. -/
def pushedAfterClose : Run Point Choice :=
  .run .heartbeat .fail :: setsClosed ++ [.call (.push [] []), .run (.push [] []) .go]

theorem closed_for_good_pushedAfterClose :
    ∃ c, (goroutines 1).system.run pushedAfterClose = some c ∧ ClosedForGood c ∧
      c.shared.answers = [(true, .brokenPipe)] := by
  refine reaches_and (by decide +kernel) fun c hc _ => ?_
  refine (closed_for_good_iff hc).mpr ?_ _ c (List.prefix_refl _) hc
  exact System.meets_of_meetsFrom (by decide +kernel)

/-- The handshake is acknowledged while the heartbeat closes the agent; then a message is pushed. -/
def acknowledgedAfterClose : Run Point Choice :=
  let m : PendingMessage := { typ := .push, route := [112], payload := [1] }
  acknowledges ++ setsClosed ++ closesChannels [.run (.callbacks {}) .fail] ++
    [.run .write .stop, .run (.setStatus true) .go, .call (.push [112] [1]),
      .run (.push [112] [1]) .go, .run (.send true m) .go, .run (.enqueue true m) .stop]

/-- **An agent that was closed is open again**: the caller is told that a message was sent which
is neither queued nor written. -/
theorem acknowledged_after_close : ∃ c, (goroutines 1).system.run acknowledgedAfterClose = some c ∧
    ¬ ClosedForGood c ∧ c.shared.hasClosed = true ∧ c.shared.status = .working ∧
      c.shared.answers = [(true, .ok)] ∧ c.shared.chSend = [] ∧ c.shared.sent = [] := by
  refine reaches_and (by decide +kernel) fun c _ ⟨hclosed, hstatus, _⟩ hgood => ?_
  cases hstatus.symm.trans (hgood.status.mp hclosed)

end Pitaya.Goroutines
