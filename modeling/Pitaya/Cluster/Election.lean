import Pitaya.Foundations.ByteString
import Pitaya.Foundations.Threads

/-!
# The leader election

`cluster/etcd_service_discovery.go`: `runElection` reports the changes of the leader on a channel.
The report is `setLeader`, which compares the new leader with `leaderID`, assigns it and sends it,
without a lock, and which is called by three goroutines: the one of the election, which closes the
channel when it returns, the one of `watchLeader`, and the caller of `runElection`, which waits for
a first leader.

* `Election.Point`, `Election.step` — the three of them with the three steps of `setLeader`, the
  receiver of the channel, and the cancellation of the context.

What etcd answers is open, except that `Leader` returns a leader only while the context is alive.
-/

namespace Pitaya.Cluster.Election

open Threads Transition

/-- The place that called `setLeader`. -/
inductive Caller
  | campaign
  | observe
  | reconnect
  | watch
  /-- The wait for the first leader, which is over then. -/
  | wait
  deriving DecidableEq

/-- Where a goroutine is. -/
inductive Point
  /-- The election, before `Leader`. -/
  | discover
  /-- The `select` after `Campaign` has been started. -/
  | campaign
  /-- The observation loop. -/
  | observe
  /-- The loop of `newSession`. -/
  | reconnect
  /-- The deferred `close(leaderChan)`. -/
  | close
  | watchLeader
  /-- The end of `runElection`. -/
  | wait
  /-- `setLeader`, before it compares. -/
  | setLeader (id : Bytes) (caller : Caller)
  | assign (id : Bytes) (caller : Caller)
  | send (id : Bytes) (caller : Caller)
  | receiver
  | canceller
  deriving DecidableEq

def Caller.return : Caller → Option Point
  | .campaign => some .campaign
  | .observe => some .observe
  | .reconnect => some .reconnect
  | .watch => some .watchLeader
  | .wait => none

/-- The variables of `runElection`; `queued` values are in the channel. -/
structure Shared where
  leaderID : Bytes := []
  sent : List Bytes := []
  queued : ℕ := 0
  closed : Bool := false
  cancelled : Bool := false
  /-- A value was sent on the closed channel. -/
  panicked : Bool := false
  deriving DecidableEq

/-- The last value sent; a leader is not yet known while there is none. -/
def Shared.last (s : Shared) : Bytes := s.sent.getLast?.getD []

/-- How a step goes. -/
inductive Choice
  | go
  | leader (id : Bytes)
  | noLeader
  /-- Any other error, or the session has expired. -/
  | fail
  /-- `context.Canceled`. -/
  | canceled
  /-- `<-ctx.Done()`. -/
  | done
  deriving DecidableEq

/-- The server and `resumeLeader`. -/
structure Setup where
  server : Bytes
  resumeLeader : Bool

/-- One step of a goroutine, as long as no goroutine has panicked. -/
def move (cfg : Setup) (s : Shared) : Point → Choice → Option (Shared × Option Point)
  | .discover, .noLeader =>
    if s.cancelled then none else some (s, some (.setLeader [] .campaign))
  | .discover, .leader id =>
    if s.cancelled then none
    -- its own leadership is resumed, or resigned
    else if id = cfg.server ∧ cfg.resumeLeader then some (s, some (.setLeader id .observe))
    else some (s, some (.setLeader id .campaign))
  | .discover, .fail | .campaign, .fail | .observe, .fail =>
    some (s, some (.setLeader [] .reconnect))
  | .campaign, .go => some (s, some (.setLeader cfg.server .observe))
  | .campaign, .canceled | .reconnect, .canceled => some (s, some .close)
  | .campaign, .done | .observe, .done | .reconnect, .done =>
    if s.cancelled then some (s, some .close) else none
  | .observe, .leader id => some (s, some (.setLeader id .observe))
  | .reconnect, .go => some (s, some .discover)
  | .reconnect, .fail => some (s, some .reconnect)
  | .close, .go => some ({ s with closed := true }, none)
  | .watchLeader, .leader id =>
    if s.cancelled then none else some (s, some (.setLeader id .watch))
  | .watchLeader, .fail => some (s, some .watchLeader)
  | .watchLeader, .done => some (s, none)
  | .wait, .leader id => if s.cancelled then none else some (s, some (.setLeader id .wait))
  | .wait, .noLeader => some (s, some .wait)
  | .wait, .fail => some (s, none)
  | .setLeader id caller, .go =>
    if s.leaderID = id then some (s, caller.return) else some (s, some (.assign id caller))
  | .assign id caller, .go => some ({ s with leaderID := id }, some (.send id caller))
  | .send id caller, .go =>
    if s.closed then some ({ s with panicked := true }, none)
    -- the channel has room for 10
    else if s.queued < 10 then
      some ({ s with sent := s.sent ++ [id], queued := s.queued + 1 }, caller.return)
    else none
  | .receiver, .go =>
    if s.queued = 0 then none else some ({ s with queued := s.queued - 1 }, some .receiver)
  | .canceller, .go => some ({ s with cancelled := true }, none)
  | _, _ => none

/-- `runElection`, after the first session and the channel have been made. -/
def runElection (cfg : Setup) : Program Shared Point Choice where
  start := {}
  main := {.discover, .watchLeader, .wait, .receiver, .canceller}
  entry _ := false
  step s p choice := if s.panicked then none else move cfg s p choice

/-- A report under way: found to be a change, or assigned already. -/
def Point.report : Point → Option (Bool × Bytes)
  | .assign id _ => some (false, id)
  | .send id _ => some (true, id)
  | _ => none

/-- The channel is a change log of `leaderID`. -/
structure Faithful (c : Threads.Config Shared Point) : Prop where
  opened : c.shared.panicked = false
  changes : c.shared.sent.IsChain (· ≠ ·)
  current : (∀ p ∈ c.threads, p.report = none) → c.shared.last = c.shared.leaderID

/-- The step finds a change, or closes the channel. -/
def Point.acts (s : Shared) : Point → Bool
  | .setLeader id _ => s.leaderID != id
  | .close => true
  | _ => false

/-- Such a step is taken only while the channel is open and no report is under way. -/
def Serial (c : Threads.Config Shared Point) : Threads.Event Point Choice → Prop
  | .call _ => True
  | .run p _ => p.acts c.shared → c.shared.closed = false ∧ ∀ q ∈ c.threads, q.report = none

instance decidableSerial (c : Threads.Config Shared Point) :
    (e : Threads.Event Point Choice) → Decidable (Serial c e)
  | .call _ => isTrue trivial
  | .run p _ => inferInstanceAs (Decidable (p.acts c.shared → _))

/-! ## What a step can do -/

variable {cfg : Setup} {s s' : Shared} {p : Point} {p' : Option Point} {choice : Choice}

theorem Caller.report_return (caller : Caller) : caller.return.bind Point.report = none := by
  cases caller <;> rfl

/-- The steps of a goroutine: those of `setLeader`, and those that neither assign nor send. -/
inductive Moves (s : Shared) : Point → Shared → Option Point → Prop
  | quiet {p : Point} {s' : Shared} {p' : Option Point} (hp : p.report = none)
      (hp' : p'.bind Point.report = none) (hid : s'.leaderID = s.leaderID)
      (hsent : s'.sent = s.sent) (hok : s'.panicked = s.panicked)
      (hclosed : s'.closed = s.closed ∨ p = .close) : Moves s p s' p'
  | finds {id caller} (h : s.leaderID ≠ id) :
      Moves s (.setLeader id caller) s (some (.assign id caller))
  | assigns {id caller} :
      Moves s (.assign id caller) { s with leaderID := id } (some (.send id caller))
  | sends {id caller} (h : s.closed = false) :
      Moves s (.send id caller) { s with sent := s.sent ++ [id], queued := s.queued + 1 }
        caller.return
  | panics {id caller} (h : s.closed = true) :
      Moves s (.send id caller) { s with panicked := true } none

theorem move_moves (h : move cfg s p choice = some (s', p')) : Moves s p s' p' := by
  have quiet {q : Option Point} (hp : p.report = none) (hq : q.bind Point.report = none) :
      Moves s p s q := .quiet hp hq rfl rfl rfl (.inl rfl)
  unfold move at h
  split at h <;> (try split_ifs at h) <;> cases h
  all_goals first
    | exact quiet rfl rfl
    | exact .quiet rfl rfl rfl rfl rfl (.inl rfl)
    | exact .quiet rfl rfl rfl rfl rfl (.inr rfl)
    | exact quiet rfl (Caller.report_return _)
    | exact .finds ‹_›
    | exact .assigns
    | exact .panics ‹_›
    | exact .sends (Bool.eq_false_iff.mpr ‹_›)

/-! ## Serial runs -/

/-- What is known of the variables during a report. -/
def Shared.Reporting (s : Shared) : Bool × Bytes → Prop
  | (false, id) => s.last = s.leaderID ∧ s.leaderID ≠ id
  | (true, id) => s.leaderID = id ∧ s.last ≠ id

/-- No report is under way, or only one and the channel is open. -/
def Shared.Phase (s : Shared) (reports : Multiset (Bool × Bytes)) : Prop :=
  reports = 0 ∧ s.last = s.leaderID ∨ ∃ r, reports = {r} ∧ s.Reporting r ∧ s.closed = false

/-- What holds in every configuration of a serial run. -/
structure Logged (c : Threads.Config Shared Point) : Prop where
  opened : c.shared.panicked = false
  changes : c.shared.sent.IsChain (· ≠ ·)
  phase : c.shared.Phase (c.threads.filterMap Point.report)

theorem reports_eq_zero {threads : Multiset Point} (h : ∀ p ∈ threads, p.report = none) :
    threads.filterMap Point.report = 0 := by
  rw [Multiset.eq_zero_iff_forall_notMem]
  intro r hr
  obtain ⟨p, hp, hpr⟩ := (Multiset.mem_filterMap _ _).mp hr
  cases (h p hp).symm.trans hpr

variable {reports : Multiset (Bool × Bytes)} {r : Bool × Bytes}

theorem Shared.Phase.last_eq (h : s.Phase 0) : s.last = s.leaderID := by
  rcases h with ⟨-, h⟩ | ⟨r, hr, -⟩
  · exact h
  · cases Multiset.singleton_ne_zero r hr.symm

theorem Shared.Phase.alone (h : s.Phase (r ::ₘ reports)) :
    reports = 0 ∧ s.Reporting r ∧ s.closed = false := by
  rcases h with ⟨hr, -⟩ | ⟨r', hr, h⟩
  · cases Multiset.cons_ne_zero hr
  · obtain ⟨rfl, hzero⟩ := (Multiset.cons_eq_cons.mp hr).resolve_right fun ⟨_, t, _, ht⟩ =>
      Multiset.cons_ne_zero ht.symm
    exact ⟨hzero, h⟩

theorem Shared.Phase.congr (h : s.Phase reports) (hid : s'.leaderID = s.leaderID)
    (hsent : s'.sent = s.sent) (hclosed : s'.closed = s.closed ∨ reports = 0) :
    s'.Phase reports := by
  have hlast : s'.last = s.last := by rw [Shared.last, hsent, Shared.last]
  rcases h with ⟨hr, h⟩ | ⟨r, hr, h, hopen⟩
  · exact .inl ⟨hr, by rw [hlast, hid, h]⟩
  · refine .inr ⟨r, hr, ?_, ?_⟩
    · obtain ⟨_ | _, id⟩ := r <;> simpa only [Reporting, hlast, hid] using h
    · rcases hclosed with hc | hc
      · exact hc.trans hopen
      · cases Multiset.singleton_ne_zero r (hr.symm.trans hc)

theorem Logged.faithful {c : Threads.Config Shared Point} (h : Logged c) : Faithful c where
  opened := h.opened
  changes := h.changes
  current hidle := by
    have phase := h.phase
    rw [reports_eq_zero hidle] at phase
    exact phase.last_eq

theorem isChain_concat {sent : List Bytes} {id : Bytes} (h : sent.IsChain (· ≠ ·))
    (hne : sent.getLast?.getD [] ≠ id) : (sent ++ [id]).IsChain (· ≠ ·) := by
  rw [List.isChain_append]
  refine ⟨h, List.isChain_singleton _, ?_⟩
  intro x hx y hy
  rw [hx] at hne
  cases hy
  exact hne

theorem Logged.step {rest : Multiset Point} (h : Logged ⟨s, p ::ₘ rest⟩)
    (hserial : Serial ⟨s, p ::ₘ rest⟩ (.run p choice)) (hmove : Moves s p s' p') :
    Logged ⟨s', rejoin p' rest⟩ := by
  obtain ⟨hopen, hchain, hphase⟩ := h
  dsimp only at hopen hchain hphase
  rw [filterMap_cons] at hphase
  cases hmove with
  | quiet hp hp' hid hsent hok hclosed =>
    rw [hp] at hphase
    refine ⟨hok.trans hopen, hsent ▸ hchain, ?_⟩
    rw [filterMap_rejoin, hp']
    refine hphase.congr hid hsent (hclosed.imp id ?_)
    rintro rfl
    exact reports_eq_zero fun q hq => (hserial rfl).2 q (Multiset.mem_cons_of_mem hq)
  | @finds id caller hne =>
    obtain ⟨hc, hnone⟩ := hserial (bne_iff_ne.mpr hne)
    have hrest := reports_eq_zero fun q hq => hnone q (Multiset.mem_cons_of_mem hq)
    refine ⟨hopen, hchain, ?_⟩
    rw [hrest] at hphase
    rw [filterMap_rejoin, hrest]
    exact .inr ⟨(false, id), rfl, ⟨hphase.last_eq, hne⟩, hc⟩
  | @assigns id caller =>
    obtain ⟨hrest, ⟨hlast, hne⟩, hc⟩ := Shared.Phase.alone hphase
    refine ⟨hopen, hchain, ?_⟩
    rw [filterMap_rejoin, hrest]
    exact .inr ⟨(true, id), rfl, ⟨rfl, hlast ▸ hne⟩, hc⟩
  | @sends id caller hc =>
    obtain ⟨hrest, ⟨hid, hne⟩, -⟩ := Shared.Phase.alone hphase
    refine ⟨hopen, isChain_concat hchain hne, ?_⟩
    rw [filterMap_rejoin, Caller.report_return, hrest]
    exact .inl ⟨rfl, by simp [Shared.last, hid]⟩
  | panics hc =>
    obtain ⟨-, -, hopen'⟩ := Shared.Phase.alone hphase
    cases hc.symm.trans hopen'

/-- If the reports do not overlap, with each other or with the close of the channel, nothing is
sent on the closed channel, every value sent is a change, and the last one is the leader. -/
theorem faithful_of_serial {events : Run Point Choice}
    {c : Threads.Config Shared Point} (hrun : (runElection cfg).system.run events = some c)
    (hserial : (runElection cfg).system.Meets Serial events) : Faithful c := by
  have logged : Logged c := by
    refine Program.config_induction_of_meets ?_ ?_ ?_ hrun hserial
    · exact ⟨rfl, .nil, .inl ⟨rfl, rfl⟩⟩
    · intro s threads p _ _ _ hentry
      cases hentry
    · intro s p rest choice s' p' _ hC hI hstep
      obtain ⟨-, hmove⟩ := Option.ite_none_left_eq_some.mp hstep
      exact hI.step hC (move_moves hmove)
  exact logged.faithful

/-! ## Runs -/

/-- The server of the runs; there are two others. -/
def server : Setup := ⟨[0x61], true⟩

def other : Bytes := [0x62]

def third : Bytes := [0x63]

/-- The goroutine that comes from `p` reports a leader, up to the send. -/
def reporting (p : Point) (id : Bytes) (caller : Caller) : Run Point Choice :=
  [.run p (.leader id), .run (.setLeader id caller) .go, .run (.assign id caller) .go]

/-- The first wait reports a leader, the watch finds the same one, and the election ends with the
context. -/
def serialRun : Run Point Choice :=
  reporting .wait other .wait ++ [.run (.send other .wait) .go, .run .watchLeader (.leader other),
    .run (.setLeader other .watch) .go, .run .canceller .go, .run .discover .fail] ++
  steps .go [.setLeader [] .reconnect, .assign [] .reconnect, .send [] .reconnect] ++
  [.run .reconnect .done, .run .close .go]

theorem faithful_serialRun : ∃ c, (runElection server).system.run serialRun = some c ∧
    Faithful c ∧ c.shared.sent = [other, []] :=
  reaches_and (by decide +kernel) fun _ hc _ =>
    faithful_of_serial hc (System.meets_of_meetsFrom (by decide +kernel))

/-- The context is cancelled, and the election ends, while the first wait has found a leader. -/
def sentAfterClose : Run Point Choice :=
  [.run .wait (.leader other), .run .canceller .go, .run .discover .fail,
    .run (.setLeader [] .reconnect) .go, .run .reconnect .done] ++
  steps .go [.close, .setLeader other .wait, .assign other .wait, .send other .wait]

/-- The first wait and the watch report the same leader. -/
def sentTwice : Run Point Choice :=
  [.run .wait (.leader other), .run .watchLeader (.leader other)] ++
  steps .go [.setLeader other .wait, .setLeader other .watch, .assign other .wait,
    .assign other .watch, .send other .wait, .send other .watch]

/-- The leader changes, and the election reports it between the assignment and the send of the
first wait. -/
def sentLate : Run Point Choice :=
  reporting .wait other .wait ++ reporting .discover third .campaign ++
    [.run (.send third .campaign) .go, .run (.send other .wait) .go]

/-- Each of the three properties fails: a value is sent on the closed channel, a value is sent
twice, and the last value sent is not the leader although no report is under way. -/
theorem unfaithful :
    (∃ c, (runElection server).system.run sentAfterClose = some c ∧ c.shared.panicked = true) ∧
    (∃ c, (runElection server).system.run sentTwice = some c ∧ c.shared.sent = [other, other]) ∧
    ∃ c, (runElection server).system.run sentLate = some c ∧
      (∀ p ∈ c.threads, p.report = none) ∧ c.shared.last = other ∧ c.shared.leaderID = third := by
  exact ⟨by decide +kernel, by decide +kernel, by decide +kernel⟩

end Pitaya.Cluster.Election
