import Pitaya.Cluster.Lifecycle
import Pitaya.Cluster.Reconcile

/-!
# Shutting the service discovery down

`Shutdown` cancels the context, waits for the loops and then takes `reconcileMu` once.  A
critical section that found the context alive has ended by then, and no later one does.

* `Stopping` — what `Shutdown` has achieved at each of its statements.
-/

namespace Pitaya.Cluster.Lifecycle

open Discovery Revisions Threads Transition Multiset

variable {cfg : Config} {s s' : Shared} {p : Point} {p' : Option Point} {rest : Multiset Point}
  {c : Threads.Config Shared Point}

/-- The tables, and the callbacks that have been started. -/
structure Silent (s s' : Shared) : Prop where
  serverMapByID : s'.sd.serverMapByID = s.sd.serverMapByID
  serverMapByType : s'.sd.serverMapByType = s.sd.serverMapByType
  consistentHash : s'.sd.consistentHash = s.sd.consistentHash
  appliedRevision : s'.sd.appliedRevision = s.sd.appliedRevision
  called : s'.called = s.called

theorem Silent.of_sd (sd : s'.sd = s.sd) (called : s'.called = s.called) : Silent s s' := by
  refine ⟨?_, ?_, ?_, ?_, called⟩ <;> rw [sd]

theorem Silent.trans {s₀ : Shared} (h : Silent s₀ s) (h' : Silent s s') : Silent s₀ s' where
  serverMapByID := h'.serverMapByID.trans h.serverMapByID
  serverMapByType := h'.serverMapByType.trans h.serverMapByType
  consistentHash := h'.consistentHash.trans h.consistentHash
  appliedRevision := h'.appliedRevision.trans h.appliedRevision
  called := h'.called.trans h.called

theorem Moves.silent (h : Moves cfg s p s' p') (hp : p.working = false) : Silent s s' := by
  cases h with
  | idle same | unlock same => exact .of_sd same.sd same.called
  | lock | getFailed | got | syncCancelled | syncAlive | responseCancelled | responseAlive
  | stopFirst | stopAgain | cancel | stopClose | joined => exact ⟨rfl, rfl, rfl, rfl, rfl⟩
  | _ => cases hp

/-- A call of `Shutdown` has joined the critical sections, or has returned. -/
def Joined (c : Threads.Config Shared Point) : Prop :=
  .joined ∈ c.threads ∨ c.shared.shutdowns ≠ 0

/-- What `Shutdown` has achieved. -/
structure Stopping (c : Threads.Config Shared Point) : Prop where
  once : c.shared.stopOnce = .done → c.shared.sd.cancelled = true
  stopped : ∀ p ∈ c.threads, p.stopped = true → c.shared.sd.cancelled = true
  joined : Joined c → c.shared.sd.cancelled = true ∧ ∀ p ∈ c.threads, p.working = false

theorem Moves.once (h : Moves cfg s p s' p') (hdone : s'.stopOnce = .done) :
    s.stopOnce = .done ∨ p.stopped = true := by
  cases h with
  | idle same | unlock same => exact .inl (same.stopOnce ▸ hdone)
  | stopFirst => cases hdone
  | stopClose => exact .inr rfl
  | _ => exact .inl hdone

theorem Moves.stopped {q : Point} (h : Moves cfg s p s' (some q)) (hq : q.stopped = true) :
    s.stopOnce = .done ∨ p.stopped = true ∨ s'.sd.cancelled = true := by
  cases h with
  | idle same outside next => exact .inr (.inl ((next q rfl).2 hq))
  | unlock same next => cases (next q rfl).2.symm.trans hq
  | lock free enters =>
    rcases enters with ⟨caller, rfl, rfl⟩ | ⟨events, rfl, rfl⟩ | ⟨rfl, rfl⟩
    · cases hq
    · cases hq
    · exact .inr (.inl rfl)
  | stopAgain done => exact .inl done
  | cancel => exact .inr (.inr rfl)
  | stopClose => exact .inr (.inl rfl)
  | _ => cases hq

theorem Moves.joins (h : Moves cfg s p s' p') (hjoined : p' = some .joined ∨ s'.shutdowns ≠ 0) :
    (p = .joined ∨ s.shutdowns ≠ 0) ∨ p.stopped = true ∧ s.reconcileMu = false := by
  cases h with
  | idle same outside next | unlock same next =>
    rcases hjoined with rfl | hjoined
    · cases (next _ rfl).1
    · exact .inl (.inr (same.shutdowns ▸ hjoined))
  | lock free enters =>
    rcases hjoined with hjoined | hjoined
    · obtain rfl := Option.some.inj hjoined
      rcases enters with ⟨_, _, hq⟩ | ⟨_, _, hq⟩ | ⟨rfl, _⟩
      · cases hq
      · cases hq
      · exact .inr ⟨rfl, free⟩
    · exact .inl (.inr hjoined)
  | cancel cancels =>
    rcases hjoined with rfl | hjoined
    · rcases cancels with ⟨_, hq⟩ | ⟨_, hq⟩ <;> cases hq
    · exact .inl (.inr hjoined)
  | joined => exact .inl (.inl rfl)
  | _ =>
    rcases hjoined with hjoined | hjoined
    · cases hjoined
    · exact .inl (.inr hjoined)

theorem Stopping.step (h : Stopping ⟨s, p ::ₘ rest⟩)
    (hreach : (lifecycle cfg).Reachable ⟨s, p ::ₘ rest⟩) (hmoves : Moves cfg s p s' p') :
    Stopping ⟨s', rejoin p' rest⟩ := by
  have hp : p ∈ p ::ₘ rest := mem_cons_self p rest
  refine ⟨fun hdone => ?_, fun q hq hstopped => ?_, fun hjoined => ?_⟩
  · rcases hmoves.once hdone with hdone | hp'
    · exact hmoves.cancelled (h.once hdone)
    · exact hmoves.cancelled (h.stopped p hp hp')
  · rcases mem_rejoin.mp hq with rfl | hq
    · rcases hmoves.stopped hstopped with hdone | hp' | hcancelled
      · exact hmoves.cancelled (h.once hdone)
      · exact hmoves.cancelled (h.stopped p hp hp')
      · exact hcancelled
    · exact hmoves.cancelled (h.stopped q (mem_cons_of_mem hq) hstopped)
  · have hquiet : s.sd.cancelled = true ∧ ∀ q ∈ p ::ₘ rest, q.working = false := by
      have hbefore : (p' = some .joined ∨ s'.shutdowns ≠ 0) ∨ .joined ∈ rest := by
        rcases hjoined with hjoined | hjoined
        · exact (mem_rejoin.mp hjoined).imp_left .inl
        · exact .inl (.inr hjoined)
      rcases hbefore with hjoined | hrest
      · rcases hmoves.joins hjoined with (rfl | hbefore) | ⟨hstopped, hfree⟩
        · exact h.joined (.inl hp)
        · exact h.joined (.inr hbefore)
        · refine ⟨h.stopped p hp hstopped, fun q hq => Bool.eq_false_of_not_eq_true fun hq' => ?_⟩
          have houtside := reconcileMu_mutex.outside hreach hfree hq
          cases (Point.locked_of_working hq').symm.trans houtside
      · exact h.joined (.inl (mem_cons_of_mem hrest))
    refine ⟨hmoves.cancelled hquiet.1, fun q hq => ?_⟩
    rcases mem_rejoin.mp hq with rfl | hq
    · refine Bool.eq_false_of_not_eq_true fun hworking => ?_
      rcases hmoves.working hworking with hp' | ⟨-, halive⟩
      · cases (hquiet.2 p hp).symm.trans hp'
      · cases hquiet.1.symm.trans halive
    · exact hquiet.2 q (mem_cons_of_mem hq)

theorem stopping (h : (lifecycle cfg).Reachable c) : Stopping c := by
  refine Program.config_induction ?_ ?_ ?_ h
  · refine ⟨fun h => (by cases h), fun p hp => (by cases hp), fun hjoined => ?_⟩
    rcases hjoined with hjoined | hjoined
    · cases hjoined
    · exact absurd rfl hjoined
  · intro s threads p _ h hentry
    have hp : p.stopped = false ∧ p.working = false ∧ p ≠ .joined := by
      cases p with
      | syncLock | goWatch | goTicker | init | initFailed | addListener | beforeShutdown
      | shutdown => exact ⟨rfl, rfl, Point.noConfusion⟩
      | _ => cases hentry
    refine ⟨h.once, fun q hq hstopped => ?_, fun hjoined => ?_⟩
    · rcases mem_cons.mp hq with rfl | hq
      · cases hp.1.symm.trans hstopped
      · exact h.stopped q hq hstopped
    · have hbefore : Joined ⟨s, threads⟩ :=
        hjoined.imp_left fun hmem => (mem_cons.mp hmem).resolve_left hp.2.2.symm
      refine ⟨(h.joined hbefore).1, fun q hq => ?_⟩
      rcases mem_cons.mp hq with rfl | hq
      · exact hp.2.1
      · exact (h.joined hbefore).2 q hq
  · exact fun s p rest choice s' p' hreach h hstep => h.step hreach (step_moves hstep)

theorem Moves.shutdowns_le (h : Moves cfg s p s' p') : s.shutdowns ≤ s'.shutdowns := by
  cases h with
  | idle same | unlock same => exact same.shutdowns.ge
  | joined => exact Nat.le_succ _
  | _ => exact le_rfl

theorem silent_step {c' : Threads.Config Shared Point} {e : Threads.Event Point Choice}
    (hreach : (lifecycle cfg).Reachable c) (hreturned : c.shared.shutdowns ≠ 0)
    (hstep : (lifecycle cfg).system.step c e = some c') :
    c'.shared.shutdowns ≠ 0 ∧ Silent c.shared c'.shared := by
  obtain ⟨s, threads⟩ := c
  rcases Program.system_step hstep with
    ⟨p, rfl, hentry, rfl⟩ | ⟨p, rest, choice, s', p', rfl, hc, hp, rfl⟩
  · exact ⟨hreturned, .of_sd rfl rfl⟩
  · obtain rfl : threads = p ::ₘ rest := congrArg Threads.Config.threads hc
    have hmoves := step_moves hp
    have hidle := ((stopping hreach).joined (.inr hreturned)).2 p (mem_cons_self p rest)
    exact ⟨((Nat.pos_of_ne_zero hreturned).trans_le hmoves.shutdowns_le).ne', hmoves.silent hidle⟩

/-- **Silence after `Shutdown`.**  In every interleaving, once a call of `Shutdown` has
returned: no goroutine is in a callback of a listener, no callback starts, and
`serverMapByID`, `serverMapByType`, the consistent hashes and `appliedRevision` stay as they
are. -/
theorem silent_after_shutdown (cfg : Config) (before after : Run Point Choice)
    (c₀ c : Threads.Config Shared Point) (hbefore : (lifecycle cfg).system.run before = some c₀)
    (hreturned : c₀.shared.shutdowns ≠ 0)
    (hrun : (lifecycle cfg).system.run (before ++ after) = some c) :
    (∀ of change l todo changes, .callback of change l todo changes ∉ c.threads) ∧
      c.shared.called = c₀.shared.called ∧
      c.shared.sd.serverMapByID = c₀.shared.sd.serverMapByID ∧
      c.shared.sd.serverMapByType = c₀.shared.sd.serverMapByType ∧
      c.shared.sd.consistentHash = c₀.shared.sd.consistentHash ∧
      c.shared.sd.appliedRevision = c₀.shared.sd.appliedRevision := by
  obtain ⟨hstill, hsilent⟩ := Transition.System.run_induction_after
    (P := fun _ c => c.shared.shutdowns ≠ 0 ∧ Silent c₀.shared c.shared) hbefore
    ⟨hreturned, ⟨rfl, rfl, rfl, rfl, rfl⟩⟩
    (fun after e c c' hrun h hstep =>
      have hnext := silent_step ⟨_, hrun⟩ h.1 hstep
      ⟨hnext.1, h.2.trans hnext.2⟩) hrun
  refine ⟨fun of change l todo changes hmem => ?_, hsilent.called, hsilent.serverMapByID,
    hsilent.serverMapByType, hsilent.consistentHash, hsilent.appliedRevision⟩
  cases ((stopping ⟨_, hrun⟩).joined (.inr hstill)).2 _ hmem

/-! ## A shutdown during a callback -/

/-- The server "x" of type "a" alone. -/
def loneSnapshot : Snapshot := ⟨1, [(getKey [120] [97], [97, 120])]⟩

@[inherit_doc loneSnapshot]
def loneServers : Finmap fun _ : Bytes => Server :=
  readSnapshot twoByteConfig {} loneSnapshot.kvs

@[inherit_doc loneSnapshot]
def loneChange : ServerChange :=
  { action := .add, server := Server.fix { id := [120], typ := [97] } }

/-- `SyncServers`, until a listener is called. -/
def syncUntilCallback : Run Point Choice :=
  [.call (.addListener 0), .run (.addListener 0) .go,
   .call (.syncLock .external), .run (.syncLock .external) .go,
   .run (.get .external) (.reply (.ok loneSnapshot)), .run (.syncCheck .external loneSnapshot) .go,
   .run (.compare .external loneSnapshot) (.order [[120]]),
   .run (.store .external 1 loneServers [[120]] []) .go,
   .run (.store .external 1 loneServers [] [loneChange]) (.order [[120]])] ++
  steps .go [.remove .external 1 loneServers [[120]] [loneChange],
    .remove .external 1 loneServers [] [loneChange], .revise (.sync .external) 1 [loneChange],
    .notify (.sync .external) [loneChange], .copy (.sync .external) loneChange [],
    .call (.sync .external) loneChange [0] []]

/-- `Shutdown`, until it joins the critical sections. -/
def shutdownUntilJoin : Run Point Choice :=
  .call .shutdown :: steps .go [.shutdown, .stopRunning, .stopCancel, .stopClose, .wait]

/-- The rest of `SyncServers`, and then of `Shutdown`. -/
def callbackThenJoin : Run Point Choice :=
  steps .go [.callback (.sync .external) loneChange 0 [] [],
    .call (.sync .external) loneChange [] [], .notify (.sync .external) [],
    .unlock (.sync .external) (.ok ()), .join, .joined]

/-- A later call of `SyncServers`, which etcd answers. -/
def syncAfter : Run Point Choice :=
  [.call (.syncLock .external), .run (.syncLock .external) .go,
   .run (.get .external) (.reply (.ok ⟨2, []⟩)), .run (.syncCheck .external ⟨2, []⟩) .go,
   .run (.unlock (.sync .external) (.error .contextCanceled)) .go]

/-- `Shutdown` comes while a listener is told about "x", and a snapshot without "x" after it. -/
theorem silent_after_shutdown_late : ∃ c₀, (lifecycle twoByteConfig).system.run
      (syncUntilCallback ++ shutdownUntilJoin ++ callbackThenJoin) = some c₀ ∧
    (∃ c, (lifecycle twoByteConfig).system.run
        ((syncUntilCallback ++ shutdownUntilJoin ++ callbackThenJoin) ++ syncAfter) = some c ∧
      (c.shared.called = [(0, loneChange)] ∧ c.shared.sd.appliedRevision = 1) ∧ c.threads = {}) ∧
    c₀.shared.shutdowns ≠ 0 ∧ c₀.shared.called = [(0, loneChange)] ∧
    c₀.shared.sd.appliedRevision = 1 := by
  refine reaches_and (by decide +kernel) fun c₀ hc₀ ⟨hreturned, hcalled, hrevision⟩ => ?_
  refine reaches_and (by decide +kernel) fun c hc _ => ?_
  have hsilent := silent_after_shutdown twoByteConfig _ _ c₀ c hc₀ hreturned hc
  exact ⟨hsilent.2.1.trans hcalled, hsilent.2.2.2.2.2.trans hrevision⟩

end Pitaya.Cluster.Lifecycle
