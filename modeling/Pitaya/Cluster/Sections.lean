import Pitaya.Cluster.Notifications
import Pitaya.Cluster.Shutdown

/-!
# The critical sections of `reconcileMu`

`syncServersLocked` and `applyWatchResponse` look at the context, change the tables entry by
entry, assign `appliedRevision` and call the listeners, all under `reconcileMu`; the context may
be cancelled meanwhile.

* `Point.Within` — how far a critical section has come: what is left of its loops takes the
  present state to what the function computes from the state at the lock.
* `section_atomic` — so the functions may be taken as one step, as `reconciler` and `watching` do.
-/

namespace Pitaya.Cluster.Lifecycle

open Discovery Ranges Revisions Threads Transition List Point

variable {cfg : Config} {s s' : Shared} {p : Point} {p' : Option Point} {rest : Multiset Point}
  {c : Threads.Config Shared Point}

/-- What a critical section leaves, if nobody disturbs it. -/
def Section.Commits (cfg : Config) (sd sd' : Discovery) (result : Except SyncError Unit) :
    Section → Prop
  | .sync _ => ∃ reply stores removes,
      sd.syncServersLocked cfg reply stores removes = some (sd', result)
  | .response => ∃ events, sd.applyWatchResponse cfg events = sd' ∧ result = .ok ()

/-- A critical section has done what its function does in one step, from the state at the lock and
with the context as it was at some moment since. -/
def Shared.Committed (cfg : Config) (s : Shared) (of : Section) (result : Except SyncError Unit) :
    Prop :=
  ∃ cancelled : Bool, (s.atLock.cancelled = true → cancelled = true) ∧
    (cancelled = true → s.sd.cancelled = true) ∧
    of.Commits cfg { s.atLock with cancelled } { s.sd with cancelled } result

/-- The state has not changed since, unless the context has been cancelled. -/
def Later (sd₀ sd : Discovery) : Prop :=
  sd = { sd₀ with cancelled := sd.cancelled } ∧ (sd₀.cancelled = true → sd.cancelled = true)

/-- The end of both functions, after their loops. -/
def finish (cfg : Config) (revision : ℕ) (st : Discovery × List ServerChange) : Discovery :=
  ({ st.1 with appliedRevision := revision }).notifyChanges cfg st.2

/-- What is left of a critical section that started in `sd₀` and found the context alive leads to
what its function makes of `sd₀`. -/
def Point.Runs (cfg : Config) (sd₀ sd : Discovery) : Point → Prop
  | .compare _ _ => sd = sd₀
  | .store caller revision servers todo changes => ∀ removes,
      let stored := todo.foldl (storeVisit cfg servers) (sd, changes)
      VisitsKeys stored.1.serverMapByID removes → (Section.sync caller).Commits cfg sd₀
        (finish cfg revision (removes.foldl (removeVisit servers) stored)) (.ok ())
  | .remove caller revision servers todo changes => (Section.sync caller).Commits cfg sd₀
      (finish cfg revision (todo.foldl (removeVisit servers) (sd, changes))) (.ok ())
  | .events boundary revision todo changes =>
    let b := todo.foldl (watchVisit cfg boundary) ⟨sd, revision, changes⟩
    Section.response.Commits cfg sd₀ (finish cfg b.revision (b.sd, b.changes)) (.ok ())
  | .revise of revision changes => of.Commits cfg sd₀ (finish cfg revision (sd, changes)) (.ok ())
  | .notify of changes | .copy of _ changes | .call of _ _ changes | .callback of _ _ _ changes =>
    of.Commits cfg sd₀ (sd.notifyChanges cfg changes) (.ok ())
  | _ => False

/-- How far a critical section has come. -/
def Point.Within (cfg : Config) (s : Shared) (p : Point) : Prop :=
  match p with
  | .get _ | .syncCheck _ _ | .responseCheck _ | .joined => Later s.atLock s.sd
  | .unlock of result => s.Committed cfg of result
  | p => p.working = true →
      s.atLock.cancelled = false ∧ p.Runs cfg s.atLock { s.sd with cancelled := false }

theorem Point.within_of_outside (h : p.locked = false) : p.Within cfg s := by
  cases p with
  | get | syncCheck | responseCheck | joined | unlock | compare | store | remove | events | revise
  | notify | copy | call | callback => cases h
  | _ => exact fun hworking => by cases hworking

variable {sd : Discovery}

theorem eq_self_of_alive (h : sd.cancelled = false) : { sd with cancelled := false } = sd := by
  rw [← h]

theorem Later.alive {sd₀ : Discovery} (h : Later sd₀ sd) (alive : sd.cancelled = false) :
    sd₀.cancelled = false ∧ { sd with cancelled := false } = sd₀ := by
  have hbefore : sd₀.cancelled = false :=
    Bool.eq_false_of_not_eq_true fun hcancelled => by cases alive.symm.trans (h.2 hcancelled)
  refine ⟨hbefore, ?_⟩
  rw [h.1, ← hbefore]

/-- A critical section that gives up before it changes anything. -/
theorem Later.gives_up {of : Section} {result : Except SyncError Unit}
    (h : Later s.atLock s.sd) (commits : of.Commits cfg s.sd s.sd result) :
    Point.Within cfg s (.unlock of result) := by
  refine ⟨s.sd.cancelled, h.2, fun h => h, ?_⟩
  rw [← h.1]
  exact commits

variable {changes : List ServerChange}

theorem notifyChanges_told {change : ServerChange}
    (h : change.action = .del ∨ change.server.id ≠ cfg.server.id) :
    sd.notifyChanges cfg (change :: changes)
      = ({ sd with notified := sd.notified ++ [change] }).notifyChanges cfg changes := by
  unfold notifyChanges
  rw [filter_cons_of_pos (by simpa using h), ← singleton_append, ← append_assoc]

theorem notifyChanges_skipped {change : ServerChange}
    (h : ¬ (change.action = .del ∨ change.server.id ≠ cfg.server.id)) :
    sd.notifyChanges cfg (change :: changes) = sd.notifyChanges cfg changes := by
  unfold notifyChanges
  rw [filter_cons_of_neg (by simpa using h)]

theorem notifyChanges_nil (sd : Discovery) : sd.notifyChanges cfg [] = sd := by
  unfold notifyChanges
  rw [filter_nil, append_nil]

/-- One more visit of a loop that does not depend on the context. -/
theorem foldl_visit {α : Type}
    {visit : Discovery × List ServerChange → α → Discovery × List ServerChange} {x : α}
    {todo : List α} (h : visit ({ sd with cancelled := false }, changes) x
      = ({ (visit (sd, changes) x).1 with cancelled := false }, (visit (sd, changes) x).2)) :
    todo.foldl visit ({ (visit (sd, changes) x).1 with cancelled := false },
        (visit (sd, changes) x).2)
      = (x :: todo).foldl visit ({ sd with cancelled := false }, changes) := by
  rw [foldl_cons, h]

/-- A critical section goes on. -/
theorem Moves.within {q : Point} (h : Moves cfg s p s' (some q)) (hp : p.Within cfg s) :
    q.Within cfg s' := by
  cases h with
  | idle same outside next | unlock same next => exact within_of_outside (next q rfl).1
  | lock free enters =>
    rcases enters with ⟨caller, rfl, rfl⟩ | ⟨events, rfl, rfl⟩ | ⟨rfl, rfl⟩ <;>
      exact ⟨rfl, fun h => h⟩
  | @getFailed caller text => exact Later.gives_up hp ⟨.error text, [], [], rfl⟩
  | got => exact hp
  | @syncCancelled caller snapshot cancelled =>
    refine Later.gives_up hp ⟨.ok snapshot, [], [], ?_⟩
    unfold syncServersLocked
    dsimp only
    rw [if_pos cancelled]
  | syncAlive alive => exact fun _ => Later.alive hp alive
  | @stale caller snapshot stale =>
    obtain ⟨halive, hsd⟩ := hp rfl
    refine ⟨false, fun h => halive.symm.trans h, fun h => (by cases h), ?_⟩
    change { s.sd with cancelled := false } = s.atLock at hsd
    rw [eq_self_of_alive halive, hsd]
    refine ⟨.ok snapshot, [], [], ?_⟩
    unfold syncServersLocked
    dsimp only
    rw [halive, if_neg Bool.false_ne_true, if_pos (hsd ▸ stale)]
  | @read caller snapshot stores fresh visits =>
    intro _
    obtain ⟨halive, hsd⟩ := hp rfl
    change { s.sd with cancelled := false } = s.atLock at hsd
    have hread : readSnapshot cfg s.sd snapshot.kvs = readSnapshot cfg s.atLock snapshot.kvs := by
      rw [← hsd]
      rfl
    refine ⟨halive, fun removes hremoves => ⟨.ok snapshot, stores, removes, ?_⟩⟩
    rw [hsd, hread] at hremoves ⊢
    rw [hread] at visits
    unfold syncServersLocked
    dsimp only
    rw [halive, if_neg Bool.false_ne_true, if_neg (hsd ▸ fresh), if_pos ⟨visits, hremoves⟩]
    rfl
  | @store caller revision servers id todo changes =>
    intro _
    obtain ⟨halive, hruns⟩ := hp rfl
    refine ⟨halive, fun removes hremoves => ?_⟩
    rw [foldl_visit (storeVisit_cancelled false servers s.sd changes id)] at hremoves ⊢
    exact hruns removes hremoves
  | @stored caller revision servers removes changes visits =>
    intro _
    obtain ⟨halive, hruns⟩ := hp rfl
    exact ⟨halive, hruns removes visits⟩
  | @remove caller revision servers id todo changes =>
    intro _
    obtain ⟨halive, hruns⟩ := hp rfl
    refine ⟨halive, ?_⟩
    dsimp only [Point.Runs]
    rw [foldl_visit (removeVisit_cancelled false servers s.sd changes id)]
    exact hruns
  | @responseCancelled events cancelled =>
    refine Later.gives_up hp ⟨events, if_pos cancelled, rfl⟩
  | @responseAlive events alive =>
    intro _
    obtain ⟨halive, hsd⟩ := Later.alive hp alive
    refine ⟨halive, events, ?_, rfl⟩
    unfold applyWatchResponse
    rw [halive, if_neg Bool.false_ne_true, ← hsd]
    rfl
  | @event boundary revision e todo changes =>
    intro _
    obtain ⟨halive, hruns⟩ := hp rfl
    dsimp only [Runs] at hruns
    rw [foldl_cons, watchVisit_cancelled] at hruns
    exact ⟨halive, hruns⟩
  | removed | eventsDone | revise | copy | told | call | callback => exact fun _ => hp rfl
  | @tell of change changes notifiable =>
    intro _
    obtain ⟨halive, hcommits⟩ := hp rfl
    dsimp only [Runs] at hcommits
    rw [notifyChanges_told notifiable] at hcommits
    exact ⟨halive, hcommits⟩
  | @skip of change changes own =>
    intro _
    obtain ⟨halive, hcommits⟩ := hp rfl
    dsimp only [Runs] at hcommits
    rw [notifyChanges_skipped own] at hcommits
    exact ⟨halive, hcommits⟩
  | @notified of =>
    obtain ⟨halive, hcommits⟩ := hp rfl
    refine ⟨false, fun h => halive.symm.trans h, fun h => (by cases h), ?_⟩
    change of.Commits cfg _ _ _ at hcommits
    rw [notifyChanges_nil] at hcommits
    rw [eq_self_of_alive halive]
    exact hcommits
  | stopFirst | stopAgain | stopClose => exact within_of_outside rfl
  | cancel cancels =>
    rcases cancels with ⟨rfl, hq⟩ | ⟨rfl, hq⟩ <;> cases hq
    exact within_of_outside rfl

/-- While the lock is taken, those outside can only cancel the context. -/
theorem Moves.outside (h : Moves cfg s p s' p') (hp : p.locked = false)
    (taken : s.reconcileMu = true) : s'.atLock = s.atLock ∧ Later s.sd s'.sd := by
  cases h with
  | idle same outside next => exact ⟨same.atLock, by rw [same.sd]; exact ⟨rfl, fun h => h⟩⟩
  | lock free enters => cases free.symm.trans taken
  | stopFirst | stopAgain | stopClose => exact ⟨rfl, rfl, fun h => h⟩
  | cancel => exact ⟨rfl, rfl, fun _ => rfl⟩
  | _ => cases hp

theorem Later.trans {sd₀ sd' : Discovery} (h : Later sd₀ sd) (h' : Later sd sd') :
    Later sd₀ sd' := by
  refine ⟨?_, fun hcancelled => h'.2 (h.2 hcancelled)⟩
  rw [h'.1, h.1]

theorem Later.with_cancelled {sd' : Discovery} (h : Later sd sd') (cancelled : Bool) :
    { sd' with cancelled } = { sd with cancelled } := by
  rw [h.1]

/-- The others do not disturb a critical section. -/
theorem Point.Within.bystander (h : p.Within cfg s) (hatLock : s'.atLock = s.atLock)
    (hlater : Later s.sd s'.sd) : p.Within cfg s' := by
  cases p with
  | get | syncCheck | responseCheck | joined =>
    change Later s'.atLock s'.sd
    rw [hatLock]
    exact Later.trans h hlater
  | unlock of result =>
    obtain ⟨cancelled, hlock, hnow, hcommits⟩ := h
    refine ⟨cancelled, ?_, fun hcancelled => hlater.2 (hnow hcancelled), ?_⟩
    · rw [hatLock]
      exact hlock
    · rw [hatLock, hlater.with_cancelled]
      exact hcommits
  | _ =>
    intro hworking
    rw [hatLock, hlater.with_cancelled]
    exact h hworking

theorem within (h : (lifecycle cfg).Reachable c) : ∀ p ∈ c.threads, p.Within cfg c.shared := by
  refine Program.thread_invariant (J := fun s p => p.Within cfg s) ?_ ?_ ?_ ?_ h
  · exact fun p hp => by cases hp
  · intro s threads p _ hentry
    exact within_of_outside (reconcileMu_mutex.call p hentry)
  · exact fun s p rest choice s' q _ hp hstep => (step_moves hstep).within hp
  · intro s p rest choice s' p' q hreach hq hp hwithin hstep
    cases hlocked : q.locked with
    | false => exact within_of_outside hlocked
    | true =>
      have hmem : q ∈ p ::ₘ rest := Multiset.mem_cons_of_mem hq
      have hp' : p.locked = false :=
        Bool.eq_false_of_not_eq_true fun hp' => by
          cases hlocked.symm.trans (reconcileMu_mutex.alone hreach hp' hq)
      obtain ⟨hatLock, hlater⟩ :=
        (step_moves hstep).outside hp' (reconcileMu_mutex.taken hreach hmem hlocked)
      exact hwithin.bystander hatLock hlater

/-- **The critical sections are atomic.**  In every interleaving, when a goroutine is about to
unlock `reconcileMu`, the service discovery is what `syncServersLocked` or `applyWatchResponse`
makes of it in one step, and `SyncServers` returns what that step returns. -/
theorem section_atomic (cfg : Config) (c : Threads.Config Shared Point)
    (h : (lifecycle cfg).Reachable c) (of : Section) (result : Except SyncError Unit)
    (hp : .unlock of result ∈ c.threads) : c.shared.Committed cfg of result :=
  within h _ hp

/-- `Shutdown` cancels the context while a listener is told about "x". -/
theorem section_atomic_cancelled : ∃ c, (lifecycle twoByteConfig).system.run
      (syncUntilCallback ++ shutdownUntilJoin ++ callbackThenJoin.take 3) = some c ∧
    c.shared.Committed twoByteConfig (.sync .external) (.ok ()) ∧
    .unlock (.sync .external) (.ok ()) ∈ c.threads ∧ c.shared.sd.cancelled = true :=
  reaches_and (by decide +kernel) fun c hc ⟨hunlock, _⟩ =>
    section_atomic twoByteConfig c ⟨_, hc⟩ _ _ hunlock

/-! ## Refinement -/

theorem Later.reachable {sd₀ : Discovery} (h : Later sd₀ sd)
    (hreach : (reconciler cfg).Reachable sd₀) : (reconciler cfg).Reachable sd := by
  rw [h.1]
  cases hnow : sd.cancelled with
  | true => exact hreach.step (e := .cancel) rfl
  | false =>
    have hbefore : sd₀.cancelled = false :=
      Bool.eq_false_of_not_eq_true fun hcancelled => by cases hnow.symm.trans (h.2 hcancelled)
    rw [eq_self_of_alive hbefore]
    exact hreach

theorem Shared.Committed.reachable {of : Section} {result : Except SyncError Unit}
    (h : s.Committed cfg of result) (hlock : (reconciler cfg).Reachable s.atLock) :
    (reconciler cfg).Reachable s.sd := by
  obtain ⟨cancelled, hbefore, hafter, hcommits⟩ := h
  have hstart : (reconciler cfg).Reachable { s.atLock with cancelled } :=
    Later.reachable ⟨rfl, hbefore⟩ hlock
  have hend : (reconciler cfg).Reachable { s.sd with cancelled } := by
    cases of with
    | sync =>
      obtain ⟨reply, stores, removes, hsync⟩ := hcommits
      exact hstart.step (e := .syncServers reply stores removes) (congrArg (Option.map _) hsync)
    | response =>
      obtain ⟨events, hevents, -⟩ := hcommits
      exact hstart.step (e := .watchResponse events) (congrArg some hevents)
  have hlater : Later { s.sd with cancelled } s.sd := ⟨rfl, hafter⟩
  exact hlater.reachable hend

/-- **The goroutines refine the sequential cache.**  In every interleaving, whenever `reconcileMu`
is free the cache is one that updates made one after the other lead to; while it is taken, the cache
was one when it was taken. -/
theorem refines_reconciler (cfg : Config) (c : Threads.Config Shared Point)
    (h : (lifecycle cfg).Reachable c) : (reconciler cfg).Reachable
      (if c.shared.reconcileMu then c.shared.atLock else c.shared.sd) := by
  apply Program.config_induction ⟨[], rfl⟩ ?_ ?_ h
  · exact fun s threads p _ hI _ => hI
  · intro s p rest choice s' p' hreach hI hstep
    have hp := within hreach p (Multiset.mem_cons_self p rest)
    have htaken (hlocked : p.locked = true) : s.reconcileMu = true :=
      reconcileMu_mutex.taken hreach (Multiset.mem_cons_self p rest) hlocked
    dsimp only at hI ⊢
    cases step_moves hstep with
    | idle same =>
      rw [same.reconcileMu, same.atLock, same.sd]
      exact hI
    | lock free =>
      rw [free] at hI
      exact hI
    | unlock same =>
      rw [htaken rfl] at hI
      rw [same.reconcileMu, same.sd]
      exact Shared.Committed.reachable hp hI
    | joined =>
      rw [htaken rfl] at hI
      exact Later.reachable hp hI
    | cancel =>
      cases hlock : s.reconcileMu with
      | true =>
        rw [hlock] at hI
        simpa [Shared.cancel, hlock] using hI
      | false =>
        rw [hlock] at hI
        simpa [Shared.cancel, hlock] using hI.step (e := .cancel) rfl
    | stopFirst | stopAgain | stopClose => exact hI
    | _ =>
      -- inside a critical section
      simp only [htaken rfl] at hI ⊢
      exact hI

/-- `Shutdown` has joined a critical section. -/
theorem refines_reconciler_joined : ∃ c, (lifecycle twoByteConfig).system.run
      (syncUntilCallback ++ shutdownUntilJoin ++ callbackThenJoin) = some c ∧
    (reconciler twoByteConfig).Reachable c.shared.sd ∧ c.shared.shutdowns = 1 ∧
    c.shared.reconcileMu = false := by
  refine reaches_and (by decide +kernel) fun c hc ⟨_, hfree⟩ => ?_
  have hreach := refines_reconciler twoByteConfig c ⟨_, hc⟩
  rwa [hfree] at hreach

end Pitaya.Cluster.Lifecycle
