import Pitaya.Foundations.ByteString
import Pitaya.Foundations.Transition

/-!
# Hot reload of the remote configuration

`config/viper_config.go`: the configuration module reloads all loaders when it starts
(`AfterInit`), and then a supervisor watches the remote documents, compares the snapshot with the
last one whenever a watch is opened or a response arrives, and reloads all loaders if it has
changed.

* `Setup` — the loaders: what they provide, and which snapshots decode for them.
* `State`, `Op`, `step` — the module, the supervisor, the watcher of the current attempt, and
  calls of `AddLoader` and `stopWatch`, in any order.  `reloads` are the calls of `Reload` and
  `taken` the snapshots that were processed, since the module was started.
* `Consistent` — what is known at each point: the supervisor remembers the snapshot that was
  processed last, and while it waits that is the current one, or there is news on its way.

The snapshot is the one `SnapshotRemoteConfig` returns.  It changes when a watch is opened, which
reads the documents, and by the watcher, which sends a response for each change after it: a
change is `unannounced` until then.  `InitLoad` has read the first snapshot.  Loaders do not panic.
-/

namespace Pitaya.Config

open Transition List Option System

variable {D : Type}

/-! ## Loaders -/

/-- What `Provide` returns, with its key. -/
inductive Provided where
  /-- No struct. -/
  | nothing
  /-- "config loader must provide a non-nil pointer". -/
  | notPointer
  | pointer (key : Bytes)
  deriving DecidableEq, Repr

/-- The loaders.  `unmarshal` tells if a key of a snapshot decodes into the struct of the
loader; the empty key is the whole snapshot. -/
structure Setup (D : Type) where
  provide : ℕ → Provided
  unmarshal : ℕ → Bytes → D → Bool

/-- The snapshot decodes for the loader. -/
def Setup.decodes (cfg : Setup D) (loader : ℕ) (snapshot : D) : Bool :=
  match cfg.provide loader with
  | .nothing => false
  | .notPointer => false
  | .pointer key => cfg.unmarshal loader key snapshot

/-! ## State -/

/-- What the watcher sends. -/
inductive Response where
  | update
  /-- A response with an error. -/
  | error
  /-- A nil response, or the channel is closed. -/
  | closed
  deriving DecidableEq, Repr

/-- Where `AfterInit` is. -/
inductive AfterInit (D : Type) where
  | start
  /-- `reloadSnapshot`, with the loaders that are left. -/
  | reloading (snapshot : D) (todo : List ℕ)
  /-- Before `watch`. -/
  | reloaded
  | finished
  deriving DecidableEq

/-- Where `superviseWatch` is, with the variable `last`. -/
inductive Supervisor (D : Type) where
  /-- Not started. -/
  | idle
  /-- Before `last` is assigned. -/
  | start
  /-- The head of the loop. -/
  | check (last : D)
  /-- `WatchRemoteConfigWithChannel`, before it reads the documents. -/
  | opening (last : D)
  /-- `WatchRemoteConfigWithChannel`, after that. -/
  | opened (last : D)
  /-- After it has returned no error. -/
  | watching (last : D)
  | reloadChanged (last : D)
  /-- `reloadSnapshot`, with the loaders that are left. -/
  | reloading (last snapshot : D) (todo : List ℕ)
  /-- The `select`. -/
  | receive (last : D)
  /-- After an update. -/
  | received (last : D)
  /-- After the attempt, before `cancel`. -/
  | failed (last : D)
  /-- Waiting for the timer. -/
  | waiting (last : D)
  /-- It has returned, and `watchDone` is closed. -/
  | exited
  deriving DecidableEq

/-- The supervisor has its first snapshot.  Nothing changes it before: nobody watches. -/
def Supervisor.started : Supervisor D → Bool
  | .idle | .start => false
  | _ => true

/-- The supervisor is running. -/
def Supervisor.runs : Supervisor D → Bool
  | .idle | .exited => false
  | _ => true

theorem Supervisor.ne_idle {p : Supervisor D} (h : p.runs = true) : p ≠ .idle := by
  rintro rfl
  cases h

/-- There is a channel the watcher sends to. -/
def Supervisor.listens : Supervisor D → Bool
  | .opening _ | .opened _ | .watching _ | .reloadChanged _ | .reloading .. | .receive _
  | .received _ => true
  | _ => false

/-- `Config`, with its goroutines.  Calls of `stopWatch` are counted: before `cancel`, and
waiting for `watchDone`. -/
structure State (D : Type) where
  snapshot : D
  unannounced : ℕ := 0
  loaders : List ℕ := []
  reloads : List (ℕ × D) := []
  taken : List D := []
  afterInit : AfterInit D := .start
  supervisor : Supervisor D := .idle
  updates : List Response := []
  watchStopped : Bool := false
  /-- `watchCancel != nil`. -/
  watchCancel : Bool := false
  /-- `ctx.Err() != nil`. -/
  cancelled : Bool := false
  stopping : ℕ := 0
  draining : ℕ := 0
  /-- A call of `stopWatch` has returned. -/
  stopped : Bool := false

/-- How the supervisor goes on. -/
inductive Choice (D : Type) where
  | go
  /-- The documents are read. -/
  | read (snapshot : D)
  | fail
  /-- `<-ctx.Done()`. -/
  | done

/-- What happens. -/
inductive Op (D : Type) where
  | addLoader (loader : ℕ)
  | afterInit
  /-- A turn of the loop of `AfterInit`, or its end. -/
  | load
  /-- `watch`; `configured` tells if there are keys and endpoints. -/
  | watch (configured : Bool)
  | supervise (choice : Choice D)
  /-- A change becomes visible. -/
  | change (snapshot : D)
  | respond (response : Response)
  | stopWatch
  /-- `stopWatch`: the context is cancelled. -/
  | cancel
  /-- `stopWatch` returns. -/
  | stopReturns

/-! ## Steps -/

namespace State

variable (cfg : Setup D)

/-- One turn of the loop of `reloadSnapshot`. -/
def reload (s : State D) (snapshot : D) (loader : ℕ) : State D :=
  { s with
    reloads :=
      if cfg.decodes loader snapshot then s.reloads ++ [(loader, snapshot)] else s.reloads }

variable [DecidableEq D]

/-- One step of `superviseWatch`. -/
def supervise (s : State D) (choice : Choice D) : Option (State D) :=
  match s.supervisor, choice with
  | .start, .go => some { s with supervisor := .check s.snapshot }
  | .check last, .go =>
    if s.cancelled then some { s with supervisor := .exited }
    else some { s with supervisor := .opening last, updates := [] }
  | .opening last, .read snapshot =>
    some { s with supervisor := .opened last, snapshot, unannounced := 0 }
  | .opening last, .fail => some { s with supervisor := .failed last }
  | .opened last, .go => some { s with supervisor := .watching last }
  | .opened last, .fail => some { s with supervisor := .failed last }
  | .watching last, .go =>
    some { s with supervisor := if s.cancelled then .failed last else .reloadChanged last }
  | .reloadChanged last, .go =>
    if s.snapshot = last then some { s with supervisor := .receive last }
    else
      some { s with
        supervisor := .reloading last s.snapshot s.loaders
        taken := s.taken ++ [s.snapshot] }
  | .reloading last snapshot (loader :: todo), .go =>
    some { s.reload cfg snapshot loader with supervisor := .reloading last snapshot todo }
  | .reloading _ snapshot [], .go => some { s with supervisor := .receive snapshot }
  | .receive last, .done =>
    if s.cancelled then some { s with supervisor := .failed last } else none
  | .receive last, .go =>
    match s.updates with
    | [] => none
    | .update :: updates => some { s with supervisor := .received last, updates }
    | .error :: updates => some { s with supervisor := .failed last, updates }
    | .closed :: updates => some { s with supervisor := .failed last, updates }
  | .received last, .go =>
    some { s with supervisor := if s.cancelled then .receive last else .reloadChanged last }
  | .failed last, .go =>
    some { s with supervisor := if s.cancelled then .exited else .waiting last }
  | .waiting last, .go => some { s with supervisor := .check last }
  | .waiting _, .done => if s.cancelled then some { s with supervisor := .exited } else none
  | _, _ => none

/-- One step. -/
def step (s : State D) : Op D → Option (State D)
  | .addLoader loader => some { s with loaders := s.loaders ++ [loader] }
  | .afterInit =>
    match s.afterInit with
    | .start =>
      some { s with
        afterInit := .reloading s.snapshot s.loaders
        taken := s.taken ++ [s.snapshot] }
    | _ => none
  | .load =>
    match s.afterInit with
    | .reloading snapshot (loader :: todo) =>
      some { s.reload cfg snapshot loader with afterInit := .reloading snapshot todo }
    | .reloading _ [] => some { s with afterInit := .reloaded }
    | _ => none
  | .watch configured =>
    match s.afterInit with
    | .reloaded =>
      if s.watchStopped || s.watchCancel || !configured then
        some { s with afterInit := .finished }
      else
        some { s with afterInit := .finished, watchCancel := true, supervisor := .start }
    | _ => none
  | .supervise choice => s.supervise cfg choice
  | .change snapshot =>
    if s.supervisor.started then
      some { s with snapshot, unannounced := s.unannounced + 1 }
    else none
  -- the channel has room for 20
  | .respond response =>
    if s.supervisor.listens ∧ s.updates.length < 20 then
      some { s with
        updates := s.updates ++ [response]
        unannounced := if response = .update then s.unannounced - 1 else s.unannounced }
    else none
  | .stopWatch =>
    if s.watchCancel then some { s with watchStopped := true, stopping := s.stopping + 1 }
    else some { s with watchStopped := true, stopped := true }
  | .cancel =>
    if 0 < s.stopping then
      some { s with
        cancelled := true, stopping := s.stopping - 1, draining := s.draining + 1 }
    else none
  | .stopReturns =>
    match s.supervisor with
    | .exited =>
      if 0 < s.draining then some { s with draining := s.draining - 1, stopped := true }
      else none
    | _ => none

end State

/-- All runs, from the first snapshot on. -/
def config [DecidableEq D] (cfg : Setup D) (first : D) : System (State D) (Op D) where
  start := { snapshot := first }
  step s op := s.step cfg op

/-! ## What is known at each point -/

/-- The snapshot is current, or there is news of it: a change without a response yet, or a
response that was not processed.  After `stopWatch` it does not matter. -/
def State.Fresh (s : State D) (snapshot : D) : Prop :=
  s.snapshot = snapshot ∨ 0 < s.unannounced ∨ s.updates ≠ [] ∨ s.cancelled = true

/-- Before the supervisor has its first snapshot, the snapshot that is processed is the current
one. -/
def AfterInit.Consistent (s : State D) : AfterInit D → Prop
  | .start => s.taken = [] ∧ s.reloads = []
  | .reloading snapshot _ => s.taken = [snapshot] ∧ s.snapshot = snapshot
  | .reloaded | .finished => s.taken = [s.snapshot]

/-- The variable `last` is the snapshot that was processed last. -/
def Supervisor.Consistent (s : State D) : Supervisor D → Prop
  | .idle => s.afterInit.Consistent s
  | .start => s.taken = [s.snapshot]
  | .reloading last snapshot _ =>
    (∃ earlier, s.taken = earlier ++ [last, snapshot]) ∧ snapshot ≠ last ∧ s.Fresh snapshot
  | .receive last => (∃ earlier, s.taken = earlier ++ [last]) ∧ s.Fresh last
  | .check last | .opening last | .opened last | .watching last | .reloadChanged last
  | .received last | .failed last | .waiting last => ∃ earlier, s.taken = earlier ++ [last]
  | .exited => True

/-- The invariant. -/
structure Consistent (s : State D) : Prop where
  supervisor : s.supervisor.Consistent s
  /-- The supervisor is started at the end of `AfterInit`. -/
  watchCancel : s.watchCancel = true ↔ s.supervisor ≠ .idle
  finished : s.supervisor ≠ .idle → s.afterInit = .finished
  /-- `stopWatch` returns when the supervisor has, or when it will never start. -/
  stopped : s.stopped = true → s.supervisor = .exited ∨ s.supervisor = .idle ∧ s.watchStopped = true

variable {cfg : Setup D} {s s' : State D}

theorem Supervisor.Consistent.mono {p : Supervisor D} (h : p.Consistent s)
    (taken : s'.taken = s.taken) (fresh : ∀ d, s.Fresh d → s'.Fresh d)
    (first : p.started = false → s'.snapshot = s.snapshot ∧ s'.afterInit = s.afterInit)
    (reloads : s'.reloads = s.reloads) : p.Consistent s' := by
  cases p with
  | idle =>
    obtain ⟨hsnapshot, hinit⟩ := first rfl
    have hbefore : s.afterInit.Consistent s := h
    show s'.afterInit.Consistent s'
    rw [hinit]
    unfold AfterInit.Consistent at hbefore ⊢
    rw [taken, hsnapshot, reloads]
    exact hbefore
  | start =>
    obtain ⟨hsnapshot, -⟩ := first rfl
    show s'.taken = [s'.snapshot]
    rw [taken, hsnapshot]
    exact h
  | reloading last snapshot =>
    obtain ⟨htaken, hne, hfresh⟩ := h
    exact ⟨taken ▸ htaken, hne, fresh snapshot hfresh⟩
  | receive last => exact ⟨taken ▸ h.1, fresh last h.2⟩
  | exited => trivial
  | _ =>
    obtain ⟨earlier, hearlier⟩ := h
    exact ⟨earlier, taken.trans hearlier⟩

theorem Consistent.mono (h : Consistent s) (supervisor : s'.supervisor = s.supervisor)
    (taken : s'.taken = s.taken) (reloads : s'.reloads = s.reloads)
    (fresh : ∀ d, s.Fresh d → s'.Fresh d)
    (snapshot : s.supervisor.started = false → s'.snapshot = s.snapshot)
    (afterInit : s'.afterInit = s.afterInit) (watchCancel : s'.watchCancel = s.watchCancel)
    (stopped : s'.stopped = true → s.supervisor = .exited ∨
      s.supervisor = .idle ∧ s'.watchStopped = true) : Consistent s' where
  supervisor := by
    rw [supervisor]
    exact h.supervisor.mono taken fresh (fun hfirst => ⟨snapshot hfirst, afterInit⟩) reloads
  watchCancel := by
    rw [watchCancel, supervisor]
    exact h.watchCancel
  finished := by
    rw [supervisor, afterInit]
    exact h.finished
  stopped := by
    rw [supervisor]
    exact stopped

theorem Consistent.start (first : D) : Consistent ({ snapshot := first } : State D) where
  supervisor := ⟨rfl, rfl⟩
  watchCancel := ⟨nofun, fun h => absurd rfl h⟩
  finished h := absurd rfl h
  stopped := nofun

theorem Consistent.init (h : Consistent s) (hinit : s.afterInit ≠ .finished) :
    s.supervisor = .idle ∧ s.afterInit.Consistent s := by
  have hidle : s.supervisor = .idle := by
    by_contra hne
    exact hinit (h.finished hne)
  have hconsistent := h.supervisor
  rw [hidle] at hconsistent
  exact ⟨hidle, hconsistent⟩

theorem Consistent.initialises (h : Consistent s) (hinit : s.afterInit ≠ .finished)
    (supervisor : s'.supervisor = s.supervisor) (consistent : s'.afterInit.Consistent s')
    (watchCancel : s'.watchCancel = s.watchCancel) (stopped : s'.stopped = s.stopped)
    (watchStopped : s'.watchStopped = s.watchStopped) : Consistent s' := by
  obtain ⟨hidle, -⟩ := h.init hinit
  refine ⟨?_, ?_, ?_, ?_⟩
  · rw [supervisor, hidle]
    exact consistent
  · rw [watchCancel, supervisor]
    exact h.watchCancel
  · rw [supervisor]
    exact fun hne => absurd hidle hne
  · rw [stopped, supervisor, watchStopped]
    exact h.stopped

theorem Consistent.moves (h : Consistent s) (runs : s.supervisor.runs = true)
    (going : s'.supervisor ≠ .idle) (supervisor : s'.supervisor.Consistent s')
    (afterInit : s'.afterInit = s.afterInit) (watchCancel : s'.watchCancel = s.watchCancel)
    (stopped : s'.stopped = s.stopped) : Consistent s' where
  supervisor := supervisor
  watchCancel := iff_of_true (watchCancel.trans (h.watchCancel.mpr (Supervisor.ne_idle runs))) going
  finished _ := afterInit.trans (h.finished (Supervisor.ne_idle runs))
  stopped hstopped := by
    rcases h.stopped (stopped.symm.trans hstopped) with hexited | ⟨hidle, -⟩
    · rw [hexited] at runs
      cases runs
    · rw [hidle] at runs
      cases runs

/-! ## What a loader is given -/

/-- The snapshot `AfterInit` is processing, and the loaders that are left. -/
def AfterInit.active : AfterInit D → Option (D × List ℕ)
  | .reloading snapshot todo => some (snapshot, todo)
  | _ => none

/-- The snapshot the supervisor is processing, and the loaders that are left. -/
def Supervisor.active : Supervisor D → Option (D × List ℕ)
  | .reloading _ snapshot todo => some (snapshot, todo)
  | _ => none

/-- The snapshot that is being processed, and the loaders that are left. -/
def State.active (s : State D) : Option (D × List ℕ) := s.afterInit.active.or s.supervisor.active

/-- The snapshot of the last call of `Reload` of a loader. -/
def State.lastDecode (s : State D) (loader : ℕ) : Option D :=
  ((s.reloads.filter fun r => r.1 = loader).getLast?).map Prod.snd

/-- The last of the snapshots that decodes for a loader. -/
def Setup.latest (cfg : Setup D) (loader : ℕ) (taken : List D) : Option D :=
  (taken.filter fun snapshot => cfg.decodes loader snapshot).getLast?

theorem Setup.latest_concat (loader : ℕ) (taken : List D) (snapshot : D) :
    cfg.latest loader (taken ++ [snapshot]) =
      if cfg.decodes loader snapshot then some snapshot else cfg.latest loader taken := by
  unfold Setup.latest
  cases hdecodes : cfg.decodes loader snapshot <;> simp [filter_append, hdecodes]

theorem State.lastDecode_reload (s : State D) (snapshot : D) (loader turn : ℕ) :
    (s.reload cfg snapshot turn).lastDecode loader =
      if turn = loader ∧ cfg.decodes loader snapshot = true then some snapshot
      else s.lastDecode loader := by
  unfold State.lastDecode State.reload
  by_cases hturn : turn = loader
  · subst hturn
    cases hdecodes : cfg.decodes turn snapshot <;> simp [filter_append]
  · cases hdecodes : cfg.decodes turn snapshot <;> simp [filter_append, hturn]

theorem Consistent.taken_of_active (h : Consistent s) {snapshot : D} {todo : List ℕ}
    (hactive : s.active = some (snapshot, todo)) : ∃ earlier, s.taken = earlier ++ [snapshot] := by
  unfold State.active at hactive
  cases hinit : s.afterInit with
  | reloading =>
    obtain ⟨-, hone⟩ := h.init (by rw [hinit]; nofun)
    rw [hinit] at hactive hone
    cases hactive
    exact ⟨[], hone.1⟩
  | _ =>
    rw [hinit] at hactive
    have hlast := h.supervisor
    cases hpoint : s.supervisor with
    | reloading last =>
      rw [hpoint] at hactive hlast
      cases hactive
      obtain ⟨⟨earlier, htaken⟩, -⟩ := hlast
      exact ⟨earlier ++ [last], htaken.trans (by simp)⟩
    | _ =>
      rw [hpoint] at hactive
      cases hactive

/-- What a step means for the loaders. -/
inductive Moves (cfg : Setup D) (s s' : State D) : Prop where
  | quiet (loaders : s.loaders ⊆ s'.loaders) (reloads : s'.reloads = s.reloads)
      (taken : s'.taken = s.taken) (active : s'.active = s.active)
  | begins {snapshot : D} (idle : s.active = none) (loaders : s'.loaders = s.loaders)
      (reloads : s'.reloads = s.reloads) (taken : s'.taken = s.taken ++ [snapshot])
      (active : s'.active = some (snapshot, s.loaders))
  | turn {snapshot : D} {loader : ℕ} {todo : List ℕ}
      (before : s.active = some (snapshot, loader :: todo)) (loaders : s'.loaders = s.loaders)
      (reloads : s'.reloads = (s.reload cfg snapshot loader).reloads)
      (taken : s'.taken = s.taken) (active : s'.active = some (snapshot, todo))
  | ends {snapshot : D} (before : s.active = some (snapshot, [])) (loaders : s'.loaders = s.loaders)
      (reloads : s'.reloads = s.reloads) (taken : s'.taken = s.taken) (active : s'.active = none)

variable [DecidableEq D]

/-- **What a step of the supervisor does.** -/
theorem Consistent.supervise (h : Consistent s) {choice : Choice D}
    (hstep : s.supervise cfg choice = some s') : Consistent s' ∧ Moves cfg s s' := by
  have hlast := h.supervisor
  have hactive (t : State D) (hruns : s.supervisor.runs = true) (ht : t.afterInit = s.afterInit) :
      t.active = t.supervisor.active := by
    rw [State.active, ht, h.finished (Supervisor.ne_idle hruns)]
    rfl
  -- the supervisor goes on, and the loaders are not concerned
  have hquiet {p q : Supervisor D} {snapshot : D} {unannounced : ℕ} {updates : List Response}
      (hpoint : s.supervisor = p) (hp : p.runs = true ∧ p.active = none)
      (hq : q ≠ .idle ∧ q.active = none)
      (consistent : p.Consistent s →
        q.Consistent { s with supervisor := q, snapshot, unannounced, updates }) :
      Consistent { s with supervisor := q, snapshot, unannounced, updates } ∧
        Moves cfg s { s with supervisor := q, snapshot, unannounced, updates } := by
    rw [hpoint] at hlast
    rw [← hpoint] at hp
    refine ⟨h.moves hp.1 hq.1 (consistent hlast) rfl rfl rfl,
      .quiet (List.Subset.refl _) rfl rfl ?_⟩
    rw [hactive s hp.1 rfl, hp.2]
    exact Eq.trans
      (hactive { s with supervisor := q, snapshot, unannounced, updates } hp.1 rfl) hq.2
  unfold State.supervise at hstep
  split at hstep
  case h_2 hpoint | h_14 hpoint =>
    split at hstep <;> cases hstep
    · exact hquiet hpoint ⟨rfl, rfl⟩ ⟨nofun, rfl⟩ fun _ => trivial
    · exact hquiet hpoint ⟨rfl, rfl⟩ ⟨nofun, rfl⟩ fun hlast => hlast
  case h_3 hpoint | h_4 hpoint | h_5 hpoint | h_6 hpoint | h_15 hpoint =>
    cases hstep
    exact hquiet hpoint ⟨rfl, rfl⟩ ⟨nofun, rfl⟩ fun hlast => hlast
  · next hpoint =>
    cases hstep
    exact hquiet hpoint ⟨rfl, rfl⟩ ⟨nofun, rfl⟩ fun hone => ⟨[], hone⟩
  · next hpoint =>
    split at hstep <;> cases hstep <;>
      exact hquiet hpoint ⟨rfl, rfl⟩ ⟨nofun, rfl⟩ fun hlast => hlast
  -- `reloadChanged`
  · next last hpoint =>
    split at hstep <;> cases hstep
    · next hsame => exact hquiet hpoint ⟨rfl, rfl⟩ ⟨nofun, rfl⟩ fun hlast => ⟨hlast, .inl hsame⟩
    · next hchanged =>
      rw [hpoint] at hlast
      have hruns : s.supervisor.runs = true := by rw [hpoint]; rfl
      obtain ⟨earlier, hearlier⟩ := hlast
      have htaken : s.taken ++ [s.snapshot] = earlier ++ [last, s.snapshot] := by
        rw [hearlier, append_assoc]
        rfl
      refine ⟨h.moves hruns nofun ⟨⟨earlier, htaken⟩, hchanged, .inl rfl⟩ rfl rfl rfl, ?_⟩
      refine .begins ?_ rfl rfl rfl (hactive _ hruns rfl)
      rw [hactive s hruns rfl, hpoint]
      rfl
  · next last snapshot loader todo hpoint =>
    cases hstep
    have hruns : s.supervisor.runs = true := by rw [hpoint]; rfl
    have hbefore : s.active = some (snapshot, loader :: todo) := by
      rw [hactive s hruns rfl, hpoint]
      rfl
    rw [hpoint] at hlast
    exact ⟨h.moves hruns nofun hlast rfl rfl rfl, .turn hbefore rfl rfl rfl (hactive _ hruns rfl)⟩
  · next last snapshot hpoint =>
    cases hstep
    have hruns : s.supervisor.runs = true := by rw [hpoint]; rfl
    have hbefore : s.active = some (snapshot, []) := by
      rw [hactive s hruns rfl, hpoint]
      rfl
    rw [hpoint] at hlast
    obtain ⟨⟨earlier, hearlier⟩, -, hfresh⟩ := hlast
    have htaken : s.taken = (earlier ++ [last]) ++ [snapshot] := by
      rw [hearlier, append_assoc]
      rfl
    exact ⟨h.moves hruns nofun ⟨⟨_, htaken⟩, hfresh⟩ rfl rfl rfl,
      .ends hbefore rfl rfl rfl (hactive _ hruns rfl)⟩
  -- the `select`
  · next hpoint =>
    obtain ⟨-, ⟨⟩⟩ := ite_none_right_eq_some.mp hstep
    exact hquiet hpoint ⟨rfl, rfl⟩ ⟨nofun, rfl⟩ And.left
  · next hpoint =>
    split at hstep <;> cases hstep <;> exact hquiet hpoint ⟨rfl, rfl⟩ ⟨nofun, rfl⟩ And.left
  · next hpoint =>
    split at hstep <;> cases hstep
    -- a response that is dropped: the context is cancelled
    · next hcancelled =>
      exact hquiet hpoint ⟨rfl, rfl⟩ ⟨nofun, rfl⟩ fun hlast =>
        ⟨hlast, .inr (.inr (.inr hcancelled))⟩
    · exact hquiet hpoint ⟨rfl, rfl⟩ ⟨nofun, rfl⟩ fun hlast => hlast
  · next hpoint =>
    obtain ⟨-, ⟨⟩⟩ := ite_none_right_eq_some.mp hstep
    exact hquiet hpoint ⟨rfl, rfl⟩ ⟨nofun, rfl⟩ fun _ => trivial
  · cases hstep

/-- **What a step does.** -/
theorem Consistent.step (h : Consistent s) {op : Op D} (hstep : s.step cfg op = some s') :
    Consistent s' ∧ Moves cfg s s' := by
  cases op with
  | addLoader =>
    cases hstep
    exact ⟨h.mono rfl rfl rfl (fun _ => id) (fun _ => rfl) rfl rfl h.stopped,
      .quiet (subset_append_left _ _) rfl rfl rfl⟩
  | afterInit =>
    dsimp only [State.step] at hstep
    split at hstep
    · next hinit =>
      cases hstep
      have hne : s.afterInit ≠ .finished := by rw [hinit]; nofun
      obtain ⟨hidle, hnone⟩ := h.init hne
      rw [hinit] at hnone
      refine ⟨h.initialises hne rfl ⟨congrArg (· ++ [s.snapshot]) hnone.1, rfl⟩ rfl rfl rfl,
        .begins ?_ rfl rfl rfl rfl⟩
      rw [State.active, hinit, hidle]
      rfl
    · cases hstep
  | load =>
    dsimp only [State.step] at hstep
    split at hstep
    · next snapshot loader todo hinit =>
      cases hstep
      have hne : s.afterInit ≠ .finished := by rw [hinit]; nofun
      obtain ⟨-, hone⟩ := h.init hne
      rw [hinit] at hone
      refine ⟨h.initialises hne rfl hone rfl rfl rfl, .turn ?_ rfl rfl rfl rfl⟩
      rw [State.active, hinit]
      rfl
    · next snapshot hinit =>
      cases hstep
      have hne : s.afterInit ≠ .finished := by rw [hinit]; nofun
      obtain ⟨hidle, hone⟩ := h.init hne
      rw [hinit] at hone
      have htaken : s.taken = [s.snapshot] := by rw [hone.1, hone.2]
      refine ⟨h.initialises hne rfl htaken rfl rfl rfl,
        .ends (?_ : _ = some (snapshot, [])) rfl rfl rfl ?_⟩
      · rw [State.active, hinit]
        rfl
      · rw [State.active, hidle]
        rfl
    · cases hstep
  | watch =>
    dsimp only [State.step] at hstep
    split at hstep
    · next hinit =>
      have hne : s.afterInit ≠ .finished := by rw [hinit]; nofun
      obtain ⟨hidle, hone⟩ := h.init hne
      have hactive : s.active = none := by
        rw [State.active, hinit, hidle]
        rfl
      rw [hinit] at hone
      split at hstep <;> cases hstep
      · refine ⟨h.initialises hne rfl hone rfl rfl rfl, .quiet (List.Subset.refl _) rfl rfl ?_⟩
        rw [hactive, State.active, hidle]
        rfl
      · next hgoes =>
        refine ⟨⟨hone, iff_of_true rfl nofun, fun _ => rfl, fun hstopped => ?_⟩,
          .quiet (List.Subset.refl _) rfl rfl hactive.symm⟩
        rcases h.stopped hstopped with hexited | ⟨-, hstop⟩
        · cases hidle.symm.trans hexited
        · simp [hstop] at hgoes
    · cases hstep
  | supervise => exact h.supervise hstep
  | change =>
    obtain ⟨hstarted, ⟨⟩⟩ := ite_none_right_eq_some.mp hstep
    refine ⟨h.mono rfl rfl rfl (fun _ _ => .inr (.inl (Nat.succ_pos _))) (fun hfirst => ?_) rfl rfl
      h.stopped, .quiet (List.Subset.refl _) rfl rfl rfl⟩
    cases hfirst.symm.trans hstarted
  | respond =>
    obtain ⟨-, ⟨⟩⟩ := ite_none_right_eq_some.mp hstep
    exact ⟨h.mono rfl rfl rfl (fun _ _ => .inr (.inr (.inl (by simp)))) (fun _ => rfl) rfl rfl
      h.stopped, .quiet (List.Subset.refl _) rfl rfl rfl⟩
  | stopWatch =>
    dsimp only [State.step] at hstep
    split at hstep <;> cases hstep
    · exact ⟨h.mono rfl rfl rfl (fun _ => id) (fun _ => rfl) rfl rfl fun hstopped =>
        (h.stopped hstopped).imp_right fun hidle => ⟨hidle.1, rfl⟩,
        .quiet (List.Subset.refl _) rfl rfl rfl⟩
    · next hnone =>
      have hidle : s.supervisor = .idle := by
        by_contra hne
        exact hnone (h.watchCancel.mpr hne)
      exact ⟨h.mono rfl rfl rfl (fun _ => id) (fun _ => rfl) rfl rfl fun _ => .inr ⟨hidle, rfl⟩,
        .quiet (List.Subset.refl _) rfl rfl rfl⟩
  | cancel =>
    obtain ⟨-, ⟨⟩⟩ := ite_none_right_eq_some.mp hstep
    exact ⟨h.mono rfl rfl rfl (fun _ _ => .inr (.inr (.inr rfl))) (fun _ => rfl) rfl rfl h.stopped,
      .quiet (List.Subset.refl _) rfl rfl rfl⟩
  | stopReturns =>
    dsimp only [State.step] at hstep
    split at hstep
    · next hexited =>
      obtain ⟨-, ⟨⟩⟩ := ite_none_right_eq_some.mp hstep
      exact ⟨h.mono rfl rfl rfl (fun _ => id) (fun _ => rfl) rfl rfl fun _ => .inl hexited,
        .quiet (List.Subset.refl _) rfl rfl rfl⟩
    · cases hstep

theorem consistent {first : D} {ops : List (Op D)} (hrun : (config cfg first).run ops = some s) :
    Consistent s :=
  run_induction (P := fun _ s => Consistent s) (.start first)
    (fun _ _ _ _ _ h hstep => (h.step hstep).1) hrun

/-- The loader was given the last snapshot that decodes for it, or its turn is still to come. -/
structure Synced (cfg : Setup D) (loader : ℕ) (s : State D) : Prop where
  registered : loader ∈ s.loaders
  given : s.lastDecode loader = cfg.latest loader s.taken ∨
    ∃ snapshot todo earlier, s.active = some (snapshot, todo) ∧ loader ∈ todo ∧
      s.taken = earlier ++ [snapshot] ∧ s.lastDecode loader = cfg.latest loader earlier

omit [DecidableEq D] in
theorem State.lastDecode_eq {t : State D} (h : t.reloads = s.reloads) (loader : ℕ) :
    t.lastDecode loader = s.lastDecode loader := by
  rw [State.lastDecode, State.lastDecode, h]

omit [DecidableEq D] in
theorem Synced.moves {loader : ℕ} (h : Synced cfg loader s) (hconsistent : Consistent s)
    (hmoves : Moves cfg s s') : Synced cfg loader s' := by
  cases hmoves with
  | quiet loaders reloads taken active =>
    refine ⟨loaders h.registered, ?_⟩
    rw [State.lastDecode_eq reloads, taken, active]
    exact h.given
  | @begins snapshot idle loaders reloads taken active =>
    refine ⟨loaders ▸ h.registered, .inr ⟨snapshot, s.loaders, s.taken, active, h.registered,
      taken, ?_⟩⟩
    rw [State.lastDecode_eq reloads]
    rcases h.given with hgiven | ⟨_, _, _, hactive, -⟩
    · exact hgiven
    · cases idle.symm.trans hactive
  | @turn snapshot turn todo before loaders reloads taken active =>
    refine ⟨loaders ▸ h.registered, ?_⟩
    rw [State.lastDecode_eq reloads, State.lastDecode_reload, taken, active]
    rcases h.given with hgiven | ⟨_, _, earlier, hactive, hturn, htaken, hgiven⟩
    · left
      split
      · next hdecodes =>
        obtain ⟨earlier, htaken⟩ := hconsistent.taken_of_active before
        rw [htaken, Setup.latest_concat, if_pos hdecodes.2]
      · exact hgiven
    · cases before.symm.trans hactive
      by_cases heq : turn = loader
      -- the turn of the loader has come
      · left
        rw [htaken, Setup.latest_concat, hgiven]
        simp [heq]
      · right
        rw [if_neg fun hdecodes => heq hdecodes.1]
        exact ⟨snapshot, todo, earlier, rfl, mem_of_ne_of_mem (Ne.symm heq) hturn, htaken, hgiven⟩
  | ends before loaders reloads taken =>
    refine ⟨loaders ▸ h.registered, .inl ?_⟩
    rw [State.lastDecode_eq reloads, taken]
    rcases h.given with hgiven | ⟨_, _, _, hactive, hturn, -⟩
    · exact hgiven
    · cases before.symm.trans hactive
      cases hturn

/-- From the start of the module on, the loaders that are registered then are synchronised. -/
theorem synced {first : D} {before after : List (Op D)} {s₀ : State D} {loader : ℕ}
    (hbefore : (config cfg first).run before = some s₀) (hloader : loader ∈ s₀.loaders)
    (hrun : (config cfg first).run (before ++ .afterInit :: after) = some s) :
    Synced cfg loader s := by
  apply run_induction_since ?_ ?_ hrun
  · intro s s₁ hs hstep
    obtain rfl := some.inj (hbefore.symm.trans hs)
    have hstep : s₀.step cfg .afterInit = some s₁ := hstep
    dsimp only [State.step] at hstep
    split at hstep
    · next hstart =>
      cases hstep
      obtain ⟨-, hnone⟩ := (consistent hbefore).init (by rw [hstart]; nofun)
      rw [hstart] at hnone
      refine ⟨hloader, .inr ⟨_, _, s₀.taken, rfl, hloader, rfl, ?_⟩⟩
      show s₀.lastDecode loader = cfg.latest loader s₀.taken
      rw [State.lastDecode, hnone.1, hnone.2]
      rfl
    · cases hstep
  · intro after op s s' hrun h hstep
    exact h.moves (consistent hrun) ((consistent hrun).step hstep).2

/-! ## The result -/

/-- The watch is live, and everything that was announced is processed. -/
structure Processed (s : State D) : Prop where
  live : ∃ last, s.supervisor = .receive last
  notCancelled : s.cancelled = false
  updates : s.updates = []
  announced : s.unannounced = 0

/-- The last decode of the loader is of the current snapshot, or of the latest one that decodes
for it. -/
structure Converged (cfg : Setup D) (loader : ℕ) (s : State D) : Prop where
  current : cfg.decodes loader s.snapshot = true → s.lastDecode loader = some s.snapshot
  otherwise : cfg.decodes loader s.snapshot = false →
    s.lastDecode loader = cfg.latest loader s.taken

/-- **Hot reload converges.**  In every run:

* when everything that was announced is processed on a live watch, the loaders that were
  registered when the module was started have the current snapshot;
* the supervisor only reloads a snapshot that differs from the one before;
* it reloads nothing once `stopWatch` has returned. -/
theorem hot_reload (cfg : Setup D) (first : D) (before after : List (Op D)) (s₀ s : State D)
    (hbefore : (config cfg first).run before = some s₀)
    (hrun : (config cfg first).run (before ++ .afterInit :: after) = some s) :
    (Processed s → ∀ loader ∈ s₀.loaders, Converged cfg loader s) ∧
      (∀ last snapshot todo, s.supervisor = .reloading last snapshot todo →
        snapshot ≠ last ∧ ∃ earlier, s.taken = earlier ++ [last, snapshot]) ∧
      (s.stopped = true → ∀ last snapshot todo, s.supervisor ≠ .reloading last snapshot todo) := by
  have hconsistent := consistent hrun
  have hsupervisor := hconsistent.supervisor
  refine ⟨fun hprocessed loader hloader => ?_, fun last snapshot todo hpoint => ?_,
    fun hstopped last snapshot todo hpoint => ?_⟩
  · obtain ⟨last, hlive⟩ := hprocessed.live
    rw [hlive] at hsupervisor
    obtain ⟨⟨earlier, htaken⟩, hfresh⟩ := hsupervisor
    obtain rfl : s.snapshot = last := by
      rcases hfresh with hsame | hnews | hnews | hcancelled
      · exact hsame
      · exact absurd hprocessed.announced (Nat.ne_of_gt hnews)
      · exact absurd hprocessed.updates hnews
      · cases hprocessed.notCancelled.symm.trans hcancelled
    have hgiven : s.lastDecode loader = cfg.latest loader s.taken := by
      rcases (synced hbefore hloader hrun).given with hgiven | ⟨_, _, _, hactive, -⟩
      · exact hgiven
      · rw [State.active, hconsistent.finished (by rw [hlive]; nofun), hlive] at hactive
        cases hactive
    refine ⟨fun hdecodes => ?_, fun _ => hgiven⟩
    rw [hgiven, htaken, Setup.latest_concat, if_pos hdecodes]
  · rw [hpoint] at hsupervisor
    exact ⟨hsupervisor.2.1, hsupervisor.1⟩
  · rcases hconsistent.stopped hstopped with hexited | ⟨hidle, -⟩
    · cases hexited.symm.trans hpoint
    · cases hidle.symm.trans hpoint

/-! ## The log of the reloads -/

/-- The calls of `Reload` for one snapshot. -/
def Setup.round (cfg : Setup D) (snapshot : D) (loaders : List ℕ) : List (ℕ × D) :=
  (loaders.filter fun loader => cfg.decodes loader snapshot).map fun loader => (loader, snapshot)

/-- The calls that are left for the snapshot that is being processed. -/
def State.remaining (cfg : Setup D) (s : State D) : List (ℕ × D) :=
  s.active.elim [] fun round => cfg.round round.1 round.2

/-- The log is made of rounds, the last of which may be under way: one for every snapshot that was
taken, in that order, with the loaders that were registered when it was. -/
structure InRounds (cfg : Setup D) (s : State D) (rounds : List (D × List ℕ)) : Prop where
  taken : rounds.map Prod.fst = s.taken
  grow : rounds.Pairwise fun r r' => r.2 <+: r'.2
  registered : ∀ r ∈ rounds, r.2 <+: s.loaders
  reloads : s.reloads ++ s.remaining cfg = rounds.flatMap fun r => cfg.round r.1 r.2

theorem State.step_loaders {op : Op D} (h : s.step cfg op = some s') :
    s.loaders <+: s'.loaders := by
  cases op with
  | addLoader =>
    cases h
    exact prefix_append _ _
  | _ =>
    dsimp only [State.step, State.supervise] at h
    repeat' split at h
    all_goals cases h
    all_goals exact prefix_rfl

omit [DecidableEq D] in
theorem InRounds.moves {rounds : List (D × List ℕ)} (h : InRounds cfg s rounds)
    (hmoves : Moves cfg s s') (hloaders : s.loaders <+: s'.loaders) :
    ∃ rounds', InRounds cfg s' rounds' := by
  have hregistered (r) (hr : r ∈ rounds) := (h.registered r hr).trans hloaders
  have hreloads := h.reloads
  unfold State.remaining at hreloads
  cases hmoves with
  | quiet _ reloads taken active =>
    refine ⟨rounds, h.taken.trans taken.symm, h.grow, hregistered, ?_⟩
    rw [reloads, State.remaining, active]
    exact hreloads
  | @begins snapshot idle loaders reloads taken active =>
    refine ⟨rounds ++ [(snapshot, s.loaders)], ?_, ?_, ?_, ?_⟩
    · rw [map_append, h.taken, taken]
      rfl
    · refine pairwise_append.mpr ⟨h.grow, pairwise_singleton _ _, fun r hr r' hr' => ?_⟩
      obtain rfl := mem_singleton.mp hr'
      exact h.registered r hr
    · exact forall_mem_append.mpr ⟨hregistered, forall_mem_singleton.mpr hloaders⟩
    · rw [idle] at hreloads
      simp only [elim_none, append_nil] at hreloads
      simp [State.remaining, active, reloads, hreloads]
  | @turn snapshot loader todo before _ reloads taken active =>
    refine ⟨rounds, h.taken.trans taken.symm, h.grow, hregistered, ?_⟩
    rw [← hreloads, State.remaining, before, active, reloads, State.reload]
    cases hdecodes : cfg.decodes loader snapshot <;> simp [Setup.round, hdecodes]
  | ends before _ reloads taken active =>
    refine ⟨rounds, h.taken.trans taken.symm, h.grow, hregistered, ?_⟩
    rw [← hreloads, State.remaining, before, active, reloads]
    rfl

/-- **No reload is lost or made twice.**  In every run, whatever changes, fails or is stopped
meanwhile, the log of all calls of `Reload` is made of rounds, each of the loaders in the order in
which they were registered. -/
theorem reloads_in_rounds (cfg : Setup D) (first : D) (ops : List (Op D)) (s : State D)
    (hrun : (config cfg first).run ops = some s) : ∃ rounds, InRounds cfg s rounds := by
  apply run_induction ?_ ?_ hrun
  · exact ⟨[], rfl, .nil, nofun, rfl⟩
  · rintro ops op s s' hrun ⟨rounds, h⟩ hstep
    exact h.moves ((consistent hrun).step hstep).2 (State.step_loaders hstep)

/-! ## Runs -/

/-- Loaders of the whole snapshot, a number; 2 does not decode. -/
def numbers : Setup ℕ where
  provide _ := .pointer []
  unmarshal _ _ snapshot := snapshot ≠ 2

/-- The watch is started and opened, and finds the first snapshot. -/
def opens : List (Op ℕ) :=
  [.supervise .go, .supervise .go, .supervise (.read 0), .supervise .go, .supervise .go,
    .supervise .go]

/-- A change and its response, which is processed for one loader. -/
def changes (snapshot : ℕ) : List (Op ℕ) :=
  [.change snapshot, .respond .update, .supervise .go, .supervise .go, .supervise .go,
    .supervise .go, .supervise .go]

/-- The supervisor waits for a response, and there is none. -/
def waits (last : ℕ) (s : State ℕ) : Bool :=
  decide (s.supervisor = .receive last ∧ s.cancelled = false ∧ s.updates = [] ∧ s.unannounced = 0 ∧
    s.snapshot = last)

theorem processed_of_waits {last : ℕ} {s : State ℕ} (h : waits last s = true) :
    Processed s ∧ s.snapshot = last := by
  obtain ⟨hlive, hcancelled, hupdates, hannounced, hsnapshot⟩ := of_decide_eq_true h
  exact ⟨⟨⟨last, hlive⟩, hcancelled, hupdates, hannounced⟩, hsnapshot⟩

/-- The document changes and changes back. -/
theorem hot_reload_back : ∃ s, (config numbers 0).run ([.addLoader 7] ++ .afterInit ::
      ([.load, .load, .watch true] ++ opens ++ changes 1 ++ changes 0)) = some s ∧
    s.lastDecode 7 = some 0 ∧ waits 0 s := by
  refine reaches_and (by decide +kernel) fun s hs hwaits => ?_
  obtain ⟨hprocessed, hsnapshot⟩ := processed_of_waits hwaits
  obtain ⟨hconverged, -⟩ := hot_reload numbers 0 [.addLoader 7] _ _ s rfl hs
  rw [← hsnapshot]
  exact (hconverged hprocessed 7 List.mem_cons_self).current (by rw [hsnapshot]; rfl)

/-- Loader 8 is registered after the first of three rounds. -/
theorem reloads_in_rounds_back : ∃ s,
    (config numbers 0).run ([.addLoader 7, .afterInit, .load, .load, .watch true] ++ opens ++
      .addLoader 8 :: changes 1 ++ .supervise .go :: changes 0) = some s ∧
    (∃ rounds, InRounds numbers s rounds) ∧
    s.reloads = [(7, 0), (7, 1), (8, 1), (7, 0), (8, 0)] :=
  reaches_and (by decide +kernel) fun s hs _ => reloads_in_rounds numbers 0 _ s hs

/-- A loader that is registered after `AfterInit` has reloaded the loaders, and before `watch`, is
not given the snapshot. -/
theorem registered_too_late : ∃ s₀ s,
    (config numbers 0).run [.afterInit, .load, .addLoader 7] = some s₀ ∧ 7 ∈ s₀.loaders ∧
    (config numbers 0).run ([.afterInit, .load, .addLoader 7] ++ .watch true :: opens) = some s ∧
    Processed s ∧ numbers.decodes 7 s.snapshot = true ∧ s.lastDecode 7 = none := by
  obtain ⟨s, hs, hwaits, hnone⟩ : ∃ s, (config numbers 0).run
      ([.afterInit, .load, .addLoader 7] ++ .watch true :: opens) = some s ∧ waits 0 s ∧
      s.lastDecode 7 = none := by
    decide +kernel
  obtain ⟨hprocessed, hsnapshot⟩ := processed_of_waits hwaits
  refine ⟨_, s, rfl, List.mem_cons_self, hs, hprocessed, ?_, hnone⟩
  rw [hsnapshot]
  rfl

end Pitaya.Config
