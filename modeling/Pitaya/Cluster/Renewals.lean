import Mathlib.Data.Multiset.Count
import Pitaya.Foundations.Threads

/-!
# Leases of a service discovery

`cluster/etcd_service_discovery.go`: the server keeps its key in etcd under a lease.  A loop
`watchLeaseChan` reads the keep-alive responses of one lease, and when they stop it renews: it
calls `renewLease` until that succeeds, fails for good or times out, and returns.

`renewLease` has a goroutine of its own, which goes on after a timeout.  It gets a new lease, starts
to keep it alive and starts the loop that watches it (`grantLease`), and then it puts the
server under the new lease and reads the other servers (`bootstrapServer`).  `bootstrap`, which
`Init` calls, does the same, with the election in between.

* `Shared` — the field `leaseID`, the functions handed to `co.Go` that have not started, what was
  sent on the channels of `renewLease`, and what etcd has.
* `Point`, `step` — one statement of one goroutine.  Etcd grants fresh leases; whether a request
  succeeds, when a keep-alive is lost and when a timer fires is left open.

Every renewal starts a loop before the requests that may still fail.  When they fail the loop that
renews tries again, and starts another one (`two_loops`).  `oneLease_of_meets` is the case
in which requests made after the start of a loop succeed.
-/

namespace Pitaya.Cluster.Renewals

open Threads Option Program

/-! ## Goroutines -/

/-- The configuration that the loops read. -/
structure Settings where
  grantLeaseMaxRetries : ℤ
  electionEnable : Bool := false

/-- The statement a goroutine is at.  A `caller` is the channel on which `renewLease` waits;
it is `none` in `bootstrap`. -/
inductive Point where
  /-- A goroutine of the pool that has nothing to do. -/
  | idle
  /-- The select of `watchLeaseChan` on the responses for `lease`. -/
  | watching (lease failedGrantLeaseAttempts : ℕ)
  /-- `watchLeaseChan` calls `renewLease`. -/
  | renewLease (failedGrantLeaseAttempts : ℕ)
  /-- The select of `renewLease` on its channel. -/
  | waiting (channel failedGrantLeaseAttempts : ℕ)
  /-- `cli.Grant`. -/
  | grant (caller : Option ℕ)
  /-- `cli.KeepAlive`. -/
  | keepAlive (caller : Option ℕ)
  /-- `runElection`. -/
  | election
  /-- The `cli.Put` of `addServerIntoEtcd`. -/
  | put (caller : Option ℕ)
  | syncServers (caller : Option ℕ)
  /-- A call of `Shutdown`. -/
  | shutdown
  /-- A call of `revoke`. -/
  | revoke
  /-- The `cli.Revoke` of `revoke`. -/
  | revoking
  deriving DecidableEq

/-- A function handed to `co.Go`. -/
inductive Task where
  | watchLeaseChan (lease : ℕ)
  | renew (channel : ℕ)
  | revoke
  deriving DecidableEq

/-- Where the goroutine that takes a task starts. -/
def Task.point : Task → Point
  | .watchLeaseChan lease => .watching lease 0
  | .renew channel => .grant (some channel)
  | .revoke => .revoking

/-- How a statement goes on. -/
inductive Choice where
  | go
  | fail
  /-- A task is taken from the queue of the pool. -/
  | take (task : Task)
  /-- A keep-alive response. -/
  | response
  /-- A nil response, or the channel is closed. -/
  | lost
  /-- `stopChan` or `stopLeaseChan`. -/
  | stop
  /-- The result of `renewLease`. -/
  | result (failed : Bool)
  /-- `grantLeaseTimeout` is over. -/
  | timeout
  deriving DecidableEq

/-- What the goroutines share. -/
structure Shared where
  /-- `sd.leaseID`, 0 before the first lease. -/
  leaseID : ℕ := 0
  tasks : Multiset Task := 0
  /-- Results of renewals that were not received, by channel. -/
  results : Multiset (ℕ × Bool) := 0
  /-- The channels that were made. -/
  channels : ℕ := 0
  /-- `stopChan` or `stopLeaseChan` is closed. -/
  stopped : Bool := false
  /-- The application was told to die. -/
  appDie : Bool := false
  /-- The leases etcd has granted are those up to this one. -/
  granted : ℕ := 0
  /-- The lease of the server's key in etcd. -/
  registered : Option ℕ := none
  /-- The lease that was released. -/
  revoked : Option ℕ := none

/-- The function of a renewal, or `bootstrap`, returns. -/
def Shared.answer (s : Shared) : Option ℕ → Bool → Shared
  | none, _ => s
  | some channel, failed => { s with results := (channel, failed) ::ₘ s.results }

/-- One statement. -/
def step (sd : Settings) (s : Shared) : Point → Choice → Option (Shared × Option Point)
  | .idle, .take task =>
    if task ∈ s.tasks then some ({ s with tasks := s.tasks.erase task }, some task.point) else none
  -- watchLeaseChan
  | .watching _ _, .stop => if s.stopped then some (s, none) else none
  | .watching lease _, .response => some (s, some (.watching lease 0))
  | .watching _ attempts, .lost => some (s, some (.renewLease attempts))
  | .renewLease attempts, .go =>
    some ({ s with channels := s.channels + 1, tasks := .renew s.channels ::ₘ s.tasks },
      some (.waiting s.channels attempts))
  | .waiting channel attempts, .result failed =>
    if (channel, failed) ∈ s.results then
      let s := { s with results := s.results.erase (channel, failed) }
      if failed then
        if sd.grantLeaseMaxRetries ≤ (attempts : ℤ) + 1 then some ({ s with appDie := true }, none)
        else some (s, some (.renewLease (attempts + 1)))
      else some (s, none)
    else none
  | .waiting _ _, .timeout => some ({ s with appDie := true }, none)
  -- grantLease
  | .grant caller, .go =>
    some ({ s with leaseID := s.granted + 1, granted := s.granted + 1 }, some (.keepAlive caller))
  | .grant caller, .fail => some (s.answer caller true, none)
  | .keepAlive caller, .go =>
    some ({ s with tasks := .watchLeaseChan s.leaseID ::ₘ s.tasks },
      some (if caller = none ∧ sd.electionEnable = true then .election else .put caller))
  | .keepAlive caller, .fail => some (s.answer caller true, none)
  -- bootstrap
  | .election, .go => some (s, some (.put none))
  | .election, .fail => some (s, none)
  -- bootstrapServer
  | .put caller, .go => some ({ s with registered := some s.leaseID }, some (.syncServers caller))
  | .put caller, .fail => some (s.answer caller true, none)
  | .syncServers caller, .go => some (s.answer caller false, none)
  | .syncServers caller, .fail => some (s.answer caller true, none)
  | .shutdown, .go => some ({ s with stopped := true }, none)
  | .revoke, .go => some ({ s with stopped := true, tasks := .revoke ::ₘ s.tasks }, none)
  | .revoking, .go => some ({ s with revoked := some s.leaseID }, none)
  | .revoking, .fail => some (s, none)
  | _, _ => none

/-- A service discovery from the call of `bootstrap` on. -/
def renewals (sd : Settings) : Program Shared Point Choice where
  start := {}
  main := {.grant none}
  entry
    | .idle | .shutdown | .revoke => true
    | _ => false
  step := step sd

/-! ## Loops and renewals -/

/-- The lease that a loop watches. -/
def Point.lease : Point → Option ℕ
  | .watching lease _ => some lease
  | _ => none

/-- The goroutine renews a lease or waits for a renewal, or is in `bootstrap`. -/
def Point.renewing : Point → Bool
  | .renewLease _ | .waiting _ _ | .grant _ | .keepAlive _ | .election | .put _
  | .syncServers _ => true
  | _ => false

/-- The goroutine has started a loop, and has not returned. -/
def Point.started : Point → Bool
  | .election | .put _ | .syncServers _ => true
  | _ => false

/-- The leases of the loops that run, or have been handed to `co.Go`. -/
def leases (c : Threads.Config Shared Point) : Multiset ℕ :=
  c.shared.tasks.filterMap (fun task => task.point.lease) + c.threads.filterMap Point.lease

/-- A renewal is in progress. -/
def Renewing (c : Threads.Config Shared Point) : Prop :=
  (∃ p ∈ c.threads, p.renewing = true) ∨ ∃ task ∈ c.shared.tasks, task.point.renewing = true

instance (c : Threads.Config Shared Point) : Decidable (Renewing c) :=
  @instDecidableOr _ _ Multiset.decidableExistsMultiset Multiset.decidableExistsMultiset

/-- **One loop at most, on the lease that has the server and that `revoke` releases.** -/
def OneLease (sd : Settings) (c : Threads.Config Shared Point) : Prop :=
  ¬ Renewing c →
    (leases c).card ≤ 1 ∧ ∀ lease ∈ leases c,
      c.shared.leaseID = lease ∧ c.shared.registered = some lease ∧
        ∀ s' p', step sd c.shared .revoking .go = some (s', p') → s'.revoked = some lease

/-- What is requested after a loop has started succeeds. -/
def Succeeds (_ : Threads.Config Shared Point) (e : Event Point Choice) : Prop :=
  match e with
  | .run p choice => p.started = true → choice ≠ .fail
  | .call _ => True

instance (c : Threads.Config Shared Point) : ∀ e, Decidable (Succeeds c e)
  | .run _ _ => inferInstanceAs (Decidable (_ → _))
  | .call _ => inferInstanceAs (Decidable True)

/-! ## What a step does -/

/-- Who keeps the lease or will see to a new one: a loop, a renewal that has not started
another loop, or the result of one that failed. -/
def Point.load : Point → ℕ
  | .watching _ _ | .renewLease _ | .grant _ | .keepAlive _ => 1
  | _ => 0

def Shared.load (s : Shared) : ℕ :=
  Program.total (fun task : Task => task.point.load) s.tasks + s.results.countP fun r => r.2 = true

/-- The goroutine has started a loop, and the server is not under its lease. -/
def Point.enlisting : Point → Bool
  | .election | .put _ => true
  | _ => false

/-- The leases of the loops that have not started, and of the loop at a point. -/
def held (s : Shared) (p : Option Point) : Multiset ℕ :=
  rejoin (p.bind Point.lease) (s.tasks.filterMap fun task => task.point.lease)

theorem leases_rejoin (s : Shared) (p : Option Point) (rest : Multiset Point) :
    leases ⟨s, rejoin p rest⟩ = held s p + rest.filterMap Point.lease := by
  dsimp only [leases, held]
  rw [filterMap_rejoin]
  cases p.bind Point.lease with
  | none => rfl
  | some =>
    dsimp only [rejoin]
    rw [Multiset.add_cons, Multiset.cons_add]

theorem leases_cons {s : Shared} {p : Point} {rest : Multiset Point} (h : p.lease = none) :
    leases ⟨s, p ::ₘ rest⟩ = leases ⟨s, rest⟩ := by
  dsimp only [leases]
  rw [filterMap_cons, h]
  rfl

/-- A statement that starts no loop and leaves the lease and the registration alone. -/
structure Quiet (s : Shared) (p : Point) (s' : Shared) (p' : Option Point) : Prop where
  leaseID : s'.leaseID = s.leaseID
  registered : s'.registered = s.registered
  load : s'.load + p'.elim 0 Point.load ≤ s.load + p.load
  leases : held s' p' ⊆ held s (some p)
  enlisting : p.enlisting = true → ∃ q, p' = some q ∧ q.enlisting = true

namespace Quiet

variable {s : Shared} {p : Point} {p' : Option Point}

theorem frame (channels : ℕ) (stopped appDie : Bool) (revoked : Option ℕ)
    (load : p'.elim 0 Point.load ≤ p.load)
    (lease : ∀ lease, p'.bind Point.lease = some lease → p.lease = some lease)
    (enlisting : p.enlisting = true → ∃ q, p' = some q ∧ q.enlisting = true) :
    Quiet s p { s with channels, stopped, appDie, revoked } p' := by
  refine ⟨rfl, rfl, Nat.add_le_add_left load _, fun l hl => ?_, enlisting⟩
  rcases mem_rejoin.mp hl with hl | hl
  · exact mem_rejoin.mpr (.inl (lease l hl))
  · exact mem_rejoin.mpr (.inr hl)

theorem queue {task : Task} (channels : ℕ) (stopped : Bool) (lease : task.point.lease = none)
    (load : task.point.load + p'.elim 0 Point.load ≤ p.load) (next : p'.bind Point.lease = none)
    (enlisting : p.enlisting = false) :
    Quiet s p { s with channels, stopped, tasks := task ::ₘ s.tasks } p' := by
  refine ⟨rfl, rfl, ?_, fun l hl => ?_, fun h => by cases enlisting.symm.trans h⟩
  · dsimp only [Shared.load]
    rw [total_cons]
    omega
  · dsimp only [held] at hl
    rw [next, filterMap_cons, lease] at hl
    exact mem_rejoin.mpr (.inr hl)

theorem take {task : Task} (h : task ∈ s.tasks) :
    Quiet s .idle { s with tasks := s.tasks.erase task } (some task.point) := by
  obtain ⟨tasks, htasks⟩ := Multiset.exists_cons_of_mem h
  have herase : s.tasks.erase task = tasks := by rw [htasks, Multiset.erase_cons_head]
  refine ⟨rfl, rfl, ?_, fun l hl => ?_, nofun⟩
  · dsimp only [Shared.load]
    rw [herase, htasks, total_cons]
    simp only [elim_some, Point.load]
    omega
  · dsimp only [held] at hl ⊢
    rw [herase] at hl
    rw [htasks, filterMap_cons]
    exact hl

theorem receive {channel attempts : ℕ} {failed : Bool} (appDie : Bool)
    (h : (channel, failed) ∈ s.results) (load : p'.elim 0 Point.load ≤ failed.toNat)
    (next : p'.bind Point.lease = none) :
    Quiet s (.waiting channel attempts)
      { s with results := s.results.erase (channel, failed), appDie } p' := by
  obtain ⟨results, hresults⟩ := Multiset.exists_cons_of_mem h
  have herase : s.results.erase (channel, failed) = results := by
    rw [hresults, Multiset.erase_cons_head]
  refine ⟨rfl, rfl, ?_, fun l hl => ?_, nofun⟩
  · dsimp only [Shared.load]
    rw [herase, hresults, Multiset.countP_cons]
    cases failed with
    | false | true => exact Nat.add_le_add_left load _
  · dsimp only [held] at hl
    rw [next] at hl
    exact hl

theorem answer {failed : Bool} (caller : Option ℕ) (load : failed.toNat ≤ p.load)
    (enlisting : p.enlisting = false) : Quiet s p (s.answer caller failed) none := by
  have hheld : held (s.answer caller failed) none ⊆ held s (some p) := by
    intro l hl
    refine mem_rejoin.mpr (.inr ?_)
    cases caller <;> exact hl
  refine ⟨?_, ?_, ?_, hheld, fun h => by cases enlisting.symm.trans h⟩
  · cases caller <;> rfl
  · cases caller <;> rfl
  · cases caller with
    | none => exact Nat.le_add_right _ _
    | some =>
      dsimp only [Shared.answer, Shared.load]
      rw [Multiset.countP_cons]
      cases failed with
      | false => simp
      | true =>
        simp only [elim_none, if_true, Bool.toNat_true] at load ⊢
        omega

end Quiet

/-- A goroutine goes from one statement to the next. -/
inductive Moves (s : Shared) : Point → Shared → Option Point → Prop
  | quiet {p s' p'} (h : Quiet s p s' p') : Moves s p s' p'
  | grant {caller} : Moves s (.grant caller)
      { s with leaseID := s.granted + 1, granted := s.granted + 1 } (some (.keepAlive caller))
  | keepAlive {caller q} (enlisting : q.enlisting = true) : Moves s (.keepAlive caller)
      { s with tasks := .watchLeaseChan s.leaseID ::ₘ s.tasks } (some q)
  | put {caller} : Moves s (.put caller)
      { s with registered := some s.leaseID } (some (.syncServers caller))

/-- **What a step does** when what follows the start of a loop succeeds. -/
theorem step_moves {sd : Settings} {s s' : Shared} {p : Point} {p' : Option Point} {choice : Choice}
    (h : step sd s p choice = some (s', p')) (hok : p.started = true → choice ≠ .fail) :
    Moves s p s' p' := by
  cases p with
  | idle =>
    cases choice <;> try cases h
    obtain ⟨htask, ⟨⟩⟩ := ite_none_right_eq_some.mp h
    exact .quiet (.take htask)
  | watching =>
    cases choice <;> try cases h
    · exact .quiet (.frame _ _ _ _ le_rfl (fun _ h => h) nofun)
    · exact .quiet (.frame _ _ _ _ le_rfl nofun nofun)
    · obtain ⟨-, ⟨⟩⟩ := ite_none_right_eq_some.mp h
      exact .quiet (.frame _ _ _ _ (Nat.zero_le _) nofun nofun)
  | renewLease | revoke =>
    cases choice <;> cases h
    exact .quiet (.queue _ _ rfl le_rfl rfl rfl)
  | waiting =>
    cases choice <;> try cases h
    · rename_i failed
      obtain ⟨hresult, h⟩ := ite_none_right_eq_some.mp h
      split at h
      · next hfailed =>
        subst hfailed
        split at h <;> cases h
        · exact .quiet (.receive _ hresult (Nat.zero_le _) rfl)
        · exact .quiet (.receive _ hresult le_rfl rfl)
      · cases h
        exact .quiet (.receive _ hresult (Nat.zero_le _) rfl)
    · exact .quiet (.frame _ _ _ _ le_rfl nofun nofun)
  | grant caller =>
    cases choice <;> cases h
    · exact .grant
    · exact .quiet (.answer caller le_rfl rfl)
  | keepAlive caller =>
    cases choice <;> cases h
    · refine .keepAlive ?_
      split <;> rfl
    · exact .quiet (.answer caller le_rfl rfl)
  | election =>
    cases choice <;> cases h
    · exact .quiet (.frame _ _ _ _ le_rfl nofun fun _ => ⟨_, rfl, rfl⟩)
    · cases hok rfl rfl
  | put =>
    cases choice <;> cases h
    · exact .put
    · cases hok rfl rfl
  | syncServers caller =>
    cases choice <;> cases h
    · exact .quiet (.answer caller le_rfl rfl)
    · cases hok rfl rfl
  | shutdown | revoking =>
    cases choice <;> cases h <;> exact .quiet (.frame _ _ _ _ le_rfl nofun nofun)

/-! ## One loop -/

theorem card_leases_le (c : Threads.Config Shared Point) :
    (leases c).card ≤ c.shared.load + Program.total Point.load c.threads := by
  have hlease : ∀ p l, Point.lease p = some l → 1 ≤ p.load := by
    intro p l hp
    cases p with
    | watching => exact le_rfl
    | _ => cases hp
  have htasks := card_filterMap_le_total (fun task : Task => hlease task.point) c.shared.tasks
  have hthreads := card_filterMap_le_total hlease c.threads
  rw [leases, Multiset.card_add, Shared.load]
  omega

theorem leases_eq_zero {s : Shared} {p : Point} {rest : Multiset Point}
    (hload : s.load + Program.total Point.load (p ::ₘ rest) ≤ 1) (hp : p.load = 1)
    (hlease : p.lease = none) : leases ⟨s, p ::ₘ rest⟩ = 0 := by
  have hcard := card_leases_le ⟨s, rest⟩
  dsimp only at hcard
  rw [total_cons, hp] at hload
  rw [leases_cons hlease]
  exact Multiset.card_eq_zero.mp (by omega)

/-- What holds at all times: there is one loop at most or one goroutine that will start one, loops
are on the lease of the field, and the server is under it or about to be. -/
structure Kept (c : Threads.Config Shared Point) : Prop where
  load_le : c.shared.load + Program.total Point.load c.threads ≤ 1
  current : ∀ lease ∈ leases c, c.shared.leaseID = lease
  registered : ∀ lease ∈ leases c,
    c.shared.registered = some lease ∨ ∃ p ∈ c.threads, p.enlisting = true

namespace Kept

variable {s s' : Shared} {p : Point} {p' : Option Point} {rest : Multiset Point}

theorem load_run (hkept : Kept ⟨s, p ::ₘ rest⟩) (p' : Option Point)
    (hload : s'.load + p'.elim 0 Point.load ≤ s.load + p.load) :
    s'.load + Program.total Point.load (rejoin p' rest) ≤ 1 := by
  have hbefore := hkept.load_le
  rw [total_cons] at hbefore
  rw [total_rejoin]
  dsimp only at hbefore
  omega

theorem quiet (hkept : Kept ⟨s, p ::ₘ rest⟩) (h : Quiet s p s' p') : Kept ⟨s', rejoin p' rest⟩ := by
  have hleases : ∀ l ∈ leases ⟨s', rejoin p' rest⟩, l ∈ leases ⟨s, p ::ₘ rest⟩ := by
    intro l hl
    have hbefore := leases_rejoin s (some p) rest
    rw [leases_rejoin, Multiset.mem_add] at hl
    exact hbefore ▸ Multiset.mem_add.mpr (hl.imp_left fun hl => h.leases hl)
  refine ⟨hkept.load_run p' h.load, fun l hl => ?_, fun l hl => ?_⟩
  · exact h.leaseID.trans (hkept.current l (hleases l hl))
  · rcases hkept.registered l (hleases l hl) with hl | ⟨q, hq, henlisting⟩
    · exact .inl (h.registered.trans hl)
    · -- the goroutine that will register the server is another one, or goes on
      refine .inr ?_
      rcases Multiset.mem_cons.mp hq with rfl | hq
      · obtain ⟨r, hr, henlisting⟩ := h.enlisting henlisting
        exact ⟨r, mem_rejoin.mpr (.inl hr), henlisting⟩
      · exact ⟨q, mem_rejoin.mpr (.inr hq), henlisting⟩

variable {caller : Option ℕ}

theorem grant (hkept : Kept ⟨s, .grant caller ::ₘ rest⟩) :
    Kept ⟨{ s with leaseID := s.granted + 1, granted := s.granted + 1 },
      .keepAlive caller ::ₘ rest⟩ := by
  have hnone := leases_eq_zero hkept.load_le rfl rfl
  have hno : ∀ l, l ∉ leases ⟨{ s with leaseID := s.granted + 1, granted := s.granted + 1 },
      .keepAlive caller ::ₘ rest⟩ := by
    intro l hl
    rw [leases_cons rfl] at hnone hl
    exact Multiset.notMem_zero l (hnone ▸ hl)
  exact ⟨hkept.load_run (some _) le_rfl, fun l hl => absurd hl (hno l),
    fun l hl => absurd hl (hno l)⟩

theorem keepAlive {q : Point} (hkept : Kept ⟨s, .keepAlive caller ::ₘ rest⟩)
    (henlisting : q.enlisting = true) :
    Kept ⟨{ s with tasks := .watchLeaseChan s.leaseID ::ₘ s.tasks }, q ::ₘ rest⟩ := by
  have hq : q.lease = none ∧ q.load = 0 := by
    cases q with
    | election | put => exact ⟨rfl, rfl⟩
    | _ => cases henlisting
  have hnone := leases_eq_zero hkept.load_le rfl rfl
  have hleases : leases ⟨{ s with tasks := .watchLeaseChan s.leaseID ::ₘ s.tasks }, q ::ₘ rest⟩ =
      {s.leaseID} := by
    rw [leases_cons rfl] at hnone
    rw [leases_cons hq.1]
    dsimp only [leases] at hnone ⊢
    rw [filterMap_cons]
    exact (Multiset.cons_add _ _ _).trans (congrArg _ hnone)
  refine ⟨hkept.load_run (some q) ?_, fun l hl => ?_, fun l hl => ?_⟩
  · dsimp only [Shared.load]
    rw [total_cons, elim_some, hq.2]
    simp only [Task.point, Point.load]
    omega
  · rw [hleases] at hl
    exact (Multiset.mem_singleton.mp hl).symm
  · exact .inr ⟨q, Multiset.mem_cons_self q rest, henlisting⟩

theorem put (hkept : Kept ⟨s, .put caller ::ₘ rest⟩) :
    Kept ⟨{ s with registered := some s.leaseID }, .syncServers caller ::ₘ rest⟩ := by
  have hcurrent : ∀ l ∈ leases ⟨{ s with registered := some s.leaseID },
      .syncServers caller ::ₘ rest⟩,
      s.leaseID = l := by
    intro l hl
    refine hkept.current l ?_
    rw [leases_cons rfl] at hl ⊢
    exact hl
  exact ⟨hkept.load_run (some _) le_rfl, hcurrent, fun l hl => .inl (congrArg some (hcurrent l hl))⟩

theorem moves (hkept : Kept ⟨s, p ::ₘ rest⟩) (h : Moves s p s' p') : Kept ⟨s', rejoin p' rest⟩ := by
  cases h with
  | quiet h => exact hkept.quiet h
  | grant => exact hkept.grant
  | keepAlive henlisting => exact hkept.keepAlive henlisting
  | put => exact hkept.put

end Kept

variable {sd : Settings} {events : Run Point Choice} {c : Threads.Config Shared Point}

theorem kept_of_run (hrun : (renewals sd).system.run events = some c)
    (hmeets : (renewals sd).system.Meets Succeeds events) : Kept c := by
  refine config_induction_of_meets ?_ ?_ ?_ hrun hmeets
  · exact ⟨le_rfl, nofun, nofun⟩
  · rintro s threads p - - hkept hentry
    have hp : p.lease = none ∧ p.load = 0 := by
      cases p with
      | idle | shutdown | revoke => exact ⟨rfl, rfl⟩
      | _ => cases hentry
    refine ⟨?_, fun l hl => ?_, fun l hl => ?_⟩
    · rw [total_cons, hp.2, Nat.zero_add]
      exact hkept.load_le
    · rw [leases_cons hp.1] at hl
      exact hkept.current l hl
    · rw [leases_cons hp.1] at hl
      refine (hkept.registered l hl).imp_right fun ⟨q, hq, henlisting⟩ => ?_
      exact ⟨q, Multiset.mem_cons_of_mem hq, henlisting⟩
  · rintro s p rest choice s' p' - hok hkept hstep
    exact hkept.moves (step_moves hstep hok)

/-- If every request that is made after the start of a loop succeeds, **one lease is kept alive at
most**: the one of the field, which has the server. -/
theorem oneLease_of_meets (hrun : (renewals sd).system.run events = some c)
    (hmeets : (renewals sd).system.Meets Succeeds events) : OneLease sd c := by
  intro hidle
  have hkept := kept_of_run hrun hmeets
  refine ⟨(card_leases_le c).trans hkept.load_le, fun l hl => ?_⟩
  have hcurrent := hkept.current l hl
  refine ⟨hcurrent, ?_, ?_⟩
  · refine (hkept.registered l hl).resolve_right ?_
    rintro ⟨p, hp, henlisting⟩
    refine hidle (.inl ⟨p, hp, ?_⟩)
    cases p with
    | election | put => rfl
    | _ => cases henlisting
  · rintro s' p' ⟨⟩
    exact congrArg some hcurrent

/-- `bootstrap`, the loop that it starts, and the loss of the keep-alive. -/
def bootstrapped : Run Point Choice :=
  steps .go [.grant none, .keepAlive none, .put none, .syncServers none] ++
  [.call .idle, .run .idle (.take (.watchLeaseChan 1)), .run (.watching 1 0) .lost]

/-- A renewal, up to the start of the loop for the new lease. -/
def renewal (lease channel attempts : ℕ) : Run Point Choice :=
  [.run (.renewLease attempts) .go, .call .idle, .run .idle (.take (.renew channel)),
    .run (.grant (some channel)) .go, .run (.keepAlive (some channel)) .go,
    .call .idle, .run .idle (.take (.watchLeaseChan lease))]

/-- The rest of a renewal that succeeds. -/
def succeeds (channel attempts : ℕ) : Run Point Choice :=
  [.run (.put (some channel)) .go, .run (.syncServers (some channel)) .go,
    .run (.waiting channel attempts) (.result false)]

/-- After a renewal the loop is on the second lease. -/
theorem oneLease_renewed :
    ∃ c, (renewals ⟨3, false⟩).system.run (bootstrapped ++ renewal 2 0 0 ++ succeeds 0 0) = some c ∧
      leases c = {2} ∧ OneLease ⟨3, false⟩ c := by
  have hrun : (renewals ⟨3, false⟩).system.run (bootstrapped ++ renewal 2 0 0 ++ succeeds 0 0) =
      some ⟨{ leaseID := 2, channels := 1, granted := 2, registered := some 2 },
        {.watching 2 0}⟩ := rfl
  refine ⟨_, hrun, rfl, oneLease_of_meets hrun ?_⟩
  exact Transition.System.meets_of_meetsFrom (by decide +kernel)

/-- The server cannot be put under the second lease, and the first loop renews again: there are
two loops, and the second lease is kept alive for nothing. -/
theorem two_loops :
    ∃ c, (renewals ⟨3, false⟩).system.run (bootstrapped ++ renewal 2 0 0 ++
        [.run (.put (some 0)) .fail, .run (.waiting 0 0) (.result true)] ++
        renewal 3 1 1 ++ succeeds 1 1) = some c ∧
      leases c = {2, 3} ∧ c.shared.leaseID = 3 ∧ ¬ OneLease ⟨3, false⟩ c := by
  refine ⟨⟨{ leaseID := 3, channels := 2, granted := 3, registered := some 3 },
    {.watching 3 0, .watching 2 0}⟩, rfl, by decide, rfl, fun h => ?_⟩
  exact absurd (h (by decide)).1 (by decide)

end Pitaya.Cluster.Renewals
