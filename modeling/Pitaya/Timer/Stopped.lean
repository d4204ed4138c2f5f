import Pitaya.Timer.Manager

/-!
# Timers after `Stop`

`Stop` sends the id of the timer to the loop and returns.  It takes effect when the loop receives
the id, and the loop chooses among the channels.

* `Orderly` — the loop takes no tick while the id of a stopped timer is waiting, takes an id only
  after the timer itself, and the channel has room for every `Stop`.

Without these a stopped timer runs, or stays in `Manager.timers`.  `NewCountTimer` adds to that: it
sends every timer twice, so that an id may well come between.
-/

namespace Pitaya.Timers

open Threads Transition Multiset Finmap

/-- The loop does not know a timer and will not hear of it again. -/
def Forgotten (s : Manager) (threads : Multiset Point) (id : ℕ) : Prop :=
  id ∉ s.timers ∧ id ∉ s.chCreatedTimer ∧
    .sendCreated id true ∉ threads ∧ .sendCreated id false ∉ threads

/-- The id of a timer is in the channel, or the timer is forgotten. -/
def OnItsWay (s : Manager) (threads : Multiset Point) (id : ℕ) : Prop :=
  id ∈ s.chClosingTimer ∨ Forgotten s threads id

/-- The timer is marked as closed. -/
def IsClosed (heap : Finmap fun _ : ℕ => Timer) (id : ℕ) : Prop :=
  ∃ t, heap.lookup id = some t ∧ t.closed = true

/-- `Stop` asks for the length of the channel. -/
def Loop.asksForRoom : Loop → Bool
  | stop _ _ .len => true
  | _ => false

/-- The call of `Cron` neither executes a timer for which `Stop` had returned before, nor will
it. -/
def Loop.Spares : Loop → Prop
  | select => True
  | cron k | stop k _ _ | update k _ | decrement k _ | write k _ _ => ∀ id ∈ k.stopped, id ∉ k.todo
  | body k id _ => id ∉ k.stopped ∧ ∀ id ∈ k.stopped, id ∉ k.todo

/-- What the loop and the callers of `Stop` find. -/
def Orderly (timerBacklog : ℕ) (c : Config Manager Point) : Event Point Choice → Prop
  | .run .loop (.tick _ _) =>
    ∀ id ∈ c.shared.stopped, id ∈ c.shared.timers → id ∉ c.shared.chClosingTimer
  | .run .loop .closing =>
    ∀ id ∈ c.shared.chClosingTimer.head?,
      id ∉ c.shared.chCreatedTimer ∧
        .sendCreated id true ∉ c.threads ∧ .sendCreated id false ∉ c.threads
  | .run .loop .go =>
    c.shared.loop.asksForRoom = true → c.shared.chClosingTimer.length < timerBacklog
  | .run (.stop _ .len) _ => c.shared.chClosingTimer.length < timerBacklog
  | _ => True

instance (timerBacklog : ℕ) (c : Config Manager Point) (event : Event Point Choice) :
    Decidable (Orderly timerBacklog c event) := by
  unfold Orderly
  split <;> infer_instance

section Steps

variable {timerBacklog : ℕ} {development : Bool} {s s' : Manager}

/-! ## The way of an id -/

variable {choice : Choice} {id : ℕ}

variable {stage : Stage} {next : Option Stage} {heap : Finmap fun _ : ℕ => Timer} {ch : List ℕ}

theorem Stops.mem_chClosingTimer {x : ℕ} (h : Stops timerBacklog s x stage heap ch next)
    (hid : id ∈ s.chClosingTimer) : id ∈ ch := by
  cases h with
  | send => exact List.mem_append_left _ hid
  | _ => exact hid

theorem Dispatches.onItsWay (h : Dispatches timerBacklog development s choice s')
    {threads : Multiset Point} (horderly : Orderly timerBacklog ⟨s, threads⟩ (.run .loop choice))
    (hid : OnItsWay s threads id) : OnItsWay s' threads id := by
  cases h with
  | created hloop hreceived =>
    rcases hid with hid | ⟨htimers, hcreated, hsends⟩
    · exact .inl hid
    · rw [hreceived, List.mem_cons, not_or] at hcreated
      refine .inr ⟨?_, hcreated.2, hsends⟩
      rw [Finset.mem_insert, not_or]
      exact ⟨hcreated.1, htimers⟩
  | closing hloop hreceived =>
    rename_i x rest
    by_cases heq : id = x
    · subst heq
      refine .inr ⟨Finset.notMem_erase id _, horderly id ?_⟩
      rw [hreceived]
      rfl
    · rcases hid with hid | ⟨htimers, hrest⟩
      · rw [hreceived] at hid
        exact .inl ((List.mem_cons.mp hid).resolve_left heq)
      · exact .inr ⟨fun hmem => htimers (Finset.mem_of_mem_erase hmem), hrest⟩
  | stop _ hstops | stopped _ hstops => exact hid.imp_left hstops.mem_chClosingTimer
  | _ => exact hid

variable {p : Point} {p' : Option Point}

theorem Forgotten.of_rest {rest : Multiset Point} (h : Forgotten s (p ::ₘ rest) id)
    (htimers : s'.timers = s.timers) (hcreated : id ∉ s'.chCreatedTimer)
    (hp' : ∀ again, p' ≠ some (.sendCreated id again)) : Forgotten s' (rejoin p' rest) id := by
  obtain ⟨hid, -, hfirst, hlast⟩ := h
  refine ⟨htimers ▸ hid, hcreated, ?_, ?_⟩
  · rw [mem_rejoin, not_or]
    exact ⟨hp' true, fun hmem => hfirst (mem_cons_of_mem hmem)⟩
  · rw [mem_rejoin, not_or]
    exact ⟨hp' false, fun hmem => hlast (mem_cons_of_mem hmem)⟩

theorem Calls.onItsWay (h : Calls timerBacklog s p s' p') {rest : Multiset Point} (hs : Allotted s)
    (hheap : id ∈ s.heap) (hid : OnItsWay s (p ::ₘ rest) id) : OnItsWay s' (rejoin p' rest) id := by
  cases h with
  | newTimer =>
    refine hid.imp_right fun h => h.of_rest rfl h.2.1 fun again heq => ?_
    cases heq
    exact absurd (hs.fresh _ hheap) (Nat.not_succ_le_self _)
  | sendFirst =>
    rename_i x
    refine hid.imp_right fun h => ?_
    have hne : id ≠ x := by
      rintro rfl
      exact h.2.2.1 (mem_cons_self _ _)
    refine h.of_rest rfl ?_ fun again heq => ?_
    · rw [List.mem_append, List.mem_singleton, not_or]
      exact ⟨h.2.1, hne⟩
    · cases heq
      exact hne rfl
  | sendLast =>
    refine hid.imp_right fun h => h.of_rest rfl ?_ nofun
    rw [List.mem_append, List.mem_singleton, not_or]
    refine ⟨h.2.1, ?_⟩
    rintro rfl
    exact h.2.2.2 (mem_cons_self _ _)
  | setCondition => exact hid.imp_right fun h => h.of_rest rfl h.2.1 nofun
  | stop _ hstops | stopped _ hstops =>
    exact hid.imp hstops.mem_chClosingTimer fun h => h.of_rest rfl h.2.1 nofun

/-! ## The mark -/

variable {f : Timer → Timer}

theorem isClosed_modify_iff {x : ℕ} (hf : ∀ t, (f t).closed = t.closed) :
    IsClosed (s.modify x f).heap id ↔ IsClosed s.heap id := by
  unfold IsClosed
  rw [Manager.lookup_modify]
  split
  · rename_i heq
    subst heq
    cases s.heap.lookup id with
    | none => exact Iff.rfl
    | some => simp only [Option.map_some, Option.some.injEq, exists_eq_left', hf]
  · exact Iff.rfl

theorem isClosed_of_modify {x : ℕ} (h : IsClosed (s.modify x f).heap id)
    (hf : ∀ t, (f t).closed = t.closed) : IsClosed s.heap id :=
  (isClosed_modify_iff hf).mp h

theorem isClosed_modify {x : ℕ} (h : IsClosed s.heap id) (hf : ∀ t, (f t).closed = t.closed) :
    IsClosed (s.modify x f).heap id :=
  (isClosed_modify_iff hf).mpr h

theorem Stops.isClosed_of {x : ℕ} (h : Stops timerBacklog s x stage heap ch next)
    (hid : IsClosed heap id) : IsClosed s.heap id ∨ (stage = .store ∧ id = x) := by
  cases h with
  | full => exact .inl (isClosed_of_modify hid fun _ => rfl)
  | store =>
    obtain ⟨t, ht, hclosed⟩ := hid
    rcases Manager.lookup_modify_cases ht with ⟨rfl, -⟩ | ⟨-, ht⟩
    · exact .inr ⟨rfl, rfl⟩
    · exact .inl ⟨t, ht, hclosed⟩
  | _ => exact .inl hid

theorem isClosed_store (hheap : id ∈ s.heap) :
    IsClosed (s.modify id fun t => { t with closed := true }).heap id := by
  obtain ⟨t, ht⟩ := mem_iff.mp hheap
  refine ⟨{ t with closed := true }, ?_, rfl⟩
  rw [Manager.lookup_modify, if_pos rfl, ht]
  rfl

theorem Stops.isClosed {x : ℕ} (h : Stops timerBacklog s x stage heap ch next)
    (hid : IsClosed s.heap id) : IsClosed heap id := by
  cases h with
  | full => exact isClosed_modify hid fun _ => rfl
  | store =>
    obtain ⟨t, ht, hclosed⟩ := hid
    by_cases heq : id = x
    · subst heq
      exact isClosed_store (mem_of_lookup_eq_some ht)
    · refine ⟨t, ?_, hclosed⟩
      rw [Manager.lookup_modify, if_neg heq]
      exact ht
  | _ => exact hid

theorem Stops.isClosed_of_returned {x : ℕ} (h : Stops timerBacklog s x stage heap ch none)
    (hroom : stage = .len → s.chClosingTimer.length < timerBacklog)
    (hheap : stage ≠ .load → x ∈ s.heap) : IsClosed heap x := by
  cases h with
  | alreadyClosed ht hclosed => exact ⟨_, ht, hclosed⟩
  | full hfull => exact absurd (hroom rfl) hfull
  | store => exact isClosed_store (hheap nofun)

theorem Dispatches.isClosed_of (h : Dispatches timerBacklog development s choice s')
    (hid : IsClosed s'.heap id) : IsClosed s.heap id ∨ ∃ k, s.loop = .stop k id .store := by
  cases h with
  | execute | update | write => exact .inl (isClosed_of_modify hid fun _ => rfl)
  | stop hloop hstops | stopped hloop hstops =>
    refine (hstops.isClosed_of hid).imp_right ?_
    rintro ⟨rfl, rfl⟩
    exact ⟨_, hloop⟩
  | _ => exact .inl hid

theorem Dispatches.isClosed (h : Dispatches timerBacklog development s choice s')
    (hid : IsClosed s.heap id) : IsClosed s'.heap id := by
  cases h with
  | execute | update | write => exact isClosed_modify hid fun _ => rfl
  | stop _ hstops | stopped _ hstops => exact hstops.isClosed hid
  | _ => exact hid

theorem Calls.isClosed_of (h : Calls timerBacklog s p s' p') (hid : IsClosed s'.heap id) :
    IsClosed s.heap id ∨ p = .stop id .store := by
  cases h with
  | newTimer =>
    obtain ⟨t, ht, hclosed⟩ := hid
    by_cases heq : id = s.incrementID + 1
    · rw [heq, Manager.newTimer, lookup_insert] at ht
      cases ht
      cases hclosed
    · rw [Manager.newTimer, lookup_insert_of_ne _ heq] at ht
      exact .inl ⟨t, ht, hclosed⟩
  | setCondition => exact .inl (isClosed_of_modify hid fun _ => rfl)
  | stop _ hstops | stopped _ hstops =>
    refine (hstops.isClosed_of hid).imp_right ?_
    rintro ⟨rfl, rfl⟩
    rfl
  | _ => exact .inl hid

theorem Calls.isClosed (h : Calls timerBacklog s p s' p') (hs : Allotted s)
    (hid : IsClosed s.heap id) : IsClosed s'.heap id := by
  cases h with
  | newTimer =>
    obtain ⟨t, ht, hclosed⟩ := hid
    refine ⟨t, ?_, hclosed⟩
    rw [Manager.newTimer, lookup_insert_of_ne]
    · exact ht
    · rintro rfl
      exact absurd (hs.fresh _ (mem_of_lookup_eq_some ht)) (Nat.not_succ_le_self _)
  | setCondition => exact isClosed_modify hid fun _ => rfl
  | stop _ hstops | stopped _ hstops => exact hstops.isClosed hid
  | _ => exact hid

/-! ## Where the loop is -/

section

variable (h : Dispatches timerBacklog development s choice s')
include h

theorem Dispatches.storing {k : Cron} (hloop' : s'.loop = .stop k id .store) :
    id ∈ s'.chClosingTimer := by
  cases h with
  | created hloop | closing hloop => cases hloop.symm.trans hloop'
  | stop hloop hstops =>
    cases hloop'
    cases hstops with
    | send => exact List.mem_append_right _ List.mem_cons_self
  | finish | update =>
    split at hloop' <;> cases hloop'
  | _ => cases hloop'

theorem Dispatches.stopped_isClosed {threads : Multiset Point}
    (horderly : Orderly timerBacklog ⟨s, threads⟩ (.run .loop choice)) (hs : Allotted s)
    (hstopped : ∀ id ∈ s.stopped, IsClosed s.heap id) : ∀ id ∈ s'.stopped, IsClosed s'.heap id := by
  intro id hid
  by_cases hold : id ∈ s.stopped
  · exact h.isClosed (hstopped id hold)
  · cases h with
    | stopped hloop hstops =>
      obtain rfl := (Finset.mem_insert.mp hid).resolve_right hold
      refine hstops.isClosed_of_returned ?_ fun _ => ?_
      · rintro rfl
        exact horderly (by rw [hloop]; rfl)
      · exact hs.current id (by rw [hloop]; rfl)
    | _ => exact absurd hid hold

/-- A call of `Cron` spares the stopped timers if it finds none of them among the timers. -/
theorem Dispatches.spares
    (htick : ∀ now order, choice = .tick now order → ∀ id ∈ s.stopped, id ∉ s.timers)
    (hs : s.loop.Spares) : s'.loop.Spares := by
  cases h with
  | tick hloop _ horder =>
    intro id hid hmem
    rw [← List.mem_toFinset, horder] at hmem
    exact htick _ _ rfl id hid hmem
  | created => exact hs
  | closing => exact hs
  | done => trivial
  | skip hloop htodo | exhausted hloop htodo =>
    rw [hloop] at hs
    intro id hid hmem
    exact hs id hid (htodo ▸ List.mem_cons_of_mem _ hmem)
  | execute hloop htodo =>
    rw [hloop] at hs
    refine ⟨fun hid => hs _ hid (htodo ▸ List.mem_cons_self), fun id hid hmem => ?_⟩
    exact hs id hid (htodo ▸ List.mem_cons_of_mem _ hmem)
  | stop hloop | stopped hloop | decrement hloop | write hloop =>
    rw [hloop] at hs
    exact hs
  | finish hloop =>
    rw [hloop] at hs
    split
    · exact hs.2
    · exact hs.2
  | die => trivial
  | update hloop =>
    rw [hloop] at hs
    split
    · exact hs
    · exact hs

end

/-! ## Callers of `Stop` -/

theorem Calls.storing (h : Calls timerBacklog s p s' p') (hp' : p' = some (.stop id .store)) :
    id ∈ s'.chClosingTimer := by
  subst hp'
  cases h with
  | stop _ hstops =>
    cases hstops with
    | send => exact List.mem_append_right _ List.mem_cons_self

theorem Calls.stopped_isClosed (h : Calls timerBacklog s p s' p') (hs : Allotted s)
    (hroom : ∀ id, p = .stop id .len → s.chClosingTimer.length < timerBacklog)
    (hheap : ∀ id stage, p = .stop id stage → stage ≠ .load → id ∈ s.heap)
    (hstopped : ∀ id ∈ s.stopped, IsClosed s.heap id) : ∀ id ∈ s'.stopped, IsClosed s'.heap id := by
  intro id hid
  by_cases hold : id ∈ s.stopped
  · exact h.isClosed hs (hstopped id hold)
  · cases h with
    | stopped _ hstops =>
      obtain rfl := (Finset.mem_insert.mp hid).resolve_right hold
      refine hstops.isClosed_of_returned ?_ (hheap id _ rfl)
      rintro rfl
      exact hroom id rfl
    | _ => exact absurd hid hold

end Steps

/-! ## Runs -/

/-- Every closed timer, and every timer about to be closed, is on its way; a timer is closed when
`Stop` has returned; and `Cron` spares it from then on. -/
structure Settled (c : Config Manager Point) : Prop where
  closed : ∀ id, IsClosed c.shared.heap id → OnItsWay c.shared c.threads id
  storing : ∀ id, .stop id .store ∈ c.threads → OnItsWay c.shared c.threads id
  loopStoring : ∀ k id, c.shared.loop = .stop k id .store → OnItsWay c.shared c.threads id
  stopped : ∀ id ∈ c.shared.stopped, IsClosed c.shared.heap id
  spares : c.shared.loop.Spares

section Runs

variable {timerBacklog : ℕ} {development : Bool} {s s' : Manager}

theorem Settled.dispatch {threads : Multiset Point} (h : Settled ⟨s, threads⟩) (hs : Allotted s)
    {choice : Choice} (horderly : Orderly timerBacklog ⟨s, threads⟩ (.run .loop choice))
    (hmove : Dispatches timerBacklog development s choice s') : Settled ⟨s', threads⟩ where
  closed id hid := by
    refine hmove.onItsWay horderly ?_
    rcases hmove.isClosed_of hid with hid | ⟨k, hk⟩
    · exact h.closed id hid
    · exact h.loopStoring k id hk
  storing id hid := hmove.onItsWay horderly (h.storing id hid)
  loopStoring k id hk := .inl (hmove.storing hk)
  stopped := hmove.stopped_isClosed horderly hs h.stopped
  spares := by
    refine hmove.spares ?_ h.spares
    rintro now order rfl id hid htimers
    rcases h.closed id (h.stopped id hid) with hclosing | hforgotten
    · exact horderly id hid htimers hclosing
    · exact hforgotten.1 htimers

theorem Settled.call {p : Point} {p' : Option Point} {rest : Multiset Point}
    (h : Settled ⟨s, p ::ₘ rest⟩) (hs : Allotted s)
    (hheap : ∀ id stage, .stop id stage ∈ p ::ₘ rest → stage ≠ .load → id ∈ s.heap)
    (hroom : ∀ id, p = .stop id .len → s.chClosingTimer.length < timerBacklog)
    (hmove : Calls timerBacklog s p s' p') : Settled ⟨s', rejoin p' rest⟩ where
  closed id hid := by
    rcases hmove.isClosed_of hid with hid | rfl
    · obtain ⟨t, ht, hclosed⟩ := hid
      exact hmove.onItsWay hs (mem_of_lookup_eq_some ht) (h.closed id ⟨t, ht, hclosed⟩)
    · have hmem := mem_cons_self (.stop id .store) rest
      exact hmove.onItsWay hs (hheap id .store hmem nofun) (h.storing id hmem)
  storing id hid := by
    rcases mem_rejoin.mp hid with hp' | hid
    · exact .inl (hmove.storing hp')
    · have hmem : .stop id .store ∈ p ::ₘ rest := mem_cons_of_mem hid
      exact hmove.onItsWay hs (hheap id .store hmem nofun) (h.storing id hmem)
  loopStoring k id hk := by
    rw [hmove.loop] at hk
    exact hmove.onItsWay hs (hs.current id (by rw [hk]; rfl)) (h.loopStoring k id hk)
  stopped := by
    refine hmove.stopped_isClosed hs hroom ?_ h.stopped
    rintro id stage rfl hstage
    exact hheap id stage (mem_cons_self _ _) hstage
  spares := by
    rw [hmove.loop]
    exact h.spares

theorem settled_start : Settled ⟨{}, {.loop}⟩ where
  closed id hid := by
    obtain ⟨t, ht, -⟩ := hid
    cases ht
  storing id hid := by cases mem_singleton.mp hid
  loopStoring k id hk := by cases hk
  stopped id hid := absurd hid (Finset.notMem_empty id)
  spares := trivial

variable {events : Run Point Choice} {c : Config Manager Point}
  (hrun : (timers timerBacklog development).system.run events = some c)
  (hmeets : (timers timerBacklog development).system.Meets (Orderly timerBacklog) events)
include hrun hmeets

/-- **Every orderly run.** -/
theorem settled_of_orderly : Settled c := by
  refine Program.config_induction_of_meets settled_start ?_ ?_ hrun hmeets
  · -- a new call neither sends nor marks anything yet
    intro s threads p _ _ h hentry
    have hway (id : ℕ) (hid : OnItsWay s threads id) : OnItsWay s (p ::ₘ threads) id := by
      refine hid.imp_right ?_
      rintro ⟨htimers, hcreated, hfirst, hlast⟩
      refine ⟨htimers, hcreated, ?_, ?_⟩
      · rw [mem_cons, not_or]
        refine ⟨?_, hfirst⟩
        rintro rfl
        cases hentry
      · rw [mem_cons, not_or]
        refine ⟨?_, hlast⟩
        rintro rfl
        cases hentry
    refine ⟨fun id hid => hway id (h.closed id hid), fun id hid => ?_,
      fun k id hk => hway id (h.loopStoring k id hk), h.stopped, h.spares⟩
    rcases mem_cons.mp hid with rfl | hid
    · cases hentry
    · exact hway id (h.storing id hid)
  · intro s p rest choice s' p' hreach horderly h hstep
    have hs := allotted_of_reachable hreach
    rcases step_cases hstep with ⟨rfl, rfl, hmove⟩ | hmove
    · exact h.dispatch hs horderly hmove
    · refine h.call hs (fun id stage hmem => mem_heap_of_stop hreach hmem) ?_ hmove
      rintro id rfl
      exact horderly

/-- **A stopped timer stays stopped in every orderly run**: no `Cron` that begins after `Stop` has
returned executes its function, and it is not in `Manager.timers` when both channels are empty. -/
theorem stopped_of_orderly :
    (∀ k id conditional, c.shared.loop = .body k id conditional → id ∉ k.stopped) ∧
      (c.shared.chCreatedTimer = [] → c.shared.chClosingTimer = [] →
        ∀ id ∈ c.shared.stopped, id ∉ c.shared.timers) := by
  have h := settled_of_orderly hrun hmeets
  constructor
  · intro k id conditional hloop
    have hspares := h.spares
    rw [hloop] at hspares
    exact hspares.1
  · intro _ hclosing id hid
    rcases h.closed id (h.stopped id hid) with hmem | hforgotten
    · rw [hclosing] at hmem
      exact absurd hmem List.not_mem_nil
    · exact hforgotten.1

end Runs

/-- The calls that make a timer with an interval of 10 and have it stopped. -/
def makeAndStop : Run Point Choice :=
  [.call (.newTimer 10 (-1) false), .run (.newTimer 10 (-1) false) (.clock 0),
    .run (.sendCreated 1 false) .go, .call (.stop 1 .load), .run (.stop 1 .load) .go,
    .run (.stop 1 .len) .go, .run (.stop 1 .send) .go, .run (.stop 1 .store) .go]

/-- The timer is received, and then its id; the tick that follows finds nothing to do. -/
theorem stopped_of_orderly_received : ∃ events c,
    (timers 256 false).system.run events = some c ∧ 1 ∉ c.shared.timers ∧
    1 ∈ c.shared.stopped ∧ c.shared.crons = 1 ∧ c.shared.chCreatedTimer = [] ∧
    c.shared.chClosingTimer = [] := by
  refine ⟨makeAndStop ++ [.run .loop .created, .run .loop .closing, .run .loop (.tick 20 [])], ?_⟩
  refine reaches_and (by decide +kernel) fun c hc ⟨hstopped, _, hcreated, hclosing⟩ => ?_
  refine (stopped_of_orderly hc ?_).2 hcreated hclosing 1 hstopped
  exact System.meets_of_meetsFrom (by decide +kernel)

/-- If the tick comes before the id, the function of the stopped timer is executed.  If the id comes
before the timer, the timer stays. -/
theorem stopped_runs_again :
    (∃ events c, (timers 256 false).system.run events = some c ∧
      ∃ k, c.shared.loop = .body k 1 false ∧ 1 ∈ k.stopped) ∧
    ∃ events c, (timers 256 false).system.run events = some c ∧ 1 ∈ c.shared.stopped ∧
      c.shared.chCreatedTimer = [] ∧ c.shared.chClosingTimer = [] ∧ 1 ∈ c.shared.timers := by
  constructor
  · let events : Run Point Choice :=
      makeAndStop ++ [.run .loop .created, .run .loop (.tick 20 [1]), .run .loop .go]
    obtain ⟨c, hc, htest⟩ : ∃ c, (timers 256 false).system.run events = some c ∧
        c.shared.loop = .body ⟨1, 20, [], {1}⟩ 1 false := by
      decide +kernel
    exact ⟨events, c, hc, _, htest, by decide⟩
  · exact ⟨makeAndStop ++ [.run .loop .closing, .run .loop .created], by decide +kernel⟩

end Pitaya.Timers
