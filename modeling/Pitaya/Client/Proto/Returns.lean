import Pitaya.Client.Proto.Cancellation
import Pitaya.Client.Proto.Waiting

/-!
# ConnectTo returns

* `Settled` — the goroutines have come to rest; nobody is left inside an attempt then
  (`Settled.no_owner`, `Settled.no_abandon`).

Dialling, handshakes and the exchanges of a bootstrap come to an end, as their contexts do, and so
do the callbacks.
-/

namespace Pitaya.Client.Proto

open Transition Threads Conn Option Multiset Program Proto.Point Connection System Bool

variable {setup : Setup} {s s' : Shared} {p q : Point} {p' : Option Point}
  {rest : Multiset Point} {choice : Choice} {c c' : Config Shared Point} {a b g n : ℕ}
  {f : Frame} {r : Connection.Point} {events : Run Point Choice}

/-! ## Weights -/

/-- The steps that follow the embedded client. -/
def Frame.weight : Frame → ℕ
  | .background | .abandon _ => 0
  | .disconnect _ => 1
  | .connectTo _ => 21

/-- The steps to the commit. -/
def Stage.weight : Stage → ℕ
  | .newBootstrapClient => 7
  | .connectToContext _ => 6
  | .connected _ => 5
  | .docs _ => 4
  | .descriptors _ => 3
  | .built _ => 2
  | .commitBootstrap _ => 1

def Reading.weight : Reading → ℕ
  | .received _ => 7
  | .describe _ => 6
  | .deliverProtoMessage _ _ => 5
  | .put _ _ _ => 4
  | .waitForData => 3
  | .exit => 2
  | .closeDone => 1

/-- The steps that a goroutine may take.  That of a reader to be launched, and those for the
messages to come, are counted with `Shared.weight`. -/
def Point.weight : Point → ℕ
  | .beginConnectAttempt _ => 54
  | .activeAttempt _ => 53
  | .connectedStatus _ => 52
  | .ready _ => 51
  | .bootstrap _ _ stage => stage.weight + 43
  | .bootstrapped _ => 43
  | .within frame (.outside (.callback _)) => 1 + frame.weight
  | .within frame p => p.weight + frame.weight
  | .onDisconnected frame _ => 3 + frame.weight
  | .awaitAttempt frame _ _ => 2 + frame.weight
  | .connected _ _ => 21
  | .startGenerationReader _ _ => 20
  | .awaitReader _ _ _ => 19
  | .newReader _ _ => 18
  | .finishConnectAttempt _ _ | .cancelled _ _ => 13
  | .disconnect => 18
  | .found _ => 17
  | .cancelledFound _ => 16
  | .launch _ => 0
  | .reader _ place => place.weight
  | .arrive _ _ => 6
  | .deferred _ _ _ | .awaitDone _ | .loadInfo _ | .addPushResponse _ _ => 1

def Shared.weight (s : Shared) : ℕ := 5 * s.incoming.length + 4 * s.launched.length

theorem weight_resume (f : Frame) (r : Connection.Point) :
    (resume f r).weight = r.weight + f.weight := by
  cases r with
  | outside o => cases o <;> rfl
  | _ => rfl

theorem weight_within (f : Frame) (r : Connection.Point) :
    f.weight < (Point.within f r).weight := by
  have hpos := r.weight_pos
  have heq : (within f r).weight = 1 + f.weight ∨
      (within f r).weight = r.weight + f.weight := by
    cases r with
    | outside o => cases o <;> first | exact .inl rfl | exact .inr rfl
    | _ => exact .inr rfl
  omega

theorem weight_within_step {client client' : Connection.Shared} {choice : Connection.Choice}
    {r' : Connection.Point} (h : Connection.step client r choice = some (client', some r')) :
    (resume f r').weight < (Point.within f r).weight := by
  have hlower := step_weight h
  have heq : (within f r).weight = r.weight + f.weight := by
    cases r with
    | outside o =>
      cases o with
      | callback => cases h
      | _ => rfl
    | _ => rfl
  rw [weight_resume, heq]
  omega

theorem Stage.step_weight {stage stage' : Stage} (h : stage.step s a choice = some (.ok stage')) :
    stage'.weight < stage.weight := by
  cases stage with
  | newBootstrapClient | connected | built =>
    simp only [Stage.step] at h
    split at h <;> cases h
    exact Nat.lt_add_one _
  | connectToContext =>
    cases choice with
    | fail => cases h
    | _ =>
      simp only [Stage.step] at h
      split at h <;> cases h
      exact Nat.lt_add_one _
  | docs =>
    cases choice <;> cases h
    exact Nat.lt_add_one _
  | descriptors =>
    cases choice with
    | files =>
      simp only [Stage.step] at h
      split at h <;> cases h
      exact Nat.lt_add_one _
    | _ => cases h
  | commitBootstrap => cases h

theorem Reads.weight {r : Reader} {place place' : Reading} (h : Reads setup s r place place') :
    place'.weight < place.weight := by
  cases h <;> simp [Reading.weight]

theorem Passes.weight (h : Passes setup s p q) : q.weight < p.weight := by
  cases h with
  | stage hstage =>
    have hlower := Stage.step_weight hstage
    simp only [weight]
    omega
  | reader hreads => exact hreads.weight
  | _ => simp [weight, Stage.weight, Frame.weight, Connection.Point.weight,
      Connection.Outside.weight, Connection.Section.weight]

theorem Leaves.weight {client results results'} (h : Leaves client results r f results' p') :
    p'.elim 0 Point.weight ≤ f.weight := by
  cases h <;> simp [weight, Frame.weight]

/-- **Every step brings the client nearer to its rest.** -/
theorem Moves.weight (h : Moves setup s p s' p') :
    s'.weight + p'.elim 0 Point.weight < s.weight + p.weight := by
  cases h with
  | pass hpass => exact Nat.add_lt_add_left hpass.weight _
  | refuse hrole =>
    refine Nat.add_lt_add_left ?_ _
    cases p with
    | activeAttempt | connectedStatus => exact Nat.succ_pos _
    | within frame | onDisconnected frame | awaitAttempt frame => cases frame <;> cases hrole
    | _ => cases hrole
  | @begin op =>
    cases op <;> exact Nat.add_lt_add_left (by simp [begun, weight, Stage.weight]) _
  | @commit op =>
    cases op <;> exact Nat.add_lt_add_left (by simp [committed, weight, Stage.weight]) _
  | within hraw => exact Nat.add_lt_add_left (weight_within_step hraw) _
  | leave _ hleaves =>
    exact Nat.add_lt_add_left (Nat.lt_of_le_of_lt hleaves.weight (weight_within _ _)) _
  | abandon _ hp =>
    rcases hp with rfl | ⟨rfl, -⟩ <;> exact Nat.add_lt_add_left (Nat.lt_add_one _) _
  | newReader =>
    simp only [Shared.weight, List.length_cons, elim_some, weight]
    omega
  | launch hlaunched =>
    have hlength := List.length_erase_of_mem hlaunched
    have hpos := List.length_pos_of_mem hlaunched
    simp only [Shared.weight, elim_some, weight, Reading.weight]
    omega
  | arrive =>
    simp only [Shared.weight, List.length_append, List.length_cons, List.length_nil,
      elim_none, weight]
    omega
  | @receive _ m hm =>
    have hmem : m ∈ s.incoming := List.mem_of_find?_eq_some hm
    have hlength := List.length_erase_of_mem hmem
    have hpos := List.length_pos_of_mem hmem
    simp only [Shared.weight, elim_some, weight, Reading.weight]
    omega
  | _ => exact Nat.add_lt_add_left (by simp [weight, Reading.weight, Frame.weight,
      Connection.Point.weight, Connection.Outside.weight, Connection.Section.weight]) _

/-! ## Coming to rest -/

variable (setup) in
/-- The goroutines have come to rest, those of the readers included. -/
structure Settled (c : Config Shared Point) : Prop where
  still : (protoClient setup).Still c
  launched : c.shared.launched = []

variable (setup) in
/-- The goroutines go on without further calls; those of the readers may start. -/
def Continues (c : Config Shared Point) (events : Run Point Choice)
    (c' : Config Shared Point) : Prop :=
  (∀ e ∈ events, ∀ p, e = .call p → ∃ r, p = .launch r) ∧
    (protoClient setup).system.runFrom c events = some c'

/-- The steps that the client may take without further calls. -/
def weight (c : Config Shared Point) : ℕ := c.shared.weight + Program.total Point.weight c.threads

theorem step_weight (s : Shared) (p : Point) (choice : Choice) (s' : Shared) (p' : Option Point)
    (h : (protoClient setup).step s p choice = some (s', p')) :
    s'.weight + p'.elim 0 Point.weight < s.weight + p.weight :=
  (step_moves h).weight

theorem Continues.bound (h : Continues setup c events c') :
    events.countP Event.runs ≤ weight c := by
  have hbound := runs_add_le step_weight (fun p hp => ?_) h.2
  · exact Nat.le_trans (Nat.le_add_right _ _) hbound
  · obtain ⟨r, rfl⟩ := h.1 _ hp p rfl
    rfl

/-- **Without further calls the client comes to rest.** -/
theorem exists_settled (setup : Setup) (c : Config Shared Point) :
    ∃ events c', Continues setup c events c' ∧ Settled setup c' := by
  have hgo (c : Config Shared Point) (hgo : ¬ Settled setup c) : ∃ events c',
      (∀ e ∈ events, ∀ p, e = .call p → ∃ r, p = .launch r) ∧
      (protoClient setup).system.runFrom c events = some c' ∧ weight c' < weight c := by
    obtain ⟨s, threads⟩ := c
    cases hlaunched : s.launched with
    | nil =>
      have hstill : ¬ (protoClient setup).Still ⟨s, threads⟩ :=
        fun hstill => hgo ⟨hstill, hlaunched⟩
      obtain ⟨p, hp⟩ := not_forall.mp hstill
      obtain ⟨choice, hchoice⟩ := not_forall.mp hp
      obtain ⟨c', hstep⟩ := ne_none_iff_exists'.mp hchoice
      refine ⟨[.run p choice], c', fun e he p' hcall => ?_, ?_, ?_⟩
      · cases List.mem_singleton.mp he
        cases hcall
      · rw [runFrom_cons, hstep]
        rfl
      · rcases system_step hstep with ⟨p, hcall, -⟩ | ⟨p, rest, choice, s', p', -, hc, hp, rfl⟩
        · cases hcall
        · cases hc
          exact weight_run step_weight rest hp
    | cons r =>
      have hmem : r ∈ s.launched := by
        rw [hlaunched]
        exact List.mem_cons_self
      have hstep : (protoClient setup).step s (.launch r) .go =
          some ({ s with launched := s.launched.erase r }, some (.reader r .waitForData)) :=
        if_pos hmem
      have hlower := weight_run step_weight threads hstep
      have hnone : (launch r).weight = 0 := rfl
      rw [total_cons _ (launch r), hnone, Nat.zero_add] at hlower
      refine ⟨[.call (.launch r), .run (.launch r) .go],
        ⟨{ s with launched := s.launched.erase r }, .reader r .waitForData ::ₘ threads⟩,
        fun e he p hcall => ?_, ?_, hlower⟩
      · subst hcall
        rcases List.mem_cons.mp he with he | he
        · cases he
          exact ⟨r, rfl⟩
        · cases List.mem_singleton.mp he
      · have hrun : (protoClient setup).system.step ⟨s, .launch r ::ₘ threads⟩
            (.run (.launch r) .go) =
            some ⟨{ s with launched := s.launched.erase r }, .reader r .waitForData ::ₘ threads⟩ :=
          system_run hstep
        have hcall : (protoClient setup).system.step ⟨s, threads⟩ (.call (.launch r)) =
            some ⟨s, .launch r ::ₘ threads⟩ := rfl
        rw [runFrom_cons, hcall, bind_some, runFrom_cons, hrun]
        rfl
  obtain ⟨events, c', hcalls, hrun, hsettled⟩ := exists_reaching hgo c
  exact ⟨events, c', ⟨hcalls, hrun⟩, hsettled⟩

/-! ## At rest -/

namespace Settled

variable (h : (protoClient setup).Reachable c) (hsettled : Settled setup c)

include hsettled in
theorem contra (hp : p ∈ c.threads) (choice : Choice)
    (hstep : (step setup c.shared p choice).isSome = true) : False := by
  have hnone : step setup c.shared p choice = none := hsettled.still.step hp choice
  rw [hnone] at hstep
  cases hstep

include hsettled in
theorem contra_within (hp : .within f r ∈ c.threads)
    (hraw : ∃ result, Connection.step (c.shared.adopt f r).client r .go = some result) : False := by
  obtain ⟨⟨client, o⟩, hraw⟩ := hraw
  refine hsettled.contra hp .go ?_
  simp only [step, stepWithin, Choice.raw, hraw]
  cases o <;> rfl

include h hsettled in
theorem connMutex : c.shared.client.connMutex = false := by
  by_contra htaken
  obtain ⟨r, hr, hinside⟩ := connMutex_mutex.exists_inside (raw_reachable h)
    (not_eq_false _ ▸ htaken)
  obtain ⟨p, hp, hraw⟩ := (mem_filterMap _ _).mp hr
  cases p with
  | within =>
    cases hraw
    exact hsettled.contra_within hp (step_of_inside _ hinside)
  | onDisconnected | awaitAttempt =>
    cases hraw
    cases hinside
  | _ => cases hraw

include h hsettled in
theorem waits (hp : .within f r ∈ c.threads) : ∃ o, r = .outside o ∧ o.waits = true := by
  cases r with
  | outside o =>
    refine ⟨o, rfl, ?_⟩
    by_contra hwaits
    have hadopt : c.shared.adopt f (.outside o) = c.shared := by
      cases f <;> rfl
    refine hsettled.contra_within hp (step_of_outside ?_ (not_eq_true _ ▸ hwaits))
    rw [hadopt]
    exact connMutex h hsettled
  | entered | body => exact (hsettled.contra_within hp (step_of_inside _ rfl)).elim

include h hsettled in
theorem writing : c.shared.writing = false := by
  by_contra htaken
  obtain ⟨p, hp, hwrites⟩ := writing_mutex.exists_inside h (not_eq_false _ ▸ htaken)
  have hrole : p.role = .writer := of_decide_eq_true hwrites
  cases p with
  | activeAttempt =>
    refine hsettled.contra hp .go ?_
    simp only [step]
    split <;> rfl
  | connectedStatus =>
    refine hsettled.contra hp .go ?_
    simp only [step, connMutex h hsettled, false_eq_true, if_false]
    split <;> rfl
  | within f | onDisconnected f | awaitAttempt f => cases f <;> cases hrole
  | _ => cases hrole

include h hsettled in
theorem free : c.shared.free = true := by
  have hreading : c.shared.reading = 0 := by
    by_contra hne
    rw [reading_eq h, total_toNat] at hne
    obtain ⟨p, hp, hreads⟩ := countP_pos.mp (Nat.pos_of_ne_zero hne)
    have hrole : p.role = .reader := of_decide_eq_true hreads
    cases p with
    | found | cancelledFound => exact hsettled.contra hp .go rfl
    | within f | onDisconnected f | awaitAttempt f => cases f <;> cases hrole
    | _ => cases hrole
  simp [Shared.free, writing h hsettled, hreading]

include h hsettled in
theorem no_reader {r : Reader} {place : Reading} (hp : .reader r place ∈ c.threads)
    (hclosing : r.generation ∈ c.shared.client.closing) : False := by
  have hwriting := writing h hsettled
  have hfree := free h hsettled
  cases place with
  | waitForData => exact hsettled.contra hp .fail (by simp [step, stepReader, hclosing])
  | received => exact hsettled.contra hp .go (by simp [step, stepReader, hclosing])
  | describe | deliverProtoMessage =>
    refine hsettled.contra hp .go ?_
    simp only [step, stepReader, hwriting, false_eq_true, if_false, isSome_map]
    split
    · rfl
    · split <;> rfl
  | put | closeDone => exact hsettled.contra hp .go rfl
  | exit => exact hsettled.contra hp .go (by simp [step, stepReader, hfree])

include h hsettled in
theorem no_closeOnce (hp : .within f (.outside (.closeOnce g)) ∈ c.threads) : False := by
  have hadopt : c.shared.adopt f (.outside (.closeOnce g)) = c.shared := by
    cases f <;> rfl
  by_cases hdone : g ∈ c.shared.client.closed
  · refine hsettled.contra_within hp ?_
    rw [hadopt]
    exact ⟨_, if_pos hdone⟩
  by_cases hclosing : g ∈ c.shared.client.closing
  · -- somebody else runs it, and could go on
    obtain ⟨r, hr, hholds⟩ :=
      (closing_closed (raw_reachable h) g hclosing).resolve_left hdone
    obtain ⟨p, hp, hraw⟩ := (mem_filterMap _ _).mp hr
    cases p with
    | within =>
      cases hraw
      obtain ⟨o, rfl, hwaits⟩ := waits h hsettled hp
      cases o with
      | wait | holder | closeOnce => cases hholds
      | _ => cases hwaits
    | onDisconnected | awaitAttempt =>
      cases hraw
      cases hholds
    | _ => cases hraw
  · refine hsettled.contra_within hp ?_
    rw [hadopt]
    exact ⟨_, (if_neg hdone).trans (if_neg hclosing)⟩

include h hsettled in
/-- **At rest, nobody is left between `beginConnectAttempt` and `finishConnectAttempt`.** -/
theorem no_owner (hp : p ∈ c.threads) : p.role ≠ .owner a := by
  intro hrole
  have hwriting := writing h hsettled
  have hfree := free h hsettled
  cases p with
  | ready =>
    refine hsettled.contra hp .go ?_
    simp only [step, hwriting, false_eq_true, if_false]
    split <;> rfl
  | bootstrap op a stage =>
    refine hsettled.contra hp .fail ?_
    cases stage with
    | newBootstrapClient => simp [step, Stage.step, hwriting]
    | connected | built =>
      simp only [step, Stage.step]
      by_cases hcancelled : a ∈ c.shared.cancelled <;> simp [hcancelled]
    | commitBootstrap =>
      simp only [step, hfree, if_true]
      split <;> rfl
    | _ => rfl
  | deferred | cancelled
  | newReader => exact hsettled.contra hp .go (by simp [step, hfree])
  | bootstrapped | connected =>
    refine hsettled.contra hp .go ?_
    simp only [step]
    split <;> rfl
  | within f =>
    cases f with
    | connectTo =>
      obtain ⟨o, rfl, hwaits⟩ := waits h hsettled hp
      have hdials := dials h hp rfl rfl
      cases o with
      | wait | holder | closeOnce => cases hdials
      | _ => cases hwaits
    | _ => cases hrole
  | onDisconnected f | awaitAttempt f =>
    cases f with
    | connectTo => cases dials h hp rfl rfl
    | _ => cases hrole
  | startGenerationReader =>
    refine hsettled.contra hp .go ?_
    simp only [step, hwriting, false_eq_true, if_false]
    split
    · rfl
    · split <;> rfl
  | awaitReader a g previous =>
    -- the reader is launched, and its generation is closing
    rcases reader_runs h previous (awaited_reader h hp).1 with hended | hlaunched | ⟨place, hplace⟩
    · exact hsettled.contra hp .go (by simp [step, hended])
    · rw [hsettled.launched] at hlaunched
      exact absurd hlaunched List.not_mem_nil
    · exact no_reader h hsettled hplace (awaitReader_closing h hp)
  | finishConnectAttempt =>
    refine hsettled.contra hp .go ?_
    simp only [step, hfree, if_true]
    split <;> rfl
  | _ => cases hrole

include h hsettled in
/-- **At rest, nobody is left abandoning an attempt.** -/
theorem no_abandon (hp : p ∈ c.threads) : p.frame ≠ some (.abandon a) := by
  intro hframe
  cases p with
  | within =>
    cases hframe
    obtain ⟨o, rfl, hwaits⟩ := waits h hsettled hp
    rcases abandons h hp rfl rfl with ⟨g, hg, ho⟩ | ⟨g, hcloses⟩
    · cases ho
      exact hsettled.contra_within hp ⟨_, if_pos hg⟩
    · cases o with
      | closeOnce => exact no_closeOnce h hsettled hp
      | wait | holder => cases hcloses
      | _ => cases hwaits
  | onDisconnected =>
    refine hsettled.contra hp .go ?_
    simp only [step, writing h hsettled, false_eq_true, if_false]
    split <;> rfl
  | awaitAttempt =>
    rcases awaited_attempt h hp with hactive | hdone
    · obtain ⟨q, hq, hrole⟩ := owner_of_active h hactive
      exact no_owner h hsettled hq hrole
    · exact hsettled.contra hp .go (by simp [step, hdone])
  | _ => cases hframe

end Settled

/-! ## Calls of ConnectTo -/

/-- The call of `ConnectTo` on whose behalf the goroutine runs. -/
def Op.connects (a : ℕ) : Op → Option ℕ
  | .connectTo => some a
  | .loadServerInfo => none

def Frame.connects : Frame → Option ℕ
  | .connectTo a | .abandon a => some a
  | _ => none

/-- The attempt of the `ConnectTo` that the goroutine runs. -/
def Point.connects : Point → Option ℕ
  | .bootstrap op a _ | .deferred op a _ => op.connects a
  | .within frame _ | .onDisconnected frame _ | .awaitAttempt frame _ _ => frame.connects
  | .ready a | .bootstrapped a | .connected a _ | .cancelled a _ | .startGenerationReader a _
  | .awaitReader a _ _ | .newReader a _ | .finishConnectAttempt a _ => some a
  | _ => none

theorem role_of_connects (h : p.connects = some a) :
    p.role = .owner a ∨ p.frame = some (.abandon a) := by
  cases p with
  | bootstrap op | deferred op =>
    cases op <;> cases h
    exact .inl rfl
  | within f | onDisconnected f | awaitAttempt f =>
    cases f with
    | connectTo =>
      cases h
      exact .inl rfl
    | abandon =>
      cases h
      exact .inr rfl
    | _ => cases h
  | _ =>
    cases h
    try exact .inl rfl

theorem connects_resume (f : Frame) (r : Connection.Point) :
    (resume f r).connects = f.connects := by
  cases r with
  | outside o => cases o <;> rfl
  | _ => rfl

theorem Passes.connects (h : Passes setup s p q) : q.connects = p.connects := by
  cases h <;> rfl

theorem Moves.connects (h : Moves setup s p s' p') (ha : p.connects = some a) :
    (∃ q, p' = some q ∧ q.connects = some a) ∨ ∃ err, (.connectTo, a, err) ∈ s'.record.results := by
  cases h with
  | pass hpass => exact .inl ⟨_, rfl, hpass.connects.trans ha⟩
  | @commit op =>
    cases op with
    | connectTo => exact .inl ⟨_, rfl, ha⟩
    | loadServerInfo => cases ha
  | @deferred op =>
    cases op with
    | connectTo =>
      cases ha
      exact .inr ⟨_, List.mem_cons_self⟩
    | loadServerInfo => cases ha
  | within => exact .inl ⟨_, rfl, (connects_resume _ _).trans ha⟩
  | leave _ hleaves =>
    cases hleaves with
    | connected | failed => exact .inl ⟨_, rfl, ha⟩
    | abandoned =>
      cases ha
      exact .inr ⟨_, List.mem_cons_self⟩
    | _ => cases ha
  | abandon _ hp =>
    rcases hp with rfl | ⟨rfl, -⟩ <;> exact .inl ⟨_, rfl, ha⟩
  | newReader => exact .inl ⟨_, rfl, ha⟩
  | succeed =>
    cases ha
    exact .inr ⟨_, List.mem_cons_self⟩
  | refuse hrole =>
    cases p with
    | within frame | onDisconnected frame | awaitAttempt frame => cases frame <;> cases hrole
    | activeAttempt | connectedStatus => cases ha
    | _ => cases hrole
  | _ => cases ha

theorem Moves.results_mono (h : Moves setup s p s' p') : s.record.results ⊆ s'.record.results := by
  cases h with
  | deferred | succeed => exact List.subset_cons_self _ _
  | leave _ hleaves =>
    cases hleaves with
    | abandoned => exact List.subset_cons_self _ _
    | _ => exact List.Subset.refl _
  | _ => exact List.Subset.refl _

theorem Moves.attempts (h : Moves setup s p s' p') :
    s'.attempts = s.attempts ∨ ∃ op, s'.attempts = s.attempts ++ [op] ∧
      p' = some (begun s.attempts.length op) := by
  cases h with
  | begin => exact .inr ⟨_, rfl, rfl⟩
  | _ => exact .inl rfl

/-- **A `ConnectTo` has returned, or a goroutine runs it.** -/
theorem pending (h : (protoClient setup).Reachable c) :
    ∀ a, c.shared.attempts[a]? = some .connectTo →
    (∃ p ∈ c.threads, p.connects = some a) ∨
      ∃ err, (.connectTo, a, err) ∈ c.shared.record.results := by
  intro a ha
  refine (attended (P := protoClient setup) (O := fun s => s.attempts[a]? = some .connectTo)
    (D := fun s => ∃ err, (.connectTo, a, err) ∈ s.record.results)
    (W := fun p => p.connects = some a) nofun ?_ h ha).symm
  intro s p rest choice s' p' _ hstep ha
  have hmoves := step_moves hstep
  have hgoes (hconnects : p.connects = some a) := (hmoves.connects hconnects).symm
  rcases hmoves.attempts with hsame | ⟨op, hsame, rfl⟩
  · exact .inl ⟨hsame ▸ ha, .imp fun _ herr => hmoves.results_mono herr, hgoes⟩
  · rw [hsame] at ha
    by_cases hlast : a = s.attempts.length
    · subst hlast
      rw [List.getElem?_concat_length] at ha
      cases ha
      exact .inr (.inr ⟨_, mem_cons_self _ _, rfl⟩)
    · obtain ⟨hlt, -⟩ := List.getElem?_eq_some_iff.mp ha
      rw [List.length_append, List.length_singleton] at hlt
      rw [List.getElem?_append_left (by omega)] at ha
      exact .inl ⟨ha, .imp fun _ herr => hmoves.results_mono herr, hgoes⟩

/-- **At rest every `ConnectTo` has returned.** -/
theorem returned_of_settled (h : (protoClient setup).Reachable c) (hsettled : Settled setup c)
    (ha : c.shared.attempts[a]? = some .connectTo) :
    ∃ err, (.connectTo, a, err) ∈ c.shared.record.results := by
  refine (pending h a ha).resolve_left ?_
  rintro ⟨p, hp, hconnects⟩
  rcases role_of_connects hconnects with hrole | hframe
  · exact hsettled.no_owner h hp hrole
  · exact hsettled.no_abandon h hp hframe

/-! ## Disconnect -/

theorem Moves.attempts_mono {op : Op} (h : Moves setup s p s' p') (ha : s.attempts[a]? = some op) :
    s'.attempts[a]? = some op := by
  rcases h.attempts with hsame | ⟨op', hsame, -⟩
  · rw [hsame]
    exact ha
  · obtain ⟨hlt, -⟩ := List.getElem?_eq_some_iff.mp ha
    rw [hsame, List.getElem?_append_left hlt]
    exact ha

theorem Moves.observed_mono (h : Moves setup s p s' p') :
    s.record.observed ⊆ s'.record.observed := by
  cases h with
  | disconnect =>
    cases s.activeAttempt with
    | none => exact List.Subset.refl _
    | some => exact List.subset_cons_self _ _
  | _ => exact List.Subset.refl _

theorem Moves.disconnected_mono (h : Moves setup s p s' p') :
    s.record.disconnected ⊆ s'.record.disconnected := by
  cases h with
  | awaitDone => exact List.subset_cons_self _ _
  | _ => exact List.Subset.refl _

/-- **`Disconnect` cancels a `ConnectTo` in progress.**  In every interleaving, a `ConnectTo` whose
attempt a `Disconnect` has found active does not return without an error.  Without further calls
the client comes to rest after a bounded number of steps, and at rest that `ConnectTo` has returned
an error.  Once the `Disconnect` has returned, no generation made for the attempt is current, and
none becomes so. -/
theorem disconnect_cancels (h : (protoClient setup).Reachable c)
    (hop : c.shared.attempts[a]? = some .connectTo) (hobserved : a ∈ c.shared.record.observed) :
    (.connectTo, a, none) ∉ c.shared.record.results ∧
    (∃ events c', Continues setup c events c' ∧ Settled setup c') ∧
    (∀ events c', Continues setup c events c' → events.countP Event.runs ≤ weight c ∧
      (Settled setup c' → ∃ err, (.connectTo, a, some err) ∈ c'.shared.record.results)) ∧
    (a ∈ c.shared.record.disconnected → ∀ events c',
      (protoClient setup).system.runFrom c events = some c' →
      ∀ n, (n, a) ∈ c'.shared.made → c'.shared.client.guarded.current ≠ some n) := by
  refine ⟨fun hnone => ((observed h).succeeded a hnone).2 hobserved, exists_settled setup c,
    fun events c' hcontinues => ⟨hcontinues.bound, fun hsettled => ?_⟩,
    fun hdisconnected events c' hrun n hmade hcurrent => ?_⟩
  · have hrun := hcontinues.2
    have hreach : (protoClient setup).Reachable c' := h.runFrom hrun
    have hop' := Program.shared_runFrom (P := protoClient setup)
      (fun s p choice s' p' hJ hstep => (step_moves hstep).attempts_mono hJ) hop hrun
    have hobserved' := Program.shared_runFrom (P := protoClient setup)
      (fun s p choice s' p' hJ hstep => (step_moves hstep).observed_mono hJ) hobserved hrun
    obtain ⟨err, herr⟩ := returned_of_settled hreach hsettled hop'
    cases err with
    | none => exact absurd hobserved' ((observed hreach).succeeded a herr).2
    | some err => exact ⟨err, herr⟩
  · have hreach : (protoClient setup).Reachable c' := h.runFrom hrun
    have hdisconnected' := Program.shared_runFrom (P := protoClient setup)
      (fun s p choice s' p' hJ hstep => (step_moves hstep).disconnected_mono hJ) hdisconnected hrun
    cases ((disconnecting hreach).returned a hdisconnected').current n hmade hcurrent

/-- `Disconnect` finds the first attempt active, and closes its generation. -/
def disconnectsFirst : Run Point Choice :=
  [.call .disconnect] ++ through [.disconnect, .found (some 0), .cancelledFound (some 0)] ++
  through (List.map (.within (.disconnect (some 0)))
    [.outside (.lock .disconnect), .entered .disconnect, .body [] (some (.closeOnce 0)),
      .outside (.closeOnce 0), .outside (.lock (.clear 0)), .entered (.clear 0),
      .body [.current none, .state .idle, .connected false] (some (.cleared 0 false)),
      .body [.state .idle, .connected false] (some (.cleared 0 false)),
      .body [.connected false] (some (.cleared 0 false)), .body [] (some (.cleared 0 false)),
      .outside (.cleared 0 false)])

/-- `ConnectTo` finds its attempt cancelled. -/
def abandonsFirst : Run Point Choice :=
  through [.connected 0 0, .cancelled 0 0, .within (.abandon 0) (.outside (.holder 0)),
    .within (.abandon 0) (.outside (.closeOnce 0)), .awaitDone 0]

/-- `Disconnect` comes when the generation is published and its reader is yet to start. -/
theorem disconnect_cancels_published : ∃ c,
    (protoClient plain).system.run (connectsFirst ++ disconnectsFirst ++ abandonsFirst) = some c ∧
    c.shared.client.guarded.current ≠ some 0 ∧
    c.shared.record.results = [(.connectTo, 0, some .connectionClosed)] ∧
    c.shared.made = [(0, 0)] ∧ c.shared.attempts[0]? = some .connectTo ∧
    0 ∈ c.shared.record.observed ∧ 0 ∈ c.shared.record.disconnected := by
  refine reaches_and (by decide +kernel) ?_
  intro c hc ⟨_, hmade, hop, hobserved, hdisconnected⟩
  refine (disconnect_cancels ⟨_, hc⟩ hop hobserved).2.2.2 hdisconnected [] c rfl 0 ?_
  rw [hmade]
  exact List.mem_singleton_self _

end Pitaya.Client.Proto
