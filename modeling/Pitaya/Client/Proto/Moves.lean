import Pitaya.Client.Proto.ProtoClient

/-!
# What the goroutines of the client with descriptors do

* `Passes` — the steps that change nothing shared; `Moves`, `step_moves` — all steps.
* `Role` — what a goroutine holds from one step to the next: `stateMu`, or an attempt.
* `Point.raw`, `raw_reachable` — what goes on in the embedded client is an interleaving of its
  own program: an attempt that is cancelled, or made under a cancelled one, is an attempt whose
  parent context ends.
-/

namespace Pitaya.Client.Proto

open Transition Threads Conn Option

/-! ## What a step does -/

/-- A reader goes on without changing anything shared. -/
inductive Reads (setup : Setup) (s : Shared) (r : Reader) : Reading → Reading → Prop
  | closed : Reads setup s r .waitForData .exit
  | late {m} : Reads setup s r (.received m) .exit
  | drop {m} : Reads setup s r (.received m) .waitForData
  | status {m data} (herr : m.err = true) :
      Reads setup s r (.received m) (.deliverProtoMessage m data)
  | message {m} (herr : m.err = false) : Reads setup s r (.received m) (.describe m)
  | unknown {m} : Reads setup s r (.describe m) .waitForData
  | decode {m descriptor data}
      (hdescriptor : s.outputDescriptorForResponse r.generation m.route = some descriptor)
      (hdata : setup.decode descriptor m.data = some data) :
      Reads setup s r (.describe m) (.deliverProtoMessage m data)
  | find {found m data} (hfound : s.reader = some found)
      (hgeneration : found.generation = r.generation) :
      Reads setup s r (.deliverProtoMessage m data) (.put found m data)
  | replaced {m data} : Reads setup s r (.deliverProtoMessage m data) .exit
  | full {found m data} : Reads setup s r (.put found m data) .exit

/-- A goroutine goes on without changing anything shared. -/
inductive Passes (setup : Setup) (s : Shared) : Point → Point → Prop
  | vacant {op} (hvacant : s.activeAttempt = none) :
      Passes setup s (.activeAttempt op) (.connectedStatus op)
  | ready {a} : Passes setup s (.ready a) (.bootstrapped a)
  | unready {a} : Passes setup s (.ready a) (.bootstrap .connectTo a .newBootstrapClient)
  | stage {op a stage stage' choice} (hstage : stage.step s a choice = some (.ok stage')) :
      Passes setup s (.bootstrap op a stage) (.bootstrap op a stage')
  | bootstrapFails {op a stage err} :
      Passes setup s (.bootstrap op a stage) (.deferred op a (some err))
  | connectFails {a err} : Passes setup s (.bootstrapped a) (.deferred .connectTo a (some err))
  | connect {a} :
      Passes setup s (.bootstrapped a) (.within (.connectTo a) (.outside (.lock .connect)))
  | callback {frame g} (hvacant : s.activeAttempt = none) :
      Passes setup s (.onDisconnected frame g) (.within frame (.outside (.callback g)))
  | await {frame g a} (hactive : s.activeAttempt = some a) :
      Passes setup s (.onDisconnected frame g) (.awaitAttempt frame g a)
  | awaited {frame g a} (hdone : a ∈ s.done) :
      Passes setup s (.awaitAttempt frame g a) (.within frame (.outside (.callback g)))
  | cancelled {a g} (hcancelled : a ∈ s.cancelled) :
      Passes setup s (.connected a g) (.cancelled a g)
  | connected {a g} : Passes setup s (.connected a g) (.startGenerationReader a g)
  | noReader {a g} : Passes setup s (.startGenerationReader a g) (.newReader a g)
  | awaitReader {a g previous} (hprevious : s.reader = some previous)
      (hgeneration : previous.generation ≠ g) :
      Passes setup s (.startGenerationReader a g) (.awaitReader a g previous)
  | readerDone {a g previous} :
      Passes setup s (.awaitReader a g previous) (.newReader a g)
  | reader {r place place'} (hreads : Reads setup s r place place') :
      Passes setup s (.reader r place) (.reader r place')

/-- What a goroutine holds from one step to the next. -/
inductive Role where
  | idle
  /-- `stateMu` is locked. -/
  | writer
  /-- `stateMu` is held for reading. -/
  | reader
  /-- The attempt is begun and not finished. -/
  | owner (a : ℕ)
  deriving DecidableEq

def Frame.role : Frame → Role
  | .connectTo a => .owner a
  | _ => .idle

def Point.role : Point → Role
  | .activeAttempt _ | .connectedStatus _ => .writer
  | .found _ | .cancelledFound _ => .reader
  | .ready a | .bootstrap _ a _ | .deferred _ a _ | .bootstrapped a | .connected a _
  | .cancelled a _ | .startGenerationReader a _ | .awaitReader a _ _ | .newReader a _
  | .finishConnectAttempt a _ => .owner a
  | .within frame _ | .onDisconnected frame _ | .awaitAttempt frame _ _ => frame.role
  | _ => .idle

/-- The function of the embedded client returns. -/
inductive Leaves (client : Connection.Shared) (results : List (Op × ℕ × Option ConnectError))
    (p : Connection.Point) :
    Frame → List (Op × ℕ × Option ConnectError) → Option Point → Prop
  | background : Leaves client results p .background results none
  | connected {a n} (hp : p = .outside (.deferred n)) (hstarted : n ∈ client.started) :
      Leaves client results p (.connectTo a) results (some (.connected a n))
  | failed {a} :
      Leaves client results p (.connectTo a) results
        (some (.deferred .connectTo a (some .connect)))
  | disconnected : Leaves client results p (.disconnect none) results none
  | await {a} : Leaves client results p (.disconnect (some a)) results (some (.awaitDone a))
  | abandoned {a} :
      Leaves client results p (.abandon a)
        ((.connectTo, a, some .connectionClosed) :: results) none

theorem leave_leaves (s : Shared) (p : Connection.Point) (frame : Frame) :
    ∃ results, (leave s p frame).1 = { s with record.results := results } ∧
      Leaves s.client s.record.results p frame results (leave s p frame).2 := by
  cases frame with
  | background => exact ⟨_, rfl, .background⟩
  | connectTo =>
    simp only [leave]
    split
    · split
      · next hstarted => exact ⟨_, rfl, .connected rfl hstarted⟩
      · exact ⟨_, rfl, .failed⟩
    · exact ⟨_, rfl, .failed⟩
  | disconnect a =>
    cases a with
    | none => exact ⟨_, rfl, .disconnected⟩
    | some => exact ⟨_, rfl, .await⟩
  | abandon => exact ⟨_, rfl, .abandoned⟩

theorem adopt_shared (s : Shared) (frame : Frame) (p : Connection.Point) :
    s.adopt frame p =
      { s with client := (s.adopt frame p).client, made := (s.adopt frame p).made } := by
  simp only [Shared.adopt]
  split <;> rfl

/-- A goroutine goes from one point to the next. -/
inductive Moves (setup : Setup) (s : Shared) : Point → Shared → Option Point → Prop
  | pass {p q} (hpass : Passes setup s p q) : Moves setup s p s (some q)
  | lock {op} (hfree : s.free = true) :
      Moves setup s (.beginConnectAttempt op) { s with writing := true } (some (.activeAttempt op))
  | refuse {p} (hrole : p.role = .writer) : Moves setup s p { s with writing := false } none
  | begin {op} (hmutex : s.client.connMutex = false)
      (hconnected : s.client.guarded.connected = false) :
      Moves setup s (.connectedStatus op)
        { s with
          writing := false, activeAttempt := some s.attempts.length
          attempts := s.attempts ++ [op] } (some (begun s.attempts.length op))
  | commit {op a t} (hfree : s.free = true) (hactive : s.activeAttempt = some a)
      (hlive : a ∉ s.cancelled) :
      Moves setup s (.bootstrap op a (.commitBootstrap t))
        { s with tables := { t with ready := true } } (some (committed a op))
  | deferred {op a err} (hfree : s.free = true) :
      Moves setup s (.deferred op a err) ((s.finishConnectAttempt a).returns op a err) none
  | within {frame p choice client q}
      (hraw : Connection.step (s.adopt frame p).client p choice = some (client, some q)) :
      Moves setup s (.within frame p)
        { s with client := client, made := (s.adopt frame p).made } (some (resume frame q))
  | leave {frame p choice client results p'}
      (hraw : Connection.step (s.adopt frame p).client p choice = some (client, none))
      (hleaves : Leaves client s.record.results p frame results p') :
      Moves setup s (.within frame p)
        { s with
          client := client, made := (s.adopt frame p).made, record.results := results } p'
  | abandon {p a g} (hfree : s.free = true)
      (hp : p = .cancelled a g ∨ p = .finishConnectAttempt a g ∧ a ∈ s.cancelled) :
      Moves setup s p (s.finishConnectAttempt a)
        (some (.within (.abandon a) (.outside (.holder g))))
  | newReader {a g} (hfree : s.free = true) :
      Moves setup s (.newReader a g)
        { s with
          reader := some ⟨s.readers.length, g, s.tables.info⟩
          readers := s.readers ++ [⟨s.readers.length, g, s.tables.info⟩]
          launched := ⟨s.readers.length, g, s.tables.info⟩ :: s.launched }
        (some (.finishConnectAttempt a g))
  | succeed {a g} (hfree : s.free = true) (hlive : a ∉ s.cancelled) :
      Moves setup s (.finishConnectAttempt a g)
        ((s.finishConnectAttempt a).returns .connectTo a none) none
  | disconnect (hwriting : s.writing = false) :
      Moves setup s .disconnect
        { s with
          reading := s.reading + 1
          record.observed := s.activeAttempt.elim s.record.observed (· :: s.record.observed) }
        (some (.found s.activeAttempt))
  | found {a} :
      Moves setup s (.found a)
        { s with
          cancelled := (a.elim s s.cancel).cancelled, client := (a.elim s s.cancel).client }
        (some (.cancelledFound a))
  | cancelledFound {a} :
      Moves setup s (.cancelledFound a) { s with reading := s.reading - 1 }
        (some (.within (.disconnect a) (.outside (.lock .disconnect))))
  | awaitDone {a} (hdone : a ∈ s.done) :
      Moves setup s (.awaitDone a)
        { s with record.disconnected := a :: s.record.disconnected } none
  | launch {r} (hlaunched : r ∈ s.launched) :
      Moves setup s (.launch r) { s with launched := s.launched.erase r }
        (some (.reader r .waitForData))
  | loadInfo {info} (hfree : s.free = true) :
      Moves setup s (.loadInfo info) { s with tables := s.tables.loadInfo info } none
  | addPushResponse {route protoName} (hfree : s.free = true) :
      Moves setup s (.addPushResponse route protoName)
        { s with tables := s.tables.addPushResponse route protoName } none
  | arrive {g m} :
      Moves setup s (.arrive g m)
        { s with
          incoming := s.incoming ++ [(g, m)], record.received := (g, m) :: s.record.received }
        none
  | receive {r m} (hm : s.incomingOn r.generation = some m) :
      Moves setup s (.reader r .waitForData) { s with incoming := s.incoming.erase m }
        (some (.reader r (.received m.2)))
  | put {r found m data} :
      Moves setup s (.reader r (.put found m data))
        { s with record.delivered := ⟨found, m, data⟩ :: s.record.delivered }
        (some (.reader r .waitForData))
  | exit {r} (hfree : s.free = true) :
      Moves setup s (.reader r .exit)
        { s with reader := if s.reader = some r then none else s.reader }
        (some (.reader r .closeDone))
  | closeDone {r} :
      Moves setup s (.reader r .closeDone) { s with ended := insert r.id s.ended } none

variable {setup : Setup} {s s' : Shared} {p q : Point} {p' : Option Point}
  {rest : Multiset Point} {choice : Choice} {c : Config Shared Point}

theorem bootstrap_moves {op : Op} {a : ℕ} {stage : Stage}
    (h : step setup s (.bootstrap op a stage) choice = some (s', p')) :
    Moves setup s (.bootstrap op a stage) s' p' := by
  cases stage with
  | commitBootstrap =>
    obtain ⟨hfree, h⟩ := ite_none_right_eq_some.mp h
    split at h
    · cases h
      exact .pass .bootstrapFails
    · next hgo =>
      simp only [not_or, not_not] at hgo
      cases h
      exact .commit hfree hgo.1 hgo.2
  | _ =>
    simp only [step] at h
    split at h
    · cases h
    · next hstage =>
      cases h
      exact .pass (.stage hstage)
    · cases h
      exact .pass .bootstrapFails

theorem within_moves {frame : Frame} {p : Connection.Point}
    (h : stepWithin s frame p choice = some (s', p')) :
    Moves setup s (.within frame p) s' p' := by
  simp only [stepWithin] at h
  split at h
  · cases h
  · next hraw =>
    cases h
    rw [adopt_shared]
    exact .within hraw
  · next client hraw =>
    obtain ⟨rfl, rfl⟩ := Prod.ext_iff.mp (some.inj h)
    obtain ⟨results, hleave, hleaves⟩ :=
      leave_leaves { s.adopt frame p with client := client } p frame
    rw [hleave]
    rw [adopt_shared] at hleaves ⊢
    exact .leave hraw hleaves

theorem reader_moves {r : Reader} {place : Reading} {place' : Option Reading}
    (h : stepReader setup s r place choice = some (s', place')) :
    Moves setup s (.reader r place) s' (place'.map (.reader r)) := by
  have hpass {next : Reading} (hreads : Reads setup s r place next) :
      Moves setup s (.reader r place) s (some (.reader r next)) := .pass (.reader hreads)
  cases place with
  | waitForData =>
    cases choice with
    | go =>
      obtain ⟨m, hm, ⟨⟩⟩ := map_eq_some_iff.mp h
      exact .receive hm
    | _ =>
      obtain ⟨-, ⟨⟩⟩ := ite_none_right_eq_some.mp h
      exact hpass .closed
  | received =>
    simp only [stepReader] at h
    split at h
    · cases h
      exact hpass .late
    · split at h
      · next herr =>
        split at h <;> cases h
        · exact hpass .drop
        · exact hpass (.status herr)
      · next herr =>
        cases h
        exact hpass (.message (Bool.not_eq_true _ ▸ herr))
  | describe =>
    obtain ⟨-, h⟩ := ite_none_left_eq_some.mp h
    split at h
    · cases h
      exact hpass .unknown
    · next hdescriptor =>
      split at h
      · cases h
        exact hpass .unknown
      · next hdata =>
        cases h
        exact hpass (.decode hdescriptor hdata)
  | deliverProtoMessage =>
    obtain ⟨-, h⟩ := ite_none_left_eq_some.mp h
    split at h
    · cases h
      exact hpass .replaced
    · next hfound =>
      split at h
      · next hgeneration =>
        cases h
        exact hpass (.find hfound hgeneration)
      · cases h
        exact hpass .replaced
  | put =>
    cases choice with
    | go =>
      cases h
      exact .put
    | _ =>
      obtain ⟨-, ⟨⟩⟩ := ite_none_right_eq_some.mp h
      exact hpass .full
  | exit =>
    obtain ⟨hfree, ⟨⟩⟩ := ite_none_right_eq_some.mp h
    exact .exit hfree
  | closeDone =>
    cases h
    exact .closeDone

/-- **What a step does.** -/
theorem step_moves (h : step setup s p choice = some (s', p')) : Moves setup s p s' p' := by
  cases p with
  | bootstrap => exact bootstrap_moves h
  | within => exact within_moves h
  | reader =>
    obtain ⟨⟨s₁, place'⟩, hstep, ⟨⟩⟩ := map_eq_some_iff.mp h
    exact reader_moves hstep
  | beginConnectAttempt =>
    obtain ⟨hfree, ⟨⟩⟩ := ite_none_right_eq_some.mp h
    exact .lock hfree
  | activeAttempt =>
    simp only [step] at h
    split at h
    · cases h
      exact .refuse rfl
    · next hvacant =>
      cases h
      exact .pass (.vacant (not_isSome_iff_eq_none.mp hvacant))
  | connectedStatus =>
    obtain ⟨hmutex, h⟩ := ite_none_left_eq_some.mp h
    split at h
    · cases h
      exact .refuse rfl
    · next hconnected =>
      cases h
      exact .begin (Bool.not_eq_true _ ▸ hmutex) (Bool.not_eq_true _ ▸ hconnected)
  | ready =>
    obtain ⟨-, h⟩ := ite_none_left_eq_some.mp h
    split at h <;> cases h
    · exact .pass .ready
    · exact .pass .unready
  | deferred =>
    obtain ⟨hfree, ⟨⟩⟩ := ite_none_right_eq_some.mp h
    exact .deferred hfree
  | bootstrapped =>
    simp only [step] at h
    split at h
    · cases h
      exact .pass .connectFails
    · split at h <;> cases h
      · exact .pass .connectFails
      · exact .pass .connect
  | onDisconnected =>
    obtain ⟨-, h⟩ := ite_none_left_eq_some.mp h
    split at h
    · next hvacant =>
      cases h
      exact .pass (.callback hvacant)
    · next hactive =>
      cases h
      exact .pass (.await hactive)
  | awaitAttempt =>
    obtain ⟨hdone, ⟨⟩⟩ := ite_none_right_eq_some.mp h
    exact .pass (.awaited hdone)
  | connected =>
    simp only [step] at h
    split at h
    · next hcancelled =>
      cases h
      exact .pass (.cancelled hcancelled)
    · cases h
      exact .pass .connected
  | cancelled =>
    obtain ⟨hfree, ⟨⟩⟩ := ite_none_right_eq_some.mp h
    exact .abandon hfree (.inl rfl)
  | startGenerationReader =>
    obtain ⟨-, h⟩ := ite_none_left_eq_some.mp h
    split at h
    · cases h
      exact .pass .noReader
    · next hprevious =>
      split at h
      · cases h
        exact .pass .noReader
      · next hgeneration =>
        cases h
        exact .pass (.awaitReader hprevious hgeneration)
  | awaitReader =>
    obtain ⟨-, ⟨⟩⟩ := ite_none_right_eq_some.mp h
    exact .pass .readerDone
  | newReader =>
    obtain ⟨hfree, ⟨⟩⟩ := ite_none_right_eq_some.mp h
    exact .newReader hfree
  | finishConnectAttempt =>
    obtain ⟨hfree, h⟩ := ite_none_right_eq_some.mp h
    split at h
    · next hcancelled =>
      cases h
      exact .abandon hfree (.inr ⟨rfl, hcancelled⟩)
    · next hlive =>
      cases h
      exact .succeed hfree hlive
  | disconnect =>
    obtain ⟨hwriting, ⟨⟩⟩ := ite_none_left_eq_some.mp h
    exact .disconnect (Bool.not_eq_true _ ▸ hwriting)
  | found a =>
    cases h
    cases a <;> exact .found
  | cancelledFound =>
    cases h
    exact .cancelledFound
  | awaitDone =>
    obtain ⟨hdone, ⟨⟩⟩ := ite_none_right_eq_some.mp h
    exact .awaitDone hdone
  | launch =>
    obtain ⟨hlaunched, ⟨⟩⟩ := ite_none_right_eq_some.mp h
    exact .launch hlaunched
  | loadInfo =>
    obtain ⟨hfree, ⟨⟩⟩ := ite_none_right_eq_some.mp h
    exact .loadInfo hfree
  | addPushResponse =>
    obtain ⟨hfree, ⟨⟩⟩ := ite_none_right_eq_some.mp h
    exact .addPushResponse hfree
  | arrive =>
    obtain ⟨-, ⟨⟩⟩ := ite_none_right_eq_some.mp h
    exact .arrive

/-! ## The embedded client -/

/-- Where the goroutine is in the embedded client. -/
def Point.raw : Point → Option Connection.Point
  | .within _ p => some p
  | .onDisconnected _ g | .awaitAttempt _ g _ => some (.outside (.callback g))
  | _ => none

/-- The embedded client, with the goroutines inside it. -/
def raw (c : Config Shared Point) : Config Connection.Shared Connection.Point :=
  ⟨c.shared.client, c.threads.filterMap Point.raw⟩

theorem raw_cons (s : Shared) (p : Point) (rest : Multiset Point) :
    raw ⟨s, p ::ₘ rest⟩ = ⟨s.client, rejoin p.raw (rest.filterMap Point.raw)⟩ := by
  rw [raw, filterMap_cons]

theorem raw_rejoin (s : Shared) (p' : Option Point) (rest : Multiset Point) :
    raw ⟨s, rejoin p' rest⟩ =
      ⟨s.client, rejoin (p'.bind Point.raw) (rest.filterMap Point.raw)⟩ := by
  rw [raw, filterMap_rejoin]

@[simp] theorem raw_resume (frame : Frame) (p : Connection.Point) :
    (resume frame p).raw = some p := by
  cases p with
  | outside o => cases o <;> rfl
  | _ => rfl

theorem Leaves.raw {client results results' p frame}
    (h : Leaves client results p frame results' p') : p'.bind Point.raw = none := by
  cases h <;> rfl

theorem raw_of_writer (h : p.role = .writer) : p.raw = none := by
  cases p with
  | within frame | onDisconnected frame | awaitAttempt frame => cases frame <;> cases h
  | _ => rfl

theorem raw_begun (a : ℕ) (op : Op) : (begun a op).raw = none := by
  cases op <;> rfl

theorem raw_committed (a : ℕ) (op : Op) : (committed a op).raw = none := by
  cases op <;> rfl

theorem Passes.raw (h : Passes setup s p q) :
    q.raw = p.raw ∨ p.raw = none ∧ q.raw = some (.outside (.lock .connect)) := by
  cases h with
  | connect => exact .inr ⟨rfl, rfl⟩
  | _ => exact .inl rfl

theorem entry_raw (h : entry p = true) :
    p.raw = none ∨ ∃ q, p.raw = some q ∧ Connection.connection.entry q = true := by
  simp only [entry] at h
  split at h
  all_goals first
    | exact .inl rfl
    | exact .inr ⟨_, rfl, rfl⟩
    | cases h

/-- Contexts of the embedded client end. -/
def Expires (s s' : Connection.Shared) : Prop :=
  ∃ ns : List ℕ, s' = { s with cancelled := s.cancelled ∪ ns.toFinset }

theorem Expires.refl (s : Connection.Shared) : Expires s s := ⟨[], by simp⟩

theorem Expires.guarded {s s' : Connection.Shared} (h : Expires s s') : s'.guarded = s.guarded := by
  obtain ⟨ns, rfl⟩ := h
  rfl

theorem Expires.cancelled {s s' : Connection.Shared} (h : Expires s s') :
    s.cancelled ⊆ s'.cancelled := by
  obtain ⟨ns, rfl⟩ := h
  exact Finset.subset_union_left

theorem expires_cancel (s : Shared) (a : ℕ) : Expires s.client (s.cancel a).client := ⟨_, rfl⟩

theorem expires_adopt (s : Shared) (frame : Frame) (p : Connection.Point) :
    Expires s.client (s.adopt frame p).client := by
  simp only [Shared.adopt]
  split
  · dsimp only
    split
    · exact ⟨[s.client.guarded.attempts], by simp⟩
    · exact .refl _
  · exact .refl _

theorem Expires.reachable {s s' : Connection.Shared} {threads : Multiset Connection.Point}
    (h : Expires s s') (hreach : Connection.connection.Reachable ⟨s, threads⟩) :
    Connection.connection.Reachable ⟨s', threads⟩ := by
  obtain ⟨ns, rfl⟩ := h
  induction ns generalizing s with
  | nil =>
    rw [List.toFinset_nil, Finset.union_empty]
    exact hreach
  | cons n ns ih =>
    have hstep : Connection.connection.step s (.outside (.expire n)) .go =
      some ({ s with cancelled := insert n s.cancelled }, none) := rfl
    have hrest := ih ((hreach.call rfl).run hstep)
    rw [Finset.insert_union] at hrest
    rw [List.toFinset_cons, Finset.union_insert]
    exact hrest

/-- What a step is to the embedded client, with where the goroutine was in it and is. -/
inductive Inside (s s' : Shared) : Option Connection.Point → Option Connection.Point → Prop
  | same {o : Option Connection.Point} (hclient : Expires s.client s'.client)
      (hmade : s'.made = s.made) : Inside s s' o o
  | call {q : Connection.Point} (hclient : Expires s.client s'.client) (hmade : s'.made = s.made)
      (hentry : Connection.connection.entry q = true) : Inside s s' none (some q)
  | step {frame : Frame} {p : Connection.Point} {choice : Connection.Choice}
      {o : Option Connection.Point}
      (hraw : Connection.step (s.adopt frame p).client p choice = some (s'.client, o))
      (hmade : s'.made = (s.adopt frame p).made) : Inside s s' (some p) o

theorem Moves.inside (h : Moves setup s p s' p') : Inside s s' p.raw (p'.bind Point.raw) := by
  have hsame (hclient : s'.client = s.client) (hmade : s'.made = s.made)
      (hraw : p'.bind Point.raw = p.raw) : Inside s s' p.raw (p'.bind Point.raw) := by
    rw [hraw]
    exact .same (hclient ▸ .refl _) hmade
  cases h with
  | pass hpass =>
    rcases hpass.raw with hraw | ⟨hp, hraw⟩
    · exact hsame rfl rfl hraw
    · rw [hp, bind_some, hraw]
      exact .call (.refl _) rfl rfl
  | begin => exact hsame rfl rfl (raw_begun _ _)
  | commit => exact hsame rfl rfl (raw_committed _ _)
  | refuse hrole => exact hsame rfl rfl (raw_of_writer hrole).symm
  | within hraw =>
    rw [bind_some, raw_resume]
    exact .step hraw rfl
  | leave hraw hleaves =>
    rw [hleaves.raw]
    exact .step hraw rfl
  | deferred | succeed => exact .same (expires_cancel _ _) rfl
  | abandon hfree hp =>
    have hnone : p.raw = none := by
      rcases hp with rfl | ⟨rfl, -⟩ <;> rfl
    rw [hnone]
    exact .call (expires_cancel _ _) rfl rfl
  | @found a =>
    cases a with
    | none => exact .same (.refl _) rfl
    | some a => exact .same (expires_cancel s a) rfl
  | cancelledFound => exact .call (.refl _) rfl rfl
  | _ => exact hsame rfl rfl rfl

/-- **What goes on in the embedded client is an interleaving of its own program.** -/
theorem raw_reachable (h : (protoClient setup).Reachable c) :
    Connection.connection.Reachable (raw c) := by
  apply Program.config_induction ⟨[], rfl⟩ ?_ ?_ h
  · intro s threads p _ hI hentry
    rw [raw_cons]
    rcases entry_raw hentry with hraw | ⟨q, hraw, hq⟩
    · rw [hraw]
      exact hI
    · rw [hraw]
      exact hI.call hq
  · intro s p rest choice s' p' _ hI hstep
    rw [raw_cons] at hI
    rw [raw_rejoin]
    have hinside := (step_moves hstep).inside
    generalize p.raw = o at hI hinside
    generalize p'.bind Point.raw = o' at hinside ⊢
    cases hinside with
    | same hclient => exact hclient.reachable hI
    | call hclient _ hentry => exact (hclient.reachable hI).call hentry
    | step hraw => exact ((expires_adopt _ _ _).reachable hI).run hraw

end Pitaya.Client.Proto
