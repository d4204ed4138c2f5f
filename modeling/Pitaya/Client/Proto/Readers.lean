import Pitaya.Client.Closing
import Pitaya.Client.Proto.Attempts

/-!
# The readers of the client with descriptors

* `Bootstrapped`, `made` — what an attempt commits is what a bootstrap has made, from the commands
  the client had when it started, of the documentation and the descriptors.
-/

namespace Pitaya.Client.Proto

open Transition Threads Conn List Option Program

variable {setup : Setup} {s s' : Shared} {p q : Point} {p' : Option Point}
  {rest : Multiset Point} {choice : Choice} {c : Config Shared Point} {a g n : ℕ}

/-! ## Generations and readers -/

/-- The generation that the attempt has connected. -/
def Point.generation : Point → Option ℕ
  | .connected _ g | .cancelled _ g | .startGenerationReader _ g | .awaitReader _ g _
  | .newReader _ g | .finishConnectAttempt _ g => some g
  | _ => none

theorem Expires.started {s s' : Connection.Shared} (h : Expires s s') : s'.started = s.started := by
  obtain ⟨ns, rfl⟩ := h
  rfl

theorem Moves.started_mono (h : Moves setup s p s' p') : s.client.started ⊆ s'.client.started := by
  have hinside := h.inside
  generalize p.raw = before at hinside
  generalize p'.bind Point.raw = after at hinside
  cases hinside with
  | same hclient | call hclient =>
    rw [hclient.started]
  | step hraw =>
    rw [← (expires_adopt s _ _).started]
    exact (Connection.step_moves hraw).started_mono

theorem Passes.generation (h : Passes setup s p q) : q.generation = p.generation := by
  cases h <;> rfl

theorem generation_resume (frame : Frame) (p : Connection.Point) :
    (resume frame p).generation = none := by
  cases p with
  | outside o => cases o <;> rfl
  | _ => rfl

theorem Moves.generation (h : Moves setup s p s' (some q)) (hg : q.generation = some g) :
    p.generation = some g ∨ g ∈ s'.client.started := by
  generalize hnext : some q = p' at h
  cases h with
  | pass hpass =>
    cases hnext
    exact .inl (hpass.generation ▸ hg)
  | within =>
    cases hnext
    cases (generation_resume _ _).symm.trans hg
  | leave _ hleaves =>
    subst hnext
    cases hleaves with
    | connected _ hstarted =>
      cases hg
      exact .inr hstarted
    | _ => cases hg
  | newReader =>
    cases hnext
    exact .inl hg
  | @begin op | @commit op => cases op <;> cases hnext <;> cases hg
  | _ => cases hnext <;> cases hg

/-- **An attempt goes on with a generation whose loops run.** -/
theorem generation_started (h : (protoClient setup).Reachable c) (hp : p ∈ c.threads)
    (hg : p.generation = some g) : g ∈ c.shared.client.started := by
  refine thread_invariant
    (J := fun s p => ∀ g, p.generation = some g → g ∈ s.client.started) ?_ ?_ ?_ ?_ h p hp g hg
  · exact nofun
  · intro s threads p _ hentry g hg
    simp only [protoClient, entry] at hentry
    split at hentry
    all_goals first
      | cases hg
      | cases hentry
  · intro s p rest choice s' q _ hJ hstep g hg
    rcases (step_moves hstep).generation hg with hg | hg
    · exact (step_moves hstep).started_mono (hJ g hg)
    · exact hg
  · exact fun s p rest choice s' p' q _ _ _ hJ hstep g hg =>
      (step_moves hstep).started_mono (hJ g hg)

theorem Moves.readers (h : Moves setup s p s' p') :
    s'.readers = s.readers ∨ ∃ a g, p = .newReader a g ∧
      s'.readers = s.readers ++ [⟨s.readers.length, g, s.tables.info⟩] := by
  cases h with
  | newReader => exact .inr ⟨_, _, rfl, rfl⟩
  | _ => exact .inl rfl

theorem readers_started (h : (protoClient setup).Reachable c) :
    ∀ r ∈ c.shared.readers, r.generation ∈ c.shared.client.started := by
  apply config_induction ?_ ?_ ?_ h
  · exact fun r hr => absurd hr not_mem_nil
  · exact fun s threads p _ hI _ => hI
  · intro s p rest choice s' p' hreach hI hstep r hr
    have hmoves := step_moves hstep
    rcases hmoves.readers with hsame | ⟨a, g, rfl, hsame⟩
    · rw [hsame] at hr
      exact hmoves.started_mono (hI r hr)
    · rw [hsame] at hr
      rcases mem_append.mp hr with hr | hr
      · exact hmoves.started_mono (hI r hr)
      · obtain rfl := mem_singleton.mp hr
        exact hmoves.started_mono (generation_started hreach (Multiset.mem_cons_self _ _) rfl)

/-- The attempt of the embedded client that may become the generation of a reader. -/
def Point.carries : Point → Option ℕ
  | .within (.connectTo _) p => p.carries
  | .connected _ g | .startGenerationReader _ g | .awaitReader _ g _ | .newReader _ g => some g
  | _ => none

theorem owner_of_carries (h : p.carries = some n) : ∃ a, p.role = .owner a := by
  cases p with
  | within frame =>
    cases frame with
    | connectTo a => exact ⟨a, rfl⟩
    | _ => cases h
  | connected a | startGenerationReader a | awaitReader a | newReader a => exact ⟨a, rfl⟩
  | _ => cases h

theorem Passes.carries (h : Passes setup s p q) (hn : q.carries = some n) : p.carries = some n := by
  cases h with
  | @callback frame | @awaited frame => cases frame <;> cases hn
  | connected | noReader | awaitReader | readerDone => exact hn
  | _ => cases hn

theorem carries_resume {frame : Frame} {p : Connection.Point}
    (h : (resume frame p).carries = some n) : (∃ a, frame = .connectTo a) ∧ p.carries = some n := by
  cases frame with
  | connectTo a =>
    refine ⟨⟨a, rfl⟩, ?_⟩
    cases p with
    | outside o => cases o <;> exact h
    | _ => exact h
  | _ =>
    cases p with
    | outside o => cases o <;> cases h
    | _ => cases h

theorem Moves.carries (h : Moves setup s p s' (some q)) (hn : q.carries = some n) :
    p.carries = some n ∨
      ∃ a, p = .within (.connectTo a) (.entered .connect) ∧ n = s.client.guarded.attempts := by
  generalize hnext : some q = p' at h
  cases h with
  | pass hpass =>
    cases hnext
    exact .inl (hpass.carries hn)
  | @within frame p choice client q hraw =>
    cases hnext
    obtain ⟨⟨a, rfl⟩, hcarries⟩ := carries_resume hn
    rcases Connection.step_carries hraw hcarries with hcarries | ⟨rfl, hattempts⟩
    · exact .inl hcarries
    · exact .inr ⟨a, rfl, hattempts⟩
  | leave _ hleaves =>
    subst hnext
    cases hleaves with
    | connected hp =>
      subst hp
      exact .inl hn
    | _ => cases hn
  | @begin op | @commit op => cases op <;> cases hnext <;> cases hn
  | _ => cases hnext <;> cases hn

/-- **No reader was started for the generation of an attempt under way.** -/
theorem fresh (h : (protoClient setup).Reachable c) (hp : p ∈ c.threads) (hn : p.carries = some n) :
    ∀ r ∈ c.shared.readers, r.generation ≠ n := by
  refine thread_invariant
    (J := fun s p => ∀ n, p.carries = some n → ∀ r ∈ s.readers, r.generation ≠ n)
    ?_ ?_ ?_ ?_ h p hp n hn
  · exact nofun
  · intro s threads p _ hentry n hn
    simp only [protoClient, entry] at hentry
    split at hentry
    all_goals first
      | cases hn
      | cases hentry
  · intro s p rest choice s' q hreach hJ hstep n hn r hr
    have hmoves := step_moves hstep
    have hsame : s'.readers = s.readers := by
      rcases hmoves.readers with hsame | ⟨a, g, rfl, -⟩
      · exact hsame
      · generalize hnext : some q = p' at hmoves
        cases hmoves with
        | pass hpass => cases hpass
        | refuse hrole => cases hrole
        | abandon _ hp | newReader =>
          cases hnext
          cases hn
    rw [hsame] at hr
    rcases hmoves.carries hn with hn | ⟨a, rfl, rfl⟩
    · exact hJ n hn r hr
    · -- the attempt is new, and the generations of the readers have been current
      have hraw := raw_reachable hreach
      rw [raw_cons] at hraw
      have hstarted := readers_started hreach r hr
      have hbecame := (Connection.closing hraw).started _ hstarted
      have hbound := (Connection.consistent_of_entered hraw).bound _ (.inr hbecame)
      exact Nat.ne_of_lt hbound
  · intro s p rest choice s' p' q hreach hq _ hJ hstep n hn r hr
    rcases (step_moves hstep).readers with hsame | ⟨a, g, rfl, -⟩
    · rw [hsame] at hr
      exact hJ n hn r hr
    · obtain ⟨b, hb⟩ := owner_of_carries hn
      exact absurd hb (owner_alone hreach rfl hq b)

/-- **No two readers are started for one generation.** -/
theorem distinct (h : (protoClient setup).Reachable c) :
    (c.shared.readers.map Reader.generation).Nodup := by
  apply config_induction nodup_nil ?_ ?_ h
  · exact fun s threads p _ hI _ => hI
  · intro s p rest choice s' p' hreach hI hstep
    rcases (step_moves hstep).readers with hsame | ⟨a, g, rfl, hsame⟩
    · dsimp only
      rw [hsame]
      exact hI
    · dsimp only
      rw [hsame, map_append, map_cons, map_nil]
      refine nodup_append.mpr ⟨hI, nodup_singleton _, fun n hn m hm => ?_⟩
      obtain rfl := mem_singleton.mp hm
      obtain ⟨r, hr, rfl⟩ := mem_map.mp hn
      exact fresh hreach (Multiset.mem_cons_self _ _) rfl r hr

theorem reader_unique (h : (protoClient setup).Reachable c) {r r' : Reader}
    (hr : r ∈ c.shared.readers) (hr' : r' ∈ c.shared.readers)
    (hgeneration : r.generation = r'.generation) : r = r' :=
  inj_on_of_nodup_map (distinct h) hr hr' hgeneration

/-! ## Messages -/

theorem Moves.readers_mono (h : Moves setup s p s' p') : s.readers ⊆ s'.readers := by
  rcases h.readers with hsame | ⟨a, g, -, hsame⟩
  · rw [hsame]
    exact List.Subset.refl _
  · rw [hsame]
    exact subset_append_left _ _

theorem Moves.received_mono (h : Moves setup s p s' p') :
    s.record.received ⊆ s'.record.received := by
  cases h with
  | arrive => exact subset_cons_self _ _
  | _ => exact List.Subset.refl _

variable {r : Reader}

theorem reader_mem (h : (protoClient setup).Reachable c) (hr : c.shared.reader = some r) :
    r ∈ c.shared.readers := by
  refine shared_invariant
    (J := fun s => ∀ r, s.reader = some r → r ∈ s.readers) ?_ ?_ h r hr
  · exact nofun
  · intro s p choice s' p' hJ hstep r hr
    have hmoves := step_moves hstep
    cases step_moves hstep with
    | newReader =>
      cases hr
      exact mem_append_right _ mem_cons_self
    | exit =>
      refine hJ r ?_
      split at hr
      · cases hr
      · exact hr
    | _ => exact hJ r hr

theorem incoming_received (h : (protoClient setup).Reachable c) :
    ∀ m ∈ c.shared.incoming, m ∈ c.shared.record.received := by
  refine shared_invariant
    (J := fun s => ∀ m ∈ s.incoming, m ∈ s.record.received) ?_ ?_ h
  · exact fun m hm => absurd hm not_mem_nil
  · intro s p choice s' p' hJ hstep m hm
    have hmoves := step_moves hstep
    cases step_moves hstep with
    | arrive =>
      rcases mem_append.mp hm with hm | hm
      · exact mem_cons_of_mem _ (hJ m hm)
      · obtain rfl := mem_singleton.mp hm
        exact mem_cons_self
    | receive => exact hJ m (mem_of_mem_erase hm)
    | _ => exact hJ m hm

/-- The message is decoded with the commands of the reader. -/
def Decoded (setup : Setup) (r : Reader) (m : Message) (data : Bytes) : Prop :=
  ∃ command descriptor, r.info.lookup m.route = some command ∧
    command.outputMsgDescriptor = some descriptor ∧ setup.decode descriptor m.data = some data

/-- What the goroutine of a reader has in hand: a message received on its generation, decoded
with the commands of a reader of that generation. -/
def Reading.Sound (setup : Setup) (s : Shared) (r : Reader) : Reading → Prop
  | .received m | .describe m => (r.generation, m) ∈ s.record.received
  | .deliverProtoMessage m data =>
    (r.generation, m) ∈ s.record.received ∧
      (m.err = false → ∃ known ∈ s.readers, known.generation = r.generation ∧
        Decoded setup known m data)
  | .put found m data =>
    (found ∈ s.readers ∧ found.generation = r.generation) ∧
      (r.generation, m) ∈ s.record.received ∧
      (m.err = false → ∃ known ∈ s.readers, known.generation = r.generation ∧
        Decoded setup known m data)
  | _ => True

variable {place : Reading}

theorem Reading.Sound.mono (h : place.Sound setup s r)
    (hreceived : s.record.received ⊆ s'.record.received) (hreaders : s.readers ⊆ s'.readers) :
    place.Sound setup s' r := by
  have hdecoded {m : Message} {data : Bytes}
      (h : m.err = false → ∃ known ∈ s.readers, known.generation = r.generation ∧
        Decoded setup known m data) (herr : m.err = false) :
      ∃ known ∈ s'.readers, known.generation = r.generation ∧ Decoded setup known m data := by
    obtain ⟨known, hknown, hsound⟩ := h herr
    exact ⟨known, hreaders hknown, hsound⟩
  cases place with
  | received | describe => exact hreceived h
  | deliverProtoMessage => exact ⟨hreceived h.1, hdecoded h.2⟩
  | put => exact ⟨⟨hreaders h.1.1, h.1.2⟩, hreceived h.2.1, hdecoded h.2.2⟩
  | _ => trivial

theorem reader_of_outputDescriptor {route : Bytes} {descriptor : Descriptor}
    (h : s.outputDescriptorForResponse g route = some descriptor) :
    ∃ r command, s.reader = some r ∧ r.generation = g ∧ r.info.lookup route = some command ∧
      command.outputMsgDescriptor = some descriptor := by
  obtain ⟨r, hr, h⟩ := bind_eq_some_iff.mp h
  obtain ⟨hgeneration, h⟩ := ite_none_left_eq_some.mp h
  obtain ⟨command, hcommand, h⟩ := bind_eq_some_iff.mp h
  exact ⟨r, command, hr, not_not.mp hgeneration, hcommand, h⟩

theorem Reads.sound {place' : Reading} (h : Reads setup s r place place')
    (hreader : ∀ r, s.reader = some r → r ∈ s.readers) (hplace : place.Sound setup s r) :
    place'.Sound setup s r := by
  cases h with
  | status herr =>
    refine ⟨hplace, fun hno => ?_⟩
    cases herr.symm.trans hno
  | decode hdescriptor hdata =>
    obtain ⟨known, command, hknown, hgeneration, hcommand, houtput⟩ :=
      reader_of_outputDescriptor hdescriptor
    exact ⟨hplace, fun _ => ⟨known, hreader known hknown, hgeneration, command, _, hcommand,
      houtput, hdata⟩⟩
  | find hfound hgeneration => exact ⟨⟨hreader _ hfound, hgeneration⟩, hplace⟩
  | _ => trivial

/-- **The goroutine of a reader keeps to its generation.** -/
theorem sound (h : (protoClient setup).Reachable c) (hp : .reader r place ∈ c.threads) :
    place.Sound setup c.shared r := by
  refine thread_invariant
    (J := fun s p => ∀ r place, p = .reader r place → place.Sound setup s r) ?_ ?_ ?_ ?_ h
    _ hp r place rfl
  · exact nofun
  · rintro s threads _ _ hentry r place rfl
    cases hentry
  · rintro s p rest choice s' _ hreach hJ hstep r place rfl
    generalize hnext : some (Point.reader r place) = p' at hstep
    cases step_moves hstep with
    | pass hpass =>
      cases hnext
      cases hpass with
      | reader hreads =>
        exact hreads.sound (fun r hr => reader_mem hreach hr) (hJ _ _ rfl)
    | receive hm =>
      cases hnext
      have hg := find?_some (p := fun m : ℕ × Message => decide (m.1 = r.generation)) hm
      have hreceived := incoming_received hreach _ (mem_of_find?_eq_some hm)
      change (r.generation, _) ∈ s.record.received
      rw [← of_decide_eq_true hg]
      exact hreceived
    | launch | put | exit | leave _ hleaves =>
      cases hnext
      trivial
    | within =>
      have hraw := congrArg Point.raw (some.inj hnext)
      rw [raw_resume] at hraw
      cases hraw
    | @begin op | @commit op => cases op <;> cases hnext
    | _ => cases hnext
  · rintro s p rest choice s' p' _ _ _ _ hJ hstep r place rfl
    exact (hJ r place rfl).mono (step_moves hstep).received_mono (step_moves hstep).readers_mono

theorem Moves.delivered {d : Delivery} (h : Moves setup s p s' p') (hd : d ∈ s'.record.delivered) :
    d ∈ s.record.delivered ∨ ∃ r, p = .reader r (.put d.reader d.received d.data) := by
  cases h with
  | put =>
    rcases mem_cons.mp hd with rfl | hd
    · exact .inr ⟨_, rfl⟩
    · exact .inl hd
  | _ => exact .inl hd

/-- **A message on the channel of a reader was received on its generation, and was decoded with
its commands.** -/
theorem delivered (h : (protoClient setup).Reachable c) : ∀ d ∈ c.shared.record.delivered,
    d.reader ∈ c.shared.readers ∧ (d.reader.generation, d.received) ∈ c.shared.record.received ∧
      (d.received.err = false → Decoded setup d.reader d.received d.data) := by
  apply config_induction ?_ ?_ ?_ h
  · exact fun d hd => absurd hd not_mem_nil
  · exact fun s threads p _ hI _ => hI
  · intro s p rest choice s' p' hreach hI hstep d hd
    have hmoves := step_moves hstep
    rcases hmoves.delivered hd with hd | ⟨r, rfl⟩
    · obtain ⟨hreader, hreceived, hdecoded⟩ := hI d hd
      exact ⟨hmoves.readers_mono hreader, hmoves.received_mono hreceived, hdecoded⟩
    · obtain ⟨⟨hfound, hgeneration⟩, hreceived, hdecoded⟩ :=
        sound hreach (Multiset.mem_cons_self _ _)
      refine ⟨hmoves.readers_mono hfound, hmoves.received_mono (hgeneration ▸ hreceived),
        fun herr => ?_⟩
      obtain ⟨known, hknown, heq, hsound⟩ := hdecoded herr
      -- the reader that was asked for the descriptor is the one the message is put to
      rw [reader_unique hreach hfound hknown (hgeneration.trans heq.symm)]
      exact hsound

/-! ## Tables -/

/-- **What changes the tables.** -/
theorem Moves.tables (h : Moves setup s p s' p') (hchange : s'.tables ≠ s.tables) :
    (∃ op t a, p = .bootstrap op a (.commitBootstrap t) ∧ s.activeAttempt = some a ∧
      a ∉ s.cancelled ∧ s'.tables = { t with ready := true }) ∨
    (∃ info, p = .loadInfo info ∧ s'.tables = s.tables.loadInfo info) ∨
    ∃ route protoName, p = .addPushResponse route protoName ∧
      s'.tables = s.tables.addPushResponse route protoName := by
  cases h with
  | commit _ hactive hlive => exact .inl ⟨_, _, _, rfl, hactive, hlive, rfl⟩
  | loadInfo => exact .inr (.inl ⟨_, rfl, rfl⟩)
  | addPushResponse => exact .inr (.inr ⟨_, _, rfl, rfl⟩)
  | _ => exact absurd rfl hchange

section Bootstrap

variable {events : Run Point Choice} {e : Event Point Choice} {t : Tables}

/-- The tables of a throw-away client that was made during the run. -/
def Cloned (setup : Setup) (events : Run Point Choice) (t : Tables) : Prop :=
  ∃ before c, before <+: events ∧ (protoClient setup).system.run before = some c ∧
    t = c.shared.tables.newBootstrapClient

/-- The tables that a bootstrap ends with. -/
def Bootstrapped (setup : Setup) (events : Run Point Choice) (t : Tables) : Prop :=
  ∃ cloned docs files, Cloned setup events cloned ∧ files ≠ [] ∧
    t = (cloned.addDocs docs).buildProtosFromDescriptor files

/-- The tables of a bootstrap at each stage. -/
def Stage.Made (setup : Setup) (events : Run Point Choice) : Stage → Prop
  | .newBootstrapClient => True
  | .connectToContext t | .connected t | .docs t => Cloned setup events t
  | .descriptors t => ∃ cloned docs, Cloned setup events cloned ∧ t = cloned.addDocs docs
  | .built t | .commitBootstrap t => Bootstrapped setup events t

theorem Cloned.more (h : Cloned setup events t) : Cloned setup (events ++ [e]) t := by
  obtain ⟨before, c, hbefore, hrun, ht⟩ := h
  exact ⟨before, c, hbefore.trans (prefix_append _ _), hrun, ht⟩

theorem Bootstrapped.more (h : Bootstrapped setup events t) :
    Bootstrapped setup (events ++ [e]) t := by
  obtain ⟨cloned, docs, files, hcloned, hfiles, ht⟩ := h
  exact ⟨cloned, docs, files, hcloned.more, hfiles, ht⟩

variable {stage : Stage}

theorem Stage.Made.more (h : stage.Made setup events) : stage.Made setup (events ++ [e]) := by
  cases stage with
  | newBootstrapClient => trivial
  | connectToContext | connected | docs => exact Cloned.more h
  | descriptors =>
    obtain ⟨cloned, docs, hcloned, ht⟩ := h
    exact ⟨cloned, docs, hcloned.more, ht⟩
  | built | commitBootstrap => exact Bootstrapped.more h

theorem Stage.Made.step {stage' : Stage} {threads : Multiset Point}
    (hrun : (protoClient setup).system.run events = some ⟨s, threads⟩) (h : stage.Made setup events)
    (hstep : stage.step s a choice = some (.ok stage')) : stage'.Made setup events := by
  cases stage with
  | newBootstrapClient =>
    obtain ⟨-, ⟨⟩⟩ := ite_none_left_eq_some.mp hstep
    exact ⟨events, _, prefix_rfl, hrun, rfl⟩
  | connectToContext =>
    cases choice with
    | fail => cases hstep
    | _ =>
      simp only [Stage.step] at hstep
      split at hstep <;> cases hstep
      exact h
  | connected | built =>
    simp only [Stage.step] at hstep
    split at hstep <;> cases hstep
    exact h
  | docs t =>
    cases choice <;> cases hstep
    exact ⟨t, _, h, rfl⟩
  | descriptors =>
    obtain ⟨cloned, docs, hcloned, rfl⟩ := h
    cases choice with
    | files fs =>
      simp only [Stage.step] at hstep
      split at hstep <;> cases hstep
      next hfiles => exact ⟨cloned, docs, fs, hcloned, hfiles, rfl⟩
    | _ => cases hstep
  | commitBootstrap => cases hstep

theorem Moves.made {op : Op} (h : Moves setup s p s' (some (.bootstrap op a stage))) :
    stage = .newBootstrapClient ∨ ∃ before choice, p = .bootstrap op a before ∧
      before.step s a choice = some (.ok stage) := by
  generalize hnext : some (Point.bootstrap op a stage) = p' at h
  cases h with
  | pass hpass =>
    cases hnext
    cases hpass with
    | unready => exact .inl rfl
    | stage hstage => exact .inr ⟨_, _, rfl, hstage⟩
  | @begin op' =>
    cases op' <;> cases hnext
    exact .inl rfl
  | @commit op' => cases op' <;> cases hnext
  | within =>
    have hraw := congrArg Point.raw (some.inj hnext)
    rw [raw_resume] at hraw
    cases hraw
  | leave _ hleaves =>
    subst hnext
    cases hleaves
  | _ => cases hnext

/-- **A bootstrap has made its tables stage by stage.** -/
theorem made (hrun : (protoClient setup).system.run events = some c) {op : Op}
    (hp : .bootstrap op a stage ∈ c.threads) : stage.Made setup events := by
  refine history_invariant
    (J := fun events p => ∀ op a stage, p = .bootstrap op a stage → stage.Made setup events)
    ?_ ?_ ?_ ?_ hrun _ hp op a stage rfl
  · exact nofun
  · rintro events _ hentry op a stage rfl
    cases hentry
  · rintro events e _ hJ op a stage rfl
    exact (hJ op a stage rfl).more
  · rintro events s p rest choice s' _ hrun hJ hstep op a stage rfl
    rcases (step_moves hstep).made with rfl | ⟨before, choice, rfl, hstage⟩
    · trivial
    · exact ((hJ op a before rfl).step hrun hstage).more

/-- **A reader has the commands of when it was started.** -/
theorem snapshot (hrun : (protoClient setup).system.run events = some c) :
    ∀ r ∈ c.shared.readers, ∃ before after a choice c₀,
      events = before ++ .run (.newReader a r.generation) choice :: after ∧
      (protoClient setup).system.run before = some c₀ ∧
      r = ⟨c₀.shared.readers.length, r.generation, c₀.shared.tables.info⟩ := by
  apply System.run_induction ?_ ?_ hrun
  · exact fun r hr => absurd hr not_mem_nil
  · rintro events e ⟨s, threads⟩ c' hrun hI hstep r hr
    have hold (hr : r ∈ s.readers) : ∃ before after a choice c₀,
        events ++ [e] = before ++ .run (.newReader a r.generation) choice :: after ∧
        (protoClient setup).system.run before = some c₀ ∧
        r = ⟨c₀.shared.readers.length, r.generation, c₀.shared.tables.info⟩ := by
      obtain ⟨before, after, a, choice, c₀, rfl, hbefore, heq⟩ := hI r hr
      exact ⟨before, after ++ [e], a, choice, c₀, by simp, hbefore, heq⟩
    rcases system_step hstep with
      ⟨p, rfl, -, rfl⟩ | ⟨p, rest, choice, s', p', rfl, -, hp, rfl⟩
    · exact hold hr
    · rcases (step_moves hp).readers with hsame | ⟨a, g, rfl, hsame⟩
      · exact hold (hsame ▸ hr)
      · rcases mem_append.mp (hsame ▸ hr) with hr | hr
        · exact hold hr
        · obtain rfl := mem_singleton.mp hr
          exact ⟨events, [], a, choice, _, rfl, hrun, rfl⟩

/-- **The client exposes no half-loaded tables and mixes no connections.**  In every interleaving,
a step that changes the tables or `ready` commits what a bootstrap has made, for the active
attempt and while it is not cancelled, or is `LoadInfo` or `AddPushResponse`.  Every message but
the errors that was put on the channel of a reader was received on the generation that the reader
was started for, and was decoded with the commands as they were when it was started. -/
theorem tables_and_readers (hrun : (protoClient setup).system.run events = some c) :
    (∀ e c', (protoClient setup).system.step c e = some c' → c'.shared.tables ≠ c.shared.tables →
      (∃ op a t choice, e = .run (.bootstrap op a (.commitBootstrap t)) choice ∧
        c.shared.activeAttempt = some a ∧ a ∉ c.shared.cancelled ∧ Bootstrapped setup events t ∧
        c'.shared.tables = { t with ready := true }) ∨
      (∃ info choice, e = .run (.loadInfo info) choice ∧
        c'.shared.tables = c.shared.tables.loadInfo info) ∨
      ∃ route protoName choice, e = .run (.addPushResponse route protoName) choice ∧
        c'.shared.tables = c.shared.tables.addPushResponse route protoName) ∧
    ∀ d ∈ c.shared.record.delivered, d.received.err = false →
      (d.reader.generation, d.received) ∈ c.shared.record.received ∧
      Decoded setup d.reader d.received d.data ∧
      ∃ before after a choice c₀,
        events = before ++ .run (.newReader a d.reader.generation) choice :: after ∧
        (protoClient setup).system.run before = some c₀ ∧
        d.reader = ⟨c₀.shared.readers.length, d.reader.generation, c₀.shared.tables.info⟩ := by
  refine ⟨fun e c' hstep hchange => ?_, fun d hd herr => ?_⟩
  · rcases Program.system_step hstep with
      ⟨p, rfl, -, rfl⟩ | ⟨p, rest, choice, s', p', rfl, hc, hp, rfl⟩
    · exact absurd rfl hchange
    · rcases (step_moves hp).tables hchange with
        ⟨op, t, a, rfl, hactive, hlive, htables⟩ | ⟨info, rfl, htables⟩ |
          ⟨route, protoName, rfl, htables⟩
      · have hmem : .bootstrap op a (.commitBootstrap t) ∈ c.threads := by
          rw [hc]
          exact Multiset.mem_cons_self _ _
        exact .inl ⟨op, a, t, choice, rfl, hactive, hlive, made hrun hmem, htables⟩
      · exact .inr (.inl ⟨info, choice, rfl, htables⟩)
      · exact .inr (.inr ⟨route, protoName, choice, rfl, htables⟩)
  · obtain ⟨hreader, hreceived, hdecoded⟩ := delivered ⟨events, hrun⟩ d hd
    exact ⟨hreceived, hdecoded herr, snapshot hrun d.reader hreader⟩

/-- A goroutine goes through the points. -/
def through (points : List Point) : Run Point Choice := points.map (.run · .go)

/-- The embedded client publishes its first generation. -/
def publishes (frame : Frame) : Run Point Choice :=
  through <| List.map (.within frame)
    [.outside (.lock .connect), .entered .connect,
      .body [.newAttempt, .attempt (some 0), .state .connecting] (some (.dial 0)),
      .body [.attempt (some 0), .state .connecting] (some (.dial 0)),
      .body [.state .connecting] (some (.dial 0)), .body [] (some (.dial 0)),
      .outside (.dial 0), .outside (.lock (.dialed 0)), .entered (.dialed 0),
      .body [] (some (.handleHandshake 0)), .outside (.handleHandshake 0),
      .outside (.lock (.publish 0)), .entered (.publish 0),
      .body [.current (some 0), .connected true, .state .connected, .attempt none,
        .startGenerationLoops 0] (some (.deferred 0)),
      .body [.connected true, .state .connected, .attempt none, .startGenerationLoops 0]
        (some (.deferred 0)),
      .body [.state .connected, .attempt none, .startGenerationLoops 0] (some (.deferred 0)),
      .body [.attempt none, .startGenerationLoops 0] (some (.deferred 0)),
      .body [.startGenerationLoops 0] (some (.deferred 0)), .body [] (some (.deferred 0)),
      .outside (.deferred 0)]

/-- One handler "r" from "i" to "o". -/
def loneDocs : Docs := { handlers := [⟨[114], [105], [111]⟩] }

def loneFiles : List (List Descriptor) := [[⟨[105], []⟩, ⟨[111], []⟩]]

def loneDocumented : Tables := ({} : Tables).newBootstrapClient.addDocs loneDocs

def loneTables : Tables := loneDocumented.buildProtosFromDescriptor loneFiles

/-- Every message decodes to its own bytes. -/
def plain : Setup := { decode := fun _ data => some data, decodeStatus := some }

/-- `ConnectTo` bootstraps and the embedded client connects. -/
def connectsFirst : Run Point Choice :=
  [.call (.beginConnectAttempt .connectTo)] ++
  through [.beginConnectAttempt .connectTo, .activeAttempt .connectTo, .connectedStatus .connectTo,
    .ready 0, .bootstrap .connectTo 0 .newBootstrapClient,
    .bootstrap .connectTo 0 (.connectToContext ({} : Tables).newBootstrapClient),
    .bootstrap .connectTo 0 (.connected ({} : Tables).newBootstrapClient)] ++
  [.run (.bootstrap .connectTo 0 (.docs ({} : Tables).newBootstrapClient)) (.docs loneDocs),
   .run (.bootstrap .connectTo 0 (.descriptors loneDocumented)) (.files loneFiles)] ++
  through [.bootstrap .connectTo 0 (.built loneTables),
    .bootstrap .connectTo 0 (.commitBootstrap loneTables), .bootstrapped 0] ++
  publishes (.connectTo 0)

/-- The reader of the first generation. -/
def firstReader : Reader := ⟨0, 0, loneTables.info⟩

def lonePush : Message := { typ := .push, route := [114], data := [7] }

/-- The goroutine of the reader delivers a push. -/
def deliversPush : Run Point Choice :=
  through [.connected 0 0, .startGenerationReader 0 0, .newReader 0 0, .finishConnectAttempt 0 0] ++
  [.call (.launch firstReader), .run (.launch firstReader) .go, .call (.arrive 0 lonePush),
   .run (.arrive 0 lonePush) .go] ++
  through (List.map (.reader firstReader) [.waitForData, .received lonePush, .describe lonePush,
    .deliverProtoMessage lonePush [7], .put firstReader lonePush [7]])

/-- `ConnectTo`, and then a push on its generation. -/
theorem tables_and_readers_push : ∃ c,
    (protoClient plain).system.run (connectsFirst ++ deliversPush) = some c ∧
    Decoded plain firstReader lonePush [7] ∧
    c.shared.record.delivered = [⟨firstReader, lonePush, [7]⟩] := by
  refine reaches_and (by decide +kernel) fun c hc hdelivered => ?_
  have hd : ⟨firstReader, lonePush, [7]⟩ ∈ c.shared.record.delivered := by
    rw [hdelivered]
    exact List.mem_singleton_self _
  exact ((tables_and_readers hc).2 _ hd rfl).2.1

end Bootstrap

end Pitaya.Client.Proto
