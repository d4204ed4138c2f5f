import Pitaya.Client.Progress
import Pitaya.Client.Proto.Readers

/-!
# What the goroutines of the client with descriptors wait for

* `Comes` — how a goroutine comes to be where it is in the embedded client; `dials`, `abandons` —
  what it does there on whose behalf.
* `latest` — no generation but that of the attempt under way is current, and so
  `awaitReader_closing`: `startGenerationReader` waits for a reader whose generation is closing.
* `reader_runs` — a reader has ended, or its goroutine runs or is yet to.
* `awaited_attempt` — an attempt that `OnDisconnected` waits for is active or done.
-/

namespace Pitaya.Client.Proto

open Transition Threads Conn Multiset Option Program

variable {setup : Setup} {s s' : Shared} {p q : Point} {p' : Option Point}
  {rest : Multiset Point} {choice : Choice} {c : Config Shared Point} {a b g n : ℕ}
  {f : Frame} {r : Connection.Point}

/-! ## On whose behalf -/

/-- On whose behalf the goroutine is inside the embedded client. -/
def Point.frame : Point → Option Frame
  | .within frame _ | .onDisconnected frame _ | .awaitAttempt frame _ _ => some frame
  | _ => none

@[simp] theorem frame_resume (frame : Frame) (p : Connection.Point) :
    (resume frame p).frame = some frame := by
  cases p with
  | outside o => cases o <;> rfl
  | _ => rfl

/-- How a goroutine comes to be where it is in the embedded client. -/
inductive Comes (s : Shared) : Point → Frame → Connection.Point → Prop
  | same {p : Point} {frame : Frame} {r : Connection.Point} (hframe : p.frame = some frame)
      (hraw : p.raw = some r) : Comes s p frame r
  | step {frame : Frame} {p r : Connection.Point} {choice : Connection.Choice}
      {client : Connection.Shared}
      (hraw : Connection.step (s.adopt frame p).client p choice = some (client, some r)) :
      Comes s (.within frame p) frame r
  | connect {a : ℕ} : Comes s (.bootstrapped a) (.connectTo a) (.outside (.lock .connect))
  | disconnect {a : Option ℕ} :
      Comes s (.cancelledFound a) (.disconnect a) (.outside (.lock .disconnect))
  | abandon {p : Point} {a g : ℕ} (hg : p.generation = some g) :
      Comes s p (.abandon a) (.outside (.holder g))

theorem Passes.comes (h : Passes setup s p q) (hframe : q.frame = some f)
    (hraw : q.raw = some r) : Comes s p f r := by
  cases h with
  | connect =>
    cases hframe
    cases hraw
    exact .connect
  | callback | await | awaited => exact .same hframe hraw
  | _ => cases hframe

theorem Moves.comes (h : Moves setup s p s' (some q)) (hframe : q.frame = some f)
    (hraw : q.raw = some r) : Comes s p f r := by
  generalize hnext : some q = p' at h
  cases h with
  | pass hpass =>
    cases hnext
    exact hpass.comes hframe hraw
  | within hstep =>
    cases hnext
    cases (frame_resume _ _).symm.trans hframe
    cases (raw_resume _ _).symm.trans hraw
    exact .step hstep
  | leave _ hleaves =>
    subst hnext
    cases hleaves <;> cases hframe
  | abandon _ hp =>
    cases hnext
    cases hframe
    cases hraw
    rcases hp with rfl | ⟨rfl, -⟩ <;> exact .abandon rfl
  | cancelledFound =>
    cases hnext
    cases hframe
    cases hraw
    exact .disconnect
  | @begin op | @commit op => cases op <;> cases hnext <;> cases hframe
  | _ => cases hnext <;> cases hframe

def Frame.dials : Frame → Bool
  | .connectTo _ => true
  | _ => false

theorem entry_frame (h : entry p = true) (hframe : p.frame = some f) (hraw : p.raw = some r) :
    f = .background ∧ r.Dials false := by
  simp only [entry] at h
  split at h
  all_goals first
    | cases hframe
      cases hraw
      exact ⟨rfl, rfl⟩
    | cases hframe
    | cases h

/-- **Only on behalf of an attempt does a goroutine connect.** -/
theorem dials (h : (protoClient setup).Reachable c) (hp : p ∈ c.threads)
    (hframe : p.frame = some f) (hraw : p.raw = some r) : r.Dials f.dials := by
  refine thread_invariant
    (J := fun _ p => ∀ f r, p.frame = some f → p.raw = some r → r.Dials f.dials)
    ?_ ?_ ?_ ?_ h p hp f r hframe hraw
  · exact nofun
  · intro s threads p _ hentry f r hframe hraw
    obtain ⟨rfl, hdials⟩ := entry_frame hentry hframe hraw
    exact hdials
  · intro s p rest choice s' q _ hJ hstep f r hframe hraw
    cases (step_moves hstep).comes hframe hraw with
    | same hframe hraw => exact hJ _ _ hframe hraw
    | step hraw => exact Connection.step_dials (hJ _ _ rfl rfl) hraw
    | _ => rfl
  · exact fun _ _ _ _ _ _ _ _ _ _ hJ _ => hJ

/-- **Who abandons an attempt closes a generation.** -/
theorem abandons (h : (protoClient setup).Reachable c) (hp : p ∈ c.threads)
    (hframe : p.frame = some (.abandon a)) (hraw : p.raw = some r) :
    (∃ g ∈ c.shared.client.started, r = .outside (.holder g)) ∨ ∃ g, r.closes = some g := by
  refine thread_invariant
    (J := fun s p => ∀ a r, p.frame = some (.abandon a) → p.raw = some r →
      (∃ g ∈ s.client.started, r = .outside (.holder g)) ∨ ∃ g, r.closes = some g)
    ?_ ?_ ?_ ?_ h p hp a r hframe hraw
  · exact nofun
  · intro s threads p _ hentry a r hframe hraw
    cases (entry_frame hentry hframe hraw).1
  · intro s p rest choice s' q hreach hJ hstep a r hframe hraw
    have hmoves := step_moves hstep
    have hkeep (h : (∃ g ∈ s.client.started, r = .outside (.holder g)) ∨ ∃ g, r.closes = some g) :
        (∃ g ∈ s'.client.started, r = .outside (.holder g)) ∨ ∃ g, r.closes = some g := by
      refine h.imp_left ?_
      rintro ⟨g, hg, hr⟩
      exact ⟨g, hmoves.started_mono hg, hr⟩
    cases hmoves.comes hframe hraw with
    | same hframe hraw => exact hkeep (hJ _ _ hframe hraw)
    | step hraw =>
      rcases hJ _ _ rfl rfl with ⟨g, -, rfl⟩ | ⟨g, hcloses⟩
      · obtain ⟨-, ⟨⟩⟩ := ite_none_right_eq_some.mp hraw
        exact .inr ⟨g, rfl⟩
      · exact .inr ⟨g, Connection.step_closes hraw hcloses⟩
    | abandon hg =>
      exact hkeep (.inl ⟨_, generation_started hreach (mem_cons_self _ _) hg, rfl⟩)
  · intro s p rest choice s' p' q _ _ _ hJ hstep a r hframe hraw
    refine (hJ a r hframe hraw).imp_left ?_
    rintro ⟨g, hg, hr⟩
    exact ⟨g, (step_moves hstep).started_mono hg, hr⟩

/-! ## The generation of the attempt under way -/

theorem Moves.publishes (h : Moves setup s p s' p') :
    (∀ g, s'.client.guarded.current = some g → s.client.guarded.current = some g ∨
      ∃ r, p.raw = some r ∧ .current (some g) ∈ r.todo) ∧
    ∀ n ∈ s'.client.guarded.became, n ∈ s.client.guarded.became ∨
      ∃ r, p.raw = some r ∧ .current (some n) ∈ r.todo := by
  have hinside := h.inside
  generalize p.raw = before at hinside ⊢
  generalize p'.bind Point.raw = after at hinside
  cases hinside with
  | same hclient | call hclient =>
    rw [hclient.guarded]
    exact ⟨fun g hg => .inl hg, fun n hn => .inl hn⟩
  | step hraw =>
    have hmoves := Connection.step_moves hraw
    rw [← (expires_adopt s _ _).guarded]
    refine ⟨fun g hg => (hmoves.current hg).imp_right fun hmem => ⟨_, rfl, hmem⟩,
      fun n hn => (hmoves.became hn).imp_right fun hmem => ⟨_, rfl, hmem⟩⟩

theorem publisher (h : (protoClient setup).Reachable c) (hp : p ∈ c.threads) (hraw : p.raw = some r)
    (hmem : .current (some n) ∈ r.todo) : ∃ a, p = .within (.connectTo a) r := by
  have hr : r ∈ (raw c).threads := (mem_filterMap _ _).mpr ⟨p, hp, hraw⟩
  have hno (hdials : r.Dials false) : False :=
    Connection.todo_of_dials (raw_reachable h) hr hdials hmem
  cases p with
  | within frame =>
    cases hraw
    cases frame with
    | connectTo a => exact ⟨a, rfl⟩
    | _ => exact (hno (dials h hp rfl rfl)).elim
  | onDisconnected | awaitAttempt =>
    cases hraw
    cases hmem
  | _ => cases hraw

/-- **No generation but that of the attempt under way is current.** -/
theorem latest (h : (protoClient setup).Reachable c) (hp : p ∈ c.threads) (hn : p.carries = some n)
    (hbecame : n ∈ c.shared.client.guarded.became) (hg : c.shared.client.guarded.current = some g) :
    g = n := by
  refine thread_invariant
    (J := fun s p => ∀ n, p.carries = some n → n ∈ s.client.guarded.became →
      ∀ g, s.client.guarded.current = some g → g = n) ?_ ?_ ?_ ?_ h p hp n hn hbecame g hg
  · exact nofun
  · intro s threads p _ hentry n hn
    simp only [protoClient, entry] at hentry
    split at hentry
    all_goals first
      | cases hn
      | cases hentry
  · intro s p rest choice s' q hreach hJ hstep n hn hbecame g hg
    have hself : p ∈ p ::ₘ rest := mem_cons_self p rest
    have hmoves := step_moves hstep
    have hrawReach := raw_reachable hreach
    rw [raw_cons] at hrawReach
    -- who publishes a generation carries it, and nothing is current
    have hgoing (m : ℕ) (r : Connection.Point) (hraw : p.raw = some r)
        (hmem : .current (some m) ∈ r.todo) :
        p.carries = some m ∧ s.client.guarded.current = none := by
      obtain ⟨a, rfl⟩ := publisher hreach hself hraw hmem
      cases r with
      | body =>
        obtain ⟨-, -, -, hcurrent, -, rfl⟩ := (Connection.going_head hrawReach).current hmem
        exact ⟨rfl, hcurrent⟩
      | _ => cases hmem
    have hpublishes := hmoves.publishes
    rcases hmoves.carries hn with hp | ⟨a, rfl, rfl⟩
    · rcases hpublishes.1 g hg with hcurrent | ⟨r, hraw, hmem⟩
      · rcases hpublishes.2 n hbecame with hbecame | ⟨r, hraw, hmem⟩
        · exact hJ n hp hbecame g hcurrent
        · cases (hgoing n r hraw hmem).2.symm.trans hcurrent
      · exact some.inj ((hgoing g r hraw hmem).1.symm.trans hp)
    · -- the attempt is new
      rcases hpublishes.2 _ hbecame with hbecame | ⟨r, hraw, hmem⟩
      · have hbound := (Connection.consistent_of_entered hrawReach).bound _ (.inr hbecame)
        exact absurd hbound (Nat.lt_irrefl _)
      · cases hraw
        cases hmem
  · intro s p rest choice s' p' q hreach hq _ hJ hstep n hn hbecame g hg
    obtain ⟨b, hb⟩ := owner_of_carries hn
    have hno (m : ℕ) : ¬ ∃ r, p.raw = some r ∧ .current (some m) ∈ r.todo := by
      rintro ⟨r, hraw, hmem⟩
      obtain ⟨a, rfl⟩ := publisher hreach (mem_cons_self _ _) hraw hmem
      exact owner_alone hreach rfl hq b hb
    have hpublishes := (step_moves hstep).publishes
    have hcurrent := (hpublishes.1 g hg).resolve_right (hno g)
    have hbecame := (hpublishes.2 n hbecame).resolve_right (hno n)
    exact hJ n hn hbecame g hcurrent

/-! ## Readers -/

theorem Moves.awaitReader {previous : Reader}
    (h : Moves setup s p s' (some (.awaitReader a g previous))) :
    s.reader = some previous ∧ previous.generation ≠ g := by
  generalize hnext : some (Point.awaitReader a g previous) = p' at h
  cases h with
  | pass hpass =>
    cases hnext
    cases hpass with
    | awaitReader hprevious hgeneration => exact ⟨hprevious, hgeneration⟩
  | @begin op | @commit op => cases op <;> cases hnext
  | within =>
    have hraw := congrArg Point.raw (some.inj hnext)
    rw [raw_resume] at hraw
    cases hraw
  | leave _ hleaves =>
    subst hnext
    cases hleaves
  | _ => cases hnext

theorem awaited_reader (h : (protoClient setup).Reachable c) {previous : Reader}
    (hp : .awaitReader a g previous ∈ c.threads) :
    previous ∈ c.shared.readers ∧ previous.generation ≠ g := by
  refine thread_invariant
    (J := fun s p => ∀ a g previous, p = .awaitReader a g previous →
      previous ∈ s.readers ∧ previous.generation ≠ g) ?_ ?_ ?_ ?_ h _ hp a g previous rfl
  · exact nofun
  · rintro s threads _ _ hentry a g previous rfl
    cases hentry
  · rintro s p rest choice s' _ hreach _ hstep a g previous rfl
    have hmoves := step_moves hstep
    obtain ⟨hreader, hgeneration⟩ := hmoves.awaitReader
    exact ⟨hmoves.readers_mono (reader_mem hreach hreader), hgeneration⟩
  · rintro s p rest choice s' p' _ _ _ _ hJ hstep a g previous rfl
    exact (hJ a g previous rfl).imp_left fun hmem => (step_moves hstep).readers_mono hmem

/-- **The reader that an attempt waits for has a generation that is closing.** -/
theorem awaitReader_closing (h : (protoClient setup).Reachable c) {previous : Reader}
    (hp : .awaitReader a g previous ∈ c.threads) :
    previous.generation ∈ c.shared.client.closing := by
  have hraw := raw_reachable h
  have hstarted := (Connection.closing hraw).started
  obtain ⟨hmem, hgeneration⟩ := awaited_reader h hp
  have hprevious := hstarted _ (readers_started h previous hmem)
  have hg := hstarted _ (generation_started h hp rfl)
  rcases Connection.became_closing hraw _ hprevious with hclosing | hcurrent
  · exact hclosing
  · exact absurd (latest h hp rfl hg hcurrent) hgeneration

theorem Moves.ended_mono (h : Moves setup s p s' p') : s.ended ⊆ s'.ended := by
  cases h with
  | closeDone => exact Finset.subset_insert _ _
  | _ => exact Finset.Subset.refl _

theorem Moves.launched {r : Reader} (h : Moves setup s p s' p') (hr : r ∈ s.launched) :
    r ∈ s'.launched ∨ p' = some (.reader r .waitForData) := by
  cases h with
  | newReader => exact .inl (List.mem_cons_of_mem _ hr)
  | @launch r' =>
    by_cases heq : r = r'
    · subst heq
      exact .inr rfl
    · exact .inl ((List.mem_erase_of_ne heq).mpr hr)
  | _ => exact .inl hr

theorem Moves.reads {r : Reader} {place : Reading} (h : Moves setup s (.reader r place) s' p') :
    (∃ place', p' = some (.reader r place')) ∨ r.id ∈ s'.ended := by
  cases h with
  | pass hpass =>
    cases hpass
    exact .inl ⟨_, rfl⟩
  | refuse hrole => cases hrole
  | abandon _ hp => rcases hp with hp | ⟨hp, -⟩ <;> cases hp
  | receive | put | exit => exact .inl ⟨_, rfl⟩
  | closeDone => exact .inr (Finset.mem_insert_self _ _)

/-- **A reader has ended, or its goroutine runs or is yet to.** -/
theorem reader_runs (h : (protoClient setup).Reachable c) : ∀ r ∈ c.shared.readers,
    r.id ∈ c.shared.ended ∨ r ∈ c.shared.launched ∨ ∃ place, .reader r place ∈ c.threads := by
  apply config_induction
    ?_ ?_ ?_ h
  · exact fun r hr => absurd hr List.not_mem_nil
  · intro s threads p _ hI _ r hr
    refine (hI r hr).imp_right (Or.imp_right ?_)
    rintro ⟨place, hplace⟩
    exact ⟨place, mem_cons_of_mem hplace⟩
  · intro s p rest choice s' p' _ hI hstep r hr
    have hmoves := step_moves hstep
    have hold (hr : r ∈ s.readers) : r.id ∈ s'.ended ∨ r ∈ s'.launched ∨
        ∃ place, .reader r place ∈ rejoin p' rest := by
      rcases hI r hr with hended | hlaunched | ⟨place, hplace⟩
      · exact .inl (hmoves.ended_mono hended)
      · refine .inr ((hmoves.launched hlaunched).imp_right ?_)
        rintro rfl
        exact ⟨_, mem_cons_self _ _⟩
      · rcases mem_cons.mp hplace with rfl | hplace
        · rcases hmoves.reads with ⟨place', rfl⟩ | hended
          · exact .inr (.inr ⟨place', mem_cons_self _ _⟩)
          · exact .inl hended
        · exact .inr (.inr ⟨place, mem_rejoin.mpr (.inr hplace)⟩)
    rcases hmoves.readers with hsame | ⟨a, g, rfl, hsame⟩
    · exact hold (hsame ▸ hr)
    · rcases List.mem_append.mp (hsame ▸ hr) with hr | hr
      · exact hold hr
      · obtain rfl := List.mem_singleton.mp hr
        cases hmoves with
        | pass hpass => cases hpass
        | refuse hrole => cases hrole
        | abandon _ hp => rcases hp with hp | ⟨hp, -⟩ <;> cases hp
        | newReader => exact .inr (.inl List.mem_cons_self)

/-! ## Attempts -/

theorem Moves.awaitAttempt {f : Frame} (h : Moves setup s p s' (some (.awaitAttempt f g b))) :
    s'.activeAttempt = some b := by
  generalize hnext : some (Point.awaitAttempt f g b) = p' at h
  cases h with
  | pass hpass =>
    cases hnext
    cases hpass with
    | await hactive => exact hactive
  | @begin op | @commit op => cases op <;> cases hnext
  | @within f' r choice client q =>
    cases q with
    | outside o => cases o <;> cases hnext
    | _ => cases hnext
  | leave _ hleaves =>
    subst hnext
    cases hleaves
  | _ => cases hnext

/-- **The attempt that `OnDisconnected` waits for is active, or it is done.** -/
theorem awaited_attempt (h : (protoClient setup).Reachable c)
    (hp : .awaitAttempt f g b ∈ c.threads) :
    c.shared.activeAttempt = some b ∨ b ∈ c.shared.done := by
  refine thread_invariant
    (J := fun s p => ∀ f g b, p = .awaitAttempt f g b → s.activeAttempt = some b ∨ b ∈ s.done)
    ?_ ?_ ?_ ?_ h _ hp f g b rfl
  · exact nofun
  · rintro s threads _ _ hentry f g b rfl
    cases hentry
  · rintro s p rest choice s' _ _ _ hstep f g b rfl
    exact .inl (step_moves hstep).awaitAttempt
  · rintro s p rest choice s' p' _ hreach _ _ hJ hstep f g b rfl
    have hmoves := step_moves hstep
    rcases hJ f g b rfl with hactive | hdone
    · exact hmoves.active hreach hactive
    · exact .inr (hmoves.done_mono hdone)

end Pitaya.Client.Proto
