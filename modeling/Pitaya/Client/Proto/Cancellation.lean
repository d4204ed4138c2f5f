import Pitaya.Client.Closing
import Pitaya.Client.Proto.Attempts

/-!
# Disconnect cancels the attempt under way

* `propagated` — a cancelled attempt has cancelled the attempts of the embedded client that were
  made under it.
* `observed` — an attempt that a `Disconnect` has found active is cancelled before it can finish,
  and `ConnectTo` does not succeed.
-/

namespace Pitaya.Client.Proto

open Transition Threads Conn Multiset Option Program

variable {setup : Setup} {s s' : Shared} {p q : Point} {p' : Option Point}
  {rest : Multiset Point} {choice : Choice} {c : Config Shared Point} {a n : ℕ} {o : Option ℕ}

/-! ## Cancelled contexts -/

theorem Moves.cancelled_mono (h : Moves setup s p s' p') : s.cancelled ⊆ s'.cancelled := by
  cases h with
  | deferred | succeed | abandon => exact Finset.subset_insert _ _
  | @found a =>
    cases a with
    | none => exact Finset.Subset.refl _
    | some => exact Finset.subset_insert _ _
  | _ => exact Finset.Subset.refl _

/-- Every attempt of the embedded client made under a cancelled one is cancelled. -/
def Propagated (s : Shared) : Prop :=
  ∀ n a, (n, a) ∈ s.made → a ∈ s.cancelled → n ∈ s.client.cancelled

theorem Propagated.cancel (h : Propagated s) (a : ℕ) : Propagated (s.cancel a) := by
  intro n b hmade hb
  rcases Finset.mem_insert.mp hb with rfl | hb
  · refine Finset.mem_union_right _ (List.mem_toFinset.mpr ?_)
    exact List.mem_map.mpr ⟨(n, b), List.mem_filter.mpr ⟨hmade, decide_eq_true rfl⟩, rfl⟩
  · exact Finset.mem_union_left _ (h n b hmade hb)

theorem made_adopt {frame : Frame} {p : Connection.Point} (h : (n, a) ∈ (s.adopt frame p).made) :
    (n, a) ∈ s.made ∨
      frame = .connectTo a ∧ n = s.client.guarded.attempts ∧
        ∃ todo next, p = .body (.newAttempt :: todo) next := by
  simp only [Shared.adopt] at h
  split at h
  · rcases List.mem_cons.mp h with h | h
    · cases h
      exact .inr ⟨rfl, rfl, _, _, rfl⟩
    · exact .inl h
  · exact .inl h

theorem cancelled_adopt (s : Shared) (frame : Frame) (p : Connection.Point) :
    (s.adopt frame p).cancelled = s.cancelled := by
  rw [adopt_shared]

theorem Propagated.adopt (h : Propagated s) (frame : Frame) (p : Connection.Point) :
    Propagated (s.adopt frame p) := by
  intro n a hmade ha
  rw [cancelled_adopt] at ha
  rcases made_adopt hmade with hmade | ⟨rfl, rfl, todo, next, rfl⟩
  · exact (expires_adopt s frame p).cancelled (h n a hmade ha)
  · simp only [Shared.adopt, if_pos ha]
    exact Finset.mem_insert_self _ _

theorem Propagated.within (h : Propagated s) {frame : Frame} {q : Connection.Point}
    {choice : Connection.Choice} {client : Connection.Shared} {o : Option Connection.Point}
    {record : Record}
    (hraw : Connection.step (s.adopt frame q).client q choice = some (client, o)) :
    Propagated
      { s with client := client, made := (s.adopt frame q).made, record := record } := by
  intro n a hmem ha
  rw [← cancelled_adopt s frame q] at ha
  exact (Connection.step_moves hraw).cancelled_mono (h.adopt frame q n a hmem ha)

/-- **Cancelling an attempt reaches the embedded client.** -/
theorem propagated (h : (protoClient setup).Reachable c) : Propagated c.shared := by
  refine shared_invariant (J := Propagated) ?_ ?_ h
  · exact fun n a hmade => absurd hmade List.not_mem_nil
  · intro s p choice s' p' hJ hstep
    cases step_moves hstep with
    | deferred | succeed | abandon =>
      exact Propagated.cancel (s := { s with activeAttempt := _ }) hJ _
    | @found a =>
      cases a with
      | none => exact hJ
      | some a => exact hJ.cancel a
    | within hraw | leave hraw => exact hJ.within hraw
    | _ => exact hJ

/-! ## What ConnectTo returns -/

theorem Moves.observed (h : Moves setup s p s' p') (ha : a ∈ s'.record.observed) :
    a ∈ s.record.observed ∨ p' = some (.found (some a)) ∧ s.activeAttempt = some a := by
  cases h with
  | disconnect =>
    cases hactive : s.activeAttempt with
    | none =>
      rw [hactive] at ha
      exact .inl ha
    | some =>
      rw [hactive] at ha
      rcases List.mem_cons.mp ha with rfl | ha
      · exact .inr ⟨rfl, rfl⟩
      · exact .inl ha
  | _ => exact .inl ha

theorem Moves.deferred_err (h : Moves setup s p s' (some (.deferred .connectTo a none))) :
    False := by
  generalize hnext : some (Point.deferred .connectTo a none) = p' at h
  cases h with
  | pass hpass =>
    cases hnext
    cases hpass
  | @begin op | @commit op => cases op <;> cases hnext
  | @within frame p choice client q =>
    have hraw := congrArg Point.raw (some.inj hnext)
    rw [raw_resume] at hraw
    cases hraw
  | leave _ hleaves =>
    subst hnext
    cases hleaves
  | _ => cases hnext

theorem deferred_err (h : (protoClient setup).Reachable c) :
    .deferred .connectTo a none ∉ c.threads := by
  intro hp
  refine thread_invariant
    (J := fun _ p => p ≠ .deferred .connectTo a none) ?_ ?_ ?_ ?_ h _ hp rfl
  · exact nofun
  · rintro s threads _ _ hentry rfl
    cases hentry
  · rintro s p rest choice s' _ _ _ hstep rfl
    exact (step_moves hstep).deferred_err
  · exact fun _ _ _ _ _ _ _ _ _ _ hq _ => hq

theorem Moves.succeeds (h : Moves setup s p s' p')
    (ha : (.connectTo, a, none) ∈ s'.record.results) :
    (.connectTo, a, none) ∈ s.record.results ∨ p = .deferred .connectTo a none ∨
      p' = none ∧ s.free = true ∧ a ∉ s.cancelled ∧ a ∈ s'.done := by
  cases h with
  | deferred =>
    rcases List.mem_cons.mp ha with ha | ha
    · cases ha
      exact .inr (.inl rfl)
    · exact .inl ha
  | succeed hfree hlive =>
    rcases List.mem_cons.mp ha with ha | ha
    · cases ha
      exact .inr (.inr ⟨rfl, hfree, hlive, Finset.mem_insert_self _ _⟩)
    · exact .inl ha
  | leave _ hleaves =>
    cases hleaves with
    | abandoned => exact .inl ((List.mem_cons.mp ha).resolve_left nofun)
    | _ => exact .inl ha
  | _ => exact .inl ha

/-- An attempt that was found active is cancelled, or about to be, and does not succeed. -/
structure Observed (c : Config Shared Point) : Prop where
  cancelled : ∀ a ∈ c.shared.record.observed, a ∈ c.shared.cancelled ∨ .found (some a) ∈ c.threads
  succeeded : ∀ a, (.connectTo, a, none) ∈ c.shared.record.results →
    a ∈ c.shared.done ∧ a ∉ c.shared.record.observed

theorem Observed.step (hreach : (protoClient setup).Reachable ⟨s, p ::ₘ rest⟩)
    (h : Observed ⟨s, p ::ₘ rest⟩) (hmoves : Moves setup s p s' p') :
    Observed ⟨s', rejoin p' rest⟩ := by
  refine ⟨fun a ha => ?_, fun a ha => ?_⟩
  · rcases hmoves.observed ha with ha | ⟨rfl, -⟩
    · rcases h.cancelled a ha with hcancelled | hfound
      · exact .inl (hmoves.cancelled_mono hcancelled)
      · rcases mem_cons.mp hfound with rfl | hfound
        · -- who found the attempt cancels it
          cases hmoves with
          | pass hpass => cases hpass
          | refuse hrole => cases hrole
          | abandon _ hp => rcases hp with hp | ⟨hp, -⟩ <;> cases hp
          | found => exact .inl (Finset.mem_insert_self _ _)
        · exact .inr (mem_rejoin.mpr (.inr hfound))
    · exact .inr (mem_rejoin.mpr (.inl rfl))
  · rcases hmoves.succeeds ha with ha | rfl | ⟨hend, hfree, hlive, hdone⟩
    · obtain ⟨hdone, hunobserved⟩ := h.succeeded a ha
      refine ⟨hmoves.done_mono hdone, fun hobserved => ?_⟩
      -- an attempt that is found active is not done
      rcases hmoves.observed hobserved with hobserved | ⟨-, hactive⟩
      · exact hunobserved hobserved
      · exact ((owned hreach).active a hactive).2 hdone
    · exact absurd (mem_cons_self _ _) (deferred_err hreach)
    · refine ⟨hdone, fun hobserved => ?_⟩
      -- nobody holds `stateMu` for reading
      have hreading := Shared.reading_of_free hfree
      rcases hmoves.observed hobserved with hobserved | ⟨hfound, -⟩
      · rcases h.cancelled a hobserved with hcancelled | hfound
        · exact hlive hcancelled
        · exact not_reader_of_free hreach hreading hfound rfl
      · cases hend.symm.trans hfound

/-- **An attempt that was found active does not succeed.** -/
theorem observed (h : (protoClient setup).Reachable c) : Observed c := by
  refine config_induction ?_ ?_ ?_ h
  · exact ⟨fun a ha => absurd ha List.not_mem_nil, fun a ha => absurd ha List.not_mem_nil⟩
  · intro s threads p _ hI _
    exact ⟨fun a ha => (hI.cancelled a ha).imp_right mem_cons_of_mem, hI.succeeded⟩
  · exact fun s p rest choice s' p' hreach hI hstep => hI.step hreach (step_moves hstep)

/-! ## The generations of a cancelled attempt -/

/-- The attempt is cancelled, nobody is about to publish a generation of it, and the only one that
may be current is `o`. -/
structure Halting (a : ℕ) (o : Option ℕ) (c : Config Shared Point) : Prop where
  cancelled : a ∈ c.shared.cancelled
  unpublished : ∀ n, (n, a) ∈ c.shared.made →
    ∀ p ∈ (raw c).threads, .current (some n) ∉ p.todo
  current : ∀ n, (n, a) ∈ c.shared.made → c.shared.client.guarded.current = some n → o = some n

theorem Halting.mono {o' : Option ℕ} (h : Halting a o c) (ho : ∀ g, o = some g → o' = some g) :
    Halting a o' c :=
  ⟨h.cancelled, h.unpublished, fun n hmade hcurrent => ho n (h.current n hmade hcurrent)⟩

theorem Halting.call {threads : Multiset Point} (h : Halting a o ⟨s, threads⟩)
    (hentry : entry p = true) : Halting a o ⟨s, p ::ₘ threads⟩ := by
  refine ⟨h.cancelled, fun n hmade q hq => ?_, h.current⟩
  rw [raw_cons] at hq
  rcases mem_rejoin.mp hq with hq | hq
  · rcases entry_raw hentry with hraw | ⟨q', hraw, hq'⟩
    · cases hraw.symm.trans hq
    · cases hraw.symm.trans hq
      rw [Connection.todo_of_entry hq']
      exact List.not_mem_nil
  · exact h.unpublished n hmade q hq

/-- **A cancelled attempt publishes nothing.** -/
theorem Halting.step (hreach : (protoClient setup).Reachable ⟨s, p ::ₘ rest⟩)
    (h : Halting a o ⟨s, p ::ₘ rest⟩) (hmoves : Moves setup s p s' p') :
    Halting a o ⟨s', rejoin p' rest⟩ := by
  have hraw := raw_reachable hreach
  have hunpublished := h.unpublished
  have hchildren := propagated hreach
  rw [raw_cons] at hraw hunpublished
  have hinside := hmoves.inside
  suffices hgoal : ∀ n, (n, a) ∈ s'.made →
      (∀ p ∈ rejoin (p'.bind Point.raw) (rest.filterMap Point.raw), .current (some n) ∉ p.todo) ∧
      (s'.client.guarded.current = some n → o = some n) by
    refine ⟨hmoves.cancelled_mono h.cancelled, fun n hmade => ?_, fun n hmade => (hgoal n hmade).2⟩
    rw [raw_rejoin]
    exact (hgoal n hmade).1
  intro n hmade
  generalize p.raw = before at *
  generalize p'.bind Point.raw = after at *
  cases hinside with
  | same hclient hsame =>
    rw [hsame] at hmade
    rw [hclient.guarded]
    exact ⟨hunpublished n hmade, h.current n hmade⟩
  | call hclient hsame hentry =>
    rw [hsame] at hmade
    rw [hclient.guarded]
    refine ⟨fun q hq => ?_, h.current n hmade⟩
    rcases mem_rejoin.mp hq with hq | hq
    · cases hq
      rw [Connection.todo_of_entry hentry]
      exact List.not_mem_nil
    · exact hunpublished n hmade q hq
  | @step frame q choice after hstep hsame =>
    rw [hsame] at hmade
    have hadopt := (expires_adopt s frame q).reachable hraw
    have hrawMoves := Connection.step_moves hstep
    have hguarded := (expires_adopt s frame q).guarded
    have hself : q ∈ q ::ₘ rest.filterMap Point.raw := mem_cons_self _ _
    rcases made_adopt hmade with hmade | ⟨rfl, rfl, todo, next, rfl⟩
    · have hlive := (expires_adopt s frame q).cancelled (hchildren n a hmade h.cancelled)
      refine ⟨fun q' hq' => ?_, fun hcurrent => ?_⟩
      · rcases mem_rejoin.mp hq' with rfl | hq'
        · intro hmem
          rcases hrawMoves.publishes hmem with hmem | ⟨-, -, hdead⟩
          · exact hunpublished n hmade q hself hmem
          · exact hdead hlive
        · exact hunpublished n hmade q' (mem_cons_of_mem hq')
      · rcases hrawMoves.current hcurrent with hcurrent | hmem
        · rw [hguarded] at hcurrent
          exact h.current n hmade hcurrent
        · exact absurd hmem (hunpublished n hmade q hself)
    · -- the attempt is just being made, and nothing is current
      obtain ⟨hvacant, hno, -⟩ := (Connection.going_head hadopt).newAttempt
      obtain ⟨hclient, rfl⟩ := Prod.mk.inj (some.inj hstep)
      refine ⟨fun q' hq' => ?_, fun hcurrent => ?_⟩
      · rcases mem_rejoin.mp hq' with hq' | hq'
        · cases hq'
          exact hno _
        · rw [Connection.todo_of_alone hadopt rfl hq']
          exact List.not_mem_nil
      · rw [← hclient] at hcurrent
        cases hvacant.symm.trans hcurrent

/-! ## Disconnect -/

def Frame.disconnects : Frame → Option ℕ
  | .disconnect a => a
  | _ => none

/-- The attempt that the goroutine, in `Disconnect`, has found and cancelled. -/
def Point.disconnects : Point → Option ℕ
  | .cancelledFound a => a
  | .within frame _ | .onDisconnected frame _ | .awaitAttempt frame _ _ => frame.disconnects
  | .awaitDone a => some a
  | _ => none

/-- `Disconnect` of the embedded client is yet to look for what to close. -/
def Point.entering : Point → Bool
  | .cancelledFound _ | .within _ (.outside (.lock .disconnect))
  | .within _ (.entered .disconnect) => true
  | _ => false

/-- The generation that the goroutine is closing. -/
def Point.closes (p : Point) : Option ℕ := p.raw.bind Connection.Point.closes

/-- Who has found an attempt active has cancelled it; once it has looked for what to close, it
closes what is current of that attempt, and nothing is when it returns. -/
structure Disconnecting (c : Config Shared Point) : Prop where
  cancelled : ∀ p ∈ c.threads, ∀ a, p.disconnects = some a → a ∈ c.shared.cancelled
  halting : ∀ p ∈ c.threads, ∀ a, p.disconnects = some a → p.entering = false →
    Halting a p.closes c
  returned : ∀ a ∈ c.shared.record.disconnected, Halting a none c

theorem Disconnecting.call {threads : Multiset Point} (h : Disconnecting ⟨s, threads⟩)
    (hentry : entry p = true) : Disconnecting ⟨s, p ::ₘ threads⟩ := by
  have hself : p.disconnects = none := by
    simp only [entry] at hentry
    split at hentry
    all_goals first
      | rfl
      | cases hentry
  refine ⟨fun q hq a ha => ?_, fun q hq a ha hentered => ?_,
    fun a ha => (h.returned a ha).call hentry⟩
  · rcases mem_cons.mp hq with rfl | hq
    · cases hself.symm.trans ha
    · exact h.cancelled q hq a ha
  · rcases mem_cons.mp hq with rfl | hq
    · cases hself.symm.trans ha
    · exact (h.halting q hq a ha hentered).call hentry

/-- `Disconnect` of the embedded client looks for what to close: it closes what is current. -/
theorem halting_of_entered {frame : Frame} {choice : Connection.Choice}
    {client : Connection.Shared} {r : Connection.Point}
    (hreach : (protoClient setup).Reachable ⟨s, .within frame (.entered .disconnect) ::ₘ rest⟩)
    (hcancelled : a ∈ s.cancelled)
    (hstep : Connection.step s.client (.entered .disconnect) choice = some (client, some r)) :
    Halting a (resume frame r).closes
      ⟨{ s with client := client }, resume frame r ::ₘ rest⟩ := by
  have hraw := raw_reachable hreach
  rw [raw_cons] at hraw
  have hconsistent := Connection.consistent_of_entered hraw
  obtain ⟨hno, hcloses⟩ := Connection.enter_disconnect hconsistent
  obtain ⟨hclient, hr⟩ := Prod.mk.inj (some.inj hstep)
  refine ⟨hcancelled, fun n _ p hp => ?_, fun n _ hcurrent => ?_⟩
  · rw [raw_cons, raw_resume] at hp
    rcases mem_cons.mp hp with rfl | hp
    · cases hr
      exact hno _
    · rw [Connection.todo_of_alone hraw rfl hp]
      exact List.not_mem_nil
  · rw [← hclient] at hcurrent
    rw [Point.closes, raw_resume, ← hr]
    exact hcloses.trans hcurrent

theorem disconnects_resume (frame : Frame) (p : Connection.Point) :
    (resume frame p).disconnects = frame.disconnects := by
  cases p with
  | outside o => cases o <;> rfl
  | _ => rfl

theorem Passes.disconnects (h : Passes setup s p q) : q.disconnects = p.disconnects := by
  cases h <;> rfl

theorem Moves.disconnects (h : Moves setup s p s' (some q)) (ha : q.disconnects = some a) :
    p.disconnects = some a ∨ p = .found (some a) := by
  generalize hnext : some q = p' at h
  cases h with
  | pass hpass =>
    cases hnext
    exact .inl (hpass.disconnects ▸ ha)
  | within =>
    cases hnext
    rw [disconnects_resume] at ha
    exact .inl ha
  | leave _ hleaves =>
    subst hnext
    cases hleaves <;> exact .inl ha
  | @found b =>
    cases hnext
    cases ha
    exact .inr rfl
  | cancelledFound =>
    cases hnext
    exact .inl ha
  | @begin op | @commit op => cases op <;> cases hnext <;> cases ha
  | _ => cases hnext <;> cases ha

/-- `Disconnect` of the embedded client locks, and then looks for what to close. -/
theorem entering_within {t t' : Connection.Shared} {frame : Frame} {p : Connection.Point}
    {choice : Connection.Choice} {o : Option Connection.Point}
    (hraw : Connection.step t p choice = some (t', o))
    (h : (Point.within frame p).entering = true) :
    p = .entered .disconnect ∨ o = some (.entered .disconnect) := by
  cases p with
  | outside o =>
    cases o with
    | lock part =>
      cases part with
      | disconnect =>
        obtain ⟨-, ⟨⟩⟩ := ite_none_left_eq_some.mp hraw
        exact .inr rfl
      | _ => cases h
    | _ => cases h
  | entered part =>
    cases part with
    | disconnect => exact .inl rfl
    | _ => cases h
  | body => cases h

theorem Frame.eq_disconnect {frame : Frame} (h : frame.disconnects = some a) :
    frame = .disconnect (some a) := by
  cases frame with
  | disconnect => exact congrArg Frame.disconnect h
  | _ => cases h

/-- **Who returns has seen to it that nothing of the attempt is current.** -/
theorem Disconnecting.self (hreach : (protoClient setup).Reachable ⟨s, p ::ₘ rest⟩)
    (h : Disconnecting ⟨s, p ::ₘ rest⟩) (hmoves : Moves setup s p s' (some q))
    (ha : q.disconnects = some a) (hentered : q.entering = false) :
    Halting a q.closes ⟨s', q ::ₘ rest⟩ := by
  have hself : p ∈ p ::ₘ rest := mem_cons_self p rest
  have hraw := raw_reachable hreach
  rw [raw_cons] at hraw
  have hkeep (hp : p.disconnects = some a) (hentering : p.entering = false) :
      Halting a p.closes ⟨s', q ::ₘ rest⟩ := (h.halting p hself a hp hentering).step hreach hmoves
  generalize hnext : some q = p' at *
  have hstep := hmoves
  cases hstep with
  | pass hpass =>
    cases hnext
    have hentering : p.entering = false := by
      cases hpass <;> rfl
    refine (hkeep (hpass.disconnects ▸ ha) hentering).mono fun g hg => ?_
    rcases hpass.raw with heq | ⟨hnone, -⟩
    · rw [Point.closes, heq]
      exact hg
    · rw [Point.closes, hnone] at hg
      cases hg
  | @within frame p choice client q hstep =>
    cases hnext
    have hframe : frame.disconnects = some a := (disconnects_resume frame q).symm.trans ha
    cases hentering : (Point.within frame p).entering with
    | false =>
      refine (hkeep hframe hentering).mono fun g hg => ?_
      rw [Point.closes, raw_resume]
      exact Connection.step_closes hstep hg
    | true =>
      rcases entering_within hstep hentering with rfl | hq
      · obtain rfl := Frame.eq_disconnect hframe
        exact halting_of_entered hreach (h.cancelled _ hself a rfl) hstep
      · cases hq
        cases hentered
  | @leave frame p choice client _ _ hstep hleaves =>
    subst hnext
    have hframe : frame = .disconnect (some a) ∧ q = .awaitDone a := by
      cases hleaves <;> cases ha
      exact ⟨rfl, rfl⟩
    obtain ⟨rfl, rfl⟩ := hframe
    have hentering : (Point.within (.disconnect (some a)) p).entering = false := by
      cases hentering : (Point.within (.disconnect (some a)) p).entering with
      | false => rfl
      | true =>
        rcases entering_within hstep hentering with rfl | hq
        · cases hstep
        · cases hq
    have hhalting := hkeep rfl hentering
    -- what was to be closed is not current when the embedded client returns
    refine ⟨hhalting.cancelled, hhalting.unpublished, fun n hmade hcurrent => ?_⟩
    have hcloses := hhalting.current n hmade hcurrent
    exact absurd hcurrent (Connection.current_of_leave hraw hstep hcloses)
  | found | cancelledFound =>
    cases hnext
    cases hentered
  | @begin op | @commit op => cases op <;> cases hnext <;> cases ha
  | _ => cases hnext <;> cases ha

theorem Moves.disconnected (h : Moves setup s p s' p') (ha : a ∈ s'.record.disconnected) :
    a ∈ s.record.disconnected ∨ p = .awaitDone a := by
  cases h with
  | awaitDone =>
    rcases List.mem_cons.mp ha with rfl | ha
    · exact .inr rfl
    · exact .inl ha
  | _ => exact .inl ha

theorem Disconnecting.step (hreach : (protoClient setup).Reachable ⟨s, p ::ₘ rest⟩)
    (h : Disconnecting ⟨s, p ::ₘ rest⟩) (hmoves : Moves setup s p s' p') :
    Disconnecting ⟨s', rejoin p' rest⟩ := by
  have hself : p ∈ p ::ₘ rest := mem_cons_self p rest
  refine ⟨fun q hq a ha => ?_, fun q hq a ha hentered => ?_, fun a ha => ?_⟩
  · rcases mem_rejoin.mp hq with rfl | hq
    · rcases hmoves.disconnects ha with hp | rfl
      · exact hmoves.cancelled_mono (h.cancelled p hself a hp)
      · generalize some q = p' at hmoves
        cases hmoves with
        | pass hpass => cases hpass
        | refuse hrole => cases hrole
        | abandon _ hp => rcases hp with hp | ⟨hp, -⟩ <;> cases hp
        | found => exact Finset.mem_insert_self _ _
    · exact hmoves.cancelled_mono (h.cancelled q (mem_cons_of_mem hq) a ha)
  · rcases mem_rejoin.mp hq with rfl | hq
    · exact h.self hreach hmoves ha hentered
    · exact (h.halting q (mem_cons_of_mem hq) a ha hentered).step hreach hmoves
  · rcases hmoves.disconnected ha with ha | rfl
    · exact (h.returned a ha).step hreach hmoves
    · exact (h.halting _ hself a rfl rfl).step hreach hmoves

/-- **Once `Disconnect` has returned, nothing of the attempt it found is current.** -/
theorem disconnecting (h : (protoClient setup).Reachable c) : Disconnecting c := by
  refine config_induction ?_ ?_ ?_ h
  · exact ⟨nofun, nofun, fun a ha => absurd ha List.not_mem_nil⟩
  · exact fun s threads p _ hI hentry => hI.call hentry
  · exact fun s p rest choice s' p' hreach hI hstep => hI.step hreach (step_moves hstep)

end Pitaya.Client.Proto
