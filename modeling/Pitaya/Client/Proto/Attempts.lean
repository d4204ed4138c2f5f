import Pitaya.Client.Proto.Moves

/-!
# The attempts of the client with descriptors

* `writing_mutex`, `reading_eq` — `stateMu`: who locks it is alone, and who holds it for reading
  keeps the others from locking it.
* `Holding`, `Shifts` — the fields that tell what the goroutines hold, and what a step does to them.
* `Owned`, `owned` — `activeAttempt` is the attempt of the one goroutine that is between
  `beginConnectAttempt` and `finishConnectAttempt`.
-/

namespace Pitaya.Client.Proto

open Transition Threads Conn Multiset Option Proto.Point Shared Program Bool

variable {setup : Setup} {s s' : Shared} {p q : Point} {p' : Option Point}
  {rest : Multiset Point} {choice : Choice} {c : Config Shared Point} {a : ℕ}

/-! ## What a goroutine holds -/

/-- The fields that tell what the goroutines hold. -/
structure Holding where
  writing : Bool
  reading : ℕ
  activeAttempt : Option ℕ
  attempts : List Op
  done : Finset ℕ

def Shared.holding (s : Shared) : Holding :=
  ⟨s.writing, s.reading, s.activeAttempt, s.attempts, s.done⟩

/-- What a step does to them, with what the goroutine held and holds. -/
inductive Shifts (h : Holding) : Role → Holding → Role → Prop
  | same {r : Role} : Shifts h r h r
  | lock (hwriting : h.writing = false) (hreading : h.reading = 0) :
      Shifts h .idle { h with writing := true } .writer
  | unlock : Shifts h .writer { h with writing := false } .idle
  | begin {op : Op} :
      Shifts h .writer
        { h with
          writing := false, activeAttempt := some h.attempts.length
          attempts := h.attempts ++ [op] } (.owner h.attempts.length)
  | finish {a : ℕ} (hwriting : h.writing = false) (hreading : h.reading = 0) :
      Shifts h (.owner a)
        { h with
          activeAttempt := if h.activeAttempt = some a then none else h.activeAttempt
          done := insert a h.done } .idle
  | disconnect (hwriting : h.writing = false) :
      Shifts h .idle { h with reading := h.reading + 1 } .reader
  | release : Shifts h .reader { h with reading := h.reading - 1 } .idle

theorem Shared.writing_of_free (h : s.free = true) : s.writing = false := by
  simp only [free, and_eq_true, not_eq_true'] at h
  exact h.1

theorem Shared.reading_of_free (h : s.free = true) : s.reading = 0 := by
  simp only [free, and_eq_true, beq_iff_eq] at h
  exact h.2

theorem role_resume (frame : Frame) (p : Connection.Point) :
    (resume frame p).role = frame.role := by
  cases p with
  | outside o => cases o <;> rfl
  | _ => rfl

theorem Leaves.role {client results results' p frame}
    (h : Leaves client results p frame results' p') :
    p'.elim .idle Point.role = frame.role := by
  cases h <;> rfl

theorem role_begun (a : ℕ) (op : Op) : (begun a op).role = .owner a := by
  cases op <;> rfl

theorem role_committed (a : ℕ) (op : Op) : (committed a op).role = .owner a := by
  cases op <;> rfl

theorem Passes.role (h : Passes setup s p q) : q.role = p.role := by
  cases h <;> rfl

/-- **What a step does to what the goroutine holds.** -/
theorem Moves.shifts (h : Moves setup s p s' p') :
    Shifts s.holding p.role s'.holding (p'.elim .idle Point.role) := by
  cases h with
  | pass hpass =>
    rw [elim_some, hpass.role]
    exact .same
  | lock hfree => exact .lock (writing_of_free hfree) (reading_of_free hfree)
  | refuse hrole =>
    rw [hrole]
    exact .unlock
  | begin =>
    rw [elim_some, role_begun]
    exact .begin
  | commit =>
    rw [elim_some, role_committed]
    exact .same
  | deferred hfree | succeed hfree =>
    exact .finish (writing_of_free hfree) (reading_of_free hfree)
  | within =>
    rw [elim_some, role_resume]
    exact .same
  | leave _ hleaves =>
    rw [hleaves.role]
    exact .same
  | abandon hfree hp =>
    obtain rfl | ⟨rfl, -⟩ := hp
    all_goals exact .finish (writing_of_free hfree) (reading_of_free hfree)
  | disconnect hwriting => exact .disconnect hwriting
  | cancelledFound => exact .release
  | _ => exact .same

/-! ## The lock -/

theorem role_of_entry (h : entry p = true) : p.role = .idle := by
  simp only [entry] at h
  split at h
  all_goals first
    | rfl
    | cases h

def Role.writes (r : Role) : Bool := r = .writer

def Role.reads (r : Role) : Bool := r = .reader

theorem writing_mutex :
    (protoClient setup).Mutex Shared.writing (fun p => p.role.writes) where
  start := rfl
  main := nofun
  call p hentry := by
    rw [role_of_entry hentry]
    rfl
  step s p choice s' p' hstep hlocked := by
    have hshifts := (step_moves hstep).shifts
    have hnext : (p'.elim 0 fun q => q.role.writes.toNat) =
        (p'.elim .idle role).writes.toNat := by
      cases p' <;> rfl
    rw [hnext]
    change s'.holding.writing.toNat + _ = s.holding.writing.toNat + _
    have hlocked : p.role.writes = true → s.holding.writing = true := hlocked
    generalize s.holding = h, s'.holding = h', p.role = r, p'.elim .idle role = r' at *
    cases hshifts with
    | lock hwriting => simp [hwriting, Role.writes]
    | unlock | begin => simp [hlocked rfl, Role.writes]
    | _ => simp [Role.writes]

theorem reading_eq (h : (protoClient setup).Reachable c) :
    c.shared.reading = Program.total (fun p => p.role.reads.toNat) c.threads := by
  have hbal := balanced reading (fun _ => 0)
    (fun p => p.role.reads.toNat) rfl ?_ ?_ h
  · rw [hbal, zero_add]
  · intro p hentry
    rw [role_of_entry hentry]
    rfl
  · intro s p rest choice s' p' _ hheld hstep
    have hshifts := (step_moves hstep).shifts
    have hnext : (p'.elim 0 fun q => q.role.reads.toNat) =
        (p'.elim .idle role).reads.toNat := by
      cases p' <;> rfl
    rw [hnext, zero_add, zero_add]
    have hpos : p.role.reads.toNat ≤ s.holding.reading := by
      change _ ≤ s.reading
      omega
    change s'.holding.reading + _ = s.holding.reading + _
    generalize s.holding = h, s'.holding = h', p.role = r, p'.elim .idle role = r' at *
    cases hshifts with
    | same => rfl
    | disconnect | lock | unlock | begin | finish => simp [Role.reads]
    | release =>
      simp only [Role.reads, decide_true, toNat_true] at hpos ⊢
      simp
      omega

theorem not_reader_of_free (h : (protoClient setup).Reachable c) (hfree : c.shared.reading = 0)
    (hp : p ∈ c.threads) : p.role ≠ .reader := by
  intro hrole
  have heq := reading_eq h
  obtain ⟨others, hothers⟩ := exists_cons_of_mem hp
  rw [hothers, total_cons, hfree, hrole] at heq
  have hone : (0 : ℕ) = 1 + _ := heq
  omega

/-! ## The active attempt -/

theorem Moves.vacant {op : Op} (h : Moves setup s p s' (some (.connectedStatus op))) :
    s'.activeAttempt = none := by
  generalize hnext : some (connectedStatus op) = p' at h
  cases h with
  | pass hpass =>
    cases hnext
    cases hpass with
    | vacant hvacant => exact hvacant
  | @begin op' | @commit op' => cases op' <;> cases hnext
  | @within frame p choice client q =>
    have hrole := congrArg role (some.inj hnext)
    rw [role_resume] at hrole
    cases frame <;> cases hrole
  | leave _ hleaves =>
    subst hnext
    cases hleaves
  | _ => cases hnext

theorem vacant (h : (protoClient setup).Reachable c) {op : Op}
    (hp : .connectedStatus op ∈ c.threads) : c.shared.activeAttempt = none := by
  refine thread_invariant
    (J := fun s p => ∀ op, p = .connectedStatus op →
      s.activeAttempt = none) ?_ ?_ ?_ ?_ h _ hp op rfl
  · exact nofun
  · rintro s threads _ _ hentry op rfl
    cases hentry
  · rintro s p rest choice s' _ _ _ hstep op rfl
    exact (step_moves hstep).vacant
  · rintro s p rest choice s' p' _ hreach hq _ hJ hstep op rfl
    have hself : p.role ≠ .writer := fun hrole => by
      have halone := writing_mutex.alone hreach (by rw [hrole]; rfl) hq
      cases halone
    have hshifts := (step_moves hstep).shifts
    have hvacant : s.holding.activeAttempt = none := hJ op rfl
    change s'.holding.activeAttempt = none
    generalize s.holding = h, s'.holding = h', p.role = r, p'.elim .idle role = r' at *
    cases hshifts with
    | begin => exact absurd rfl hself
    | finish => simp [hvacant]
    | _ => exact hvacant

def Role.owns (r : Role) : Bool :=
  match r with
  | .owner _ => true
  | _ => false

/-- How many goroutines run an attempt. -/
def owners (roles : Multiset Role) : ℕ := roles.countP fun r => r.owns = true

theorem owners_cons (r : Role) (roles : Multiset Role) :
    owners (r ::ₘ roles) = r.owns.toNat + owners roles := by
  rw [owners, countP_cons, add_comm]
  cases r.owns <;> rfl

/-- The active attempt is that of the one goroutine that runs it. -/
structure Owned (h : Holding) (roles : Multiset Role) : Prop where
  owner : ∀ a, .owner a ∈ roles → h.activeAttempt = some a
  alone : owners roles = h.activeAttempt.isSome.toNat
  active : ∀ a, h.activeAttempt = some a → a < h.attempts.length ∧ a ∉ h.done
  done : ∀ a ∈ h.done, a < h.attempts.length

section Roles

variable {h h' : Holding} {r r' : Role} {roles : Multiset Role}

theorem owned_cons_idle : Owned h (.idle ::ₘ roles) ↔ Owned h roles := by
  have hcount : owners (.idle ::ₘ roles) = owners roles := by
    rw [owners_cons]
    exact zero_add _
  have hmem (a : ℕ) : .owner a ∈ .idle ::ₘ roles ↔ .owner a ∈ roles := by simp
  exact ⟨fun H => ⟨fun a ha => H.owner a ((hmem a).mpr ha), hcount ▸ H.alone, H.active, H.done⟩,
    fun H => ⟨fun a ha => H.owner a ((hmem a).mp ha), hcount.symm ▸ H.alone, H.active, H.done⟩⟩

theorem Owned.others (H : Owned h (.owner a ::ₘ roles)) (b : ℕ) : .owner b ∉ roles := by
  intro hb
  have halone := H.alone
  obtain ⟨others, rfl⟩ := exists_cons_of_mem hb
  rw [owners_cons, owners_cons] at halone
  have hle := toNat_le h.activeAttempt.isSome
  have htwo : 1 + (1 + owners others) = h.activeAttempt.isSome.toNat := halone
  omega

/-- Who runs no attempt before and after leaves the attempts to the others. -/
theorem Owned.replace (H : Owned h (r ::ₘ roles)) (hr : r.owns = false) (hr' : r'.owns = false)
    (hactive : h'.activeAttempt = h.activeAttempt) (hattempts : h'.attempts = h.attempts)
    (hdone : h'.done = h.done) : Owned h' (r' ::ₘ roles) := by
  refine ⟨fun a ha => ?_, ?_, by rw [hactive, hattempts, hdone]; exact H.active,
    by rw [hattempts, hdone]; exact H.done⟩
  · rw [hactive]
    rcases mem_cons.mp ha with rfl | ha
    · cases hr'
    · exact H.owner a (mem_cons_of_mem ha)
  · rw [owners_cons, hr', hactive, ← H.alone, owners_cons, hr]

theorem Shifts.owned (hshifts : Shifts h r h' r') (H : Owned h (r ::ₘ roles))
    (hvacant : r = .writer → r'.owns = true → h.activeAttempt = none) :
    Owned h' (r' ::ₘ roles) := by
  cases hshifts with
  | same => exact H
  | begin =>
    have hvacant := hvacant rfl rfl
    have hothers (b : ℕ) : .owner b ∉ roles := fun hb => by
      cases hvacant.symm.trans (H.owner b (mem_cons_of_mem hb))
    refine ⟨fun b hb => ?_, ?_, ?_, fun b hb => ?_⟩
    · rcases mem_cons.mp hb with hb | hb
      · cases hb
        rfl
      · exact absurd hb (hothers b)
    · have halone := H.alone
      rw [hvacant, owners_cons] at halone
      have hzero : owners roles = 0 := (zero_add _).symm.trans halone
      rw [owners_cons, hzero]
      rfl
    · rintro b ⟨⟩
      exact ⟨by simp, fun hb => lt_irrefl _ (H.done _ hb)⟩
    · exact (H.done b hb).trans (by simp)
  | @finish a =>
    have hactive := H.owner a (mem_cons_self _ _)
    rw [if_pos hactive]
    refine ⟨fun b hb => ?_, ?_, nofun, fun b hb => ?_⟩
    · rcases mem_cons.mp hb with hb | hb
      · cases hb
      · exact absurd hb (H.others b)
    · have halone := H.alone
      rw [hactive, owners_cons] at halone
      have hzero : owners roles = 0 := Nat.add_left_cancel (n := 1) halone
      rw [owners_cons, hzero]
      rfl
    · rcases Finset.mem_insert.mp hb with rfl | hb
      · exact (H.active b hactive).1
      · exact H.done b hb
  | _ => exact H.replace rfl rfl rfl rfl rfl

end Roles

theorem Moves.begins (h : Moves setup s p s' (some q)) (hrole : p.role = .writer)
    (hnext : q.role.owns = true) : ∃ op, p = .connectedStatus op := by
  cases p with
  | connectedStatus op => exact ⟨op, rfl⟩
  | activeAttempt =>
    generalize hq : some q = p' at h
    cases h with
    | pass hpass =>
      cases hq
      cases hpass
      cases hnext
    | refuse => cases hq
    | abandon _ hp => rcases hp with hp | ⟨hp, -⟩ <;> cases hp
  | within frame | onDisconnected frame | awaitAttempt frame => cases frame <;> cases hrole
  | _ => cases hrole

/-- **One goroutine at a time runs an attempt, and it is the active one.** -/
theorem owned (h : (protoClient setup).Reachable c) :
    Owned c.shared.holding (c.threads.map Point.role) := by
  apply config_induction ?_ ?_ ?_ h
  · exact ⟨nofun, rfl, nofun, fun a ha => absurd ha (Finset.notMem_empty a)⟩
  · intro s threads p _ hI hentry
    rw [map_cons, role_of_entry hentry]
    exact owned_cons_idle.mpr hI
  · intro s p rest choice s' p' hreach hI hstep
    have hmoves := step_moves hstep
    rw [map_cons] at hI
    have hnext := hmoves.shifts.owned hI fun hrole hnext => by
      cases p' with
      | none => cases hnext
      | some =>
        obtain ⟨op, rfl⟩ := hmoves.begins hrole hnext
        exact vacant hreach (mem_cons_self _ _)
    cases p' with
    | none => exact owned_cons_idle.mp hnext
    | some =>
      dsimp only [rejoin]
      rw [map_cons]
      exact hnext

theorem active_of_owner (h : (protoClient setup).Reachable c) (hp : p ∈ c.threads)
    (hrole : p.role = .owner a) : c.shared.activeAttempt = some a :=
  (owned h).owner a (hrole ▸ mem_map_of_mem role hp)

theorem owner_alone (h : (protoClient setup).Reachable ⟨s, p ::ₘ rest⟩) (hp : p.role = .owner a)
    (hq : q ∈ rest) (b : ℕ) : q.role ≠ .owner b := by
  intro hb
  have howned := owned h
  rw [map_cons, hp] at howned
  exact howned.others b (hb ▸ mem_map_of_mem role hq)

theorem owner_of_active (h : (protoClient setup).Reachable c)
    (hactive : c.shared.activeAttempt = some a) : ∃ p ∈ c.threads, p.role = .owner a := by
  have howned := owned h
  have hsome : c.shared.holding.activeAttempt = some a := hactive
  have hone : owners (c.threads.map role) = 1 := howned.alone.trans (by rw [hsome]; rfl)
  obtain ⟨r, hr, howns⟩ := countP_pos.mp (Nat.lt_of_lt_of_eq Nat.one_pos hone.symm)
  obtain ⟨p, hp, rfl⟩ := mem_map.mp hr
  refine ⟨p, hp, ?_⟩
  cases hrole : p.role with
  | owner b =>
    rw [hrole] at hr
    cases (howned.owner b hr).symm.trans hsome
    rfl
  | _ =>
    rw [hrole] at howns
    cases howns

theorem Moves.done_mono (h : Moves setup s p s' p') : s.done ⊆ s'.done := by
  have hshifts := h.shifts
  change s.holding.done ⊆ s'.holding.done
  generalize s.holding = h, s'.holding = h', p.role = r, p'.elim .idle role = r' at *
  cases hshifts with
  | finish => exact Finset.subset_insert _ _
  | _ => exact Finset.Subset.refl _

theorem Shifts.active {b : ℕ} {h h' : Holding} {r r' : Role} (hshifts : Shifts h r h' r')
    (howner : ∀ a, r = .owner a → h.activeAttempt = some a)
    (hvacant : r = .writer → r'.owns = true → h.activeAttempt = none)
    (hb : h.activeAttempt = some b) : h'.activeAttempt = some b ∨ b ∈ h'.done := by
  cases hshifts with
  | begin => cases (hvacant rfl rfl).symm.trans hb
  | finish =>
    cases (howner _ rfl).symm.trans hb
    exact .inr (Finset.mem_insert_self _ _)
  | _ => exact .inl hb

theorem Moves.active {b : ℕ} (hreach : (protoClient setup).Reachable ⟨s, p ::ₘ rest⟩)
    (h : Moves setup s p s' p') (hb : s.activeAttempt = some b) :
    s'.activeAttempt = some b ∨ b ∈ s'.done := by
  have hself : p ∈ p ::ₘ rest := mem_cons_self p rest
  refine h.shifts.active (fun a ha => active_of_owner hreach hself ha) (fun hrole hnext => ?_) hb
  cases p' with
  | none => cases hnext
  | some =>
    obtain ⟨op, rfl⟩ := h.begins hrole hnext
    exact Proto.vacant hreach hself

end Pitaya.Client.Proto
