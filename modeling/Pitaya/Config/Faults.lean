import Mathlib.Data.List.TakeWhile
import Pitaya.Config.Watch

/-!
# Loaders that panic

`reloadSnapshot` runs over the loaders in one call, and `superviseWatch` recovers a panic of that
whole call (`SafeCall`) and takes the snapshot for processed.  The loaders behind one that panics
are passed over, and as the snapshot counts as the last one they do not get it later either.  In
development mode the logger panics again when the panic is reported, and the process ends.

* `Loaders` — the loaders of `Setup` with their panics; the ones that never panic are healthy.
-/

namespace Pitaya.Config

open List

variable {D : Type}

/-- Loaders of which some panic.  What a loader does may change with the rounds, the calls of
`reloadSnapshot`. -/
structure Loaders (D : Type) extends Setup D where
  providePanics (round loader : ℕ) : Bool
  reloadPanics (round loader : ℕ) (snapshot : D) : Bool
  /-- The loaders that panic in some round. -/
  faulty : ℕ → Bool
  healthy (round loader : ℕ) (snapshot : D) : faulty loader = false →
    providePanics round loader = false ∧ reloadPanics round loader snapshot = false

namespace Loaders

variable (cfg : Loaders D)

/-- `reloadSnapshot`: the calls of `Reload` that return, and whether a loader panics. -/
def reloadSnapshot (round : ℕ) (snapshot : D) : List ℕ → List (ℕ × D) × Bool
  | [] => ([], false)
  | loader :: loaders =>
    if cfg.providePanics round loader then ([], true)
    else if cfg.decodes loader snapshot then
      if cfg.reloadPanics round loader snapshot then ([], true)
      else (reloadSnapshot round snapshot loaders).map ((loader, snapshot) :: ·) id
    else reloadSnapshot round snapshot loaders

/-- The reloads of `superviseWatch`, for the snapshots that its calls of `reloadChanged` see. -/
def superviseWatch [DecidableEq D] (development : Bool) (loaders : List ℕ) (last : D)
    (round : ℕ) : List D → List (ℕ × D)
  | [] => []
  | snapshot :: seen =>
    if snapshot = last then superviseWatch development loaders last round seen
    else
      (cfg.reloadSnapshot round snapshot loaders).1 ++
        -- `SafeCall`
        if (cfg.reloadSnapshot round snapshot loaders).2 && development then []
        else superviseWatch development loaders snapshot (round + 1) seen

/-- The loader panics when its turn comes. -/
def panics (round : ℕ) (snapshot : D) (loader : ℕ) : Bool :=
  cfg.providePanics round loader ||
    cfg.decodes loader snapshot && cfg.reloadPanics round loader snapshot

/-- A healthy loader for which the snapshot decodes. -/
def due (snapshot : D) (loader : ℕ) : Bool := !cfg.faulty loader && cfg.decodes loader snapshot

/-- The reloads of the healthy loaders. -/
def ofHealthy (reloads : List (ℕ × D)) : List (ℕ × D) := reloads.filter fun r => !cfg.faulty r.1

/-- The reloads that are due for a snapshot. -/
def dues (loaders : List ℕ) (snapshot : D) : List (ℕ × D) :=
  (loaders.filter (cfg.due snapshot)).map (·, snapshot)

/-- The snapshots that are processed. -/
def processed [DecidableEq D] (last : D) : List D → List D
  | [] => []
  | snapshot :: seen =>
    if snapshot = last then processed last seen else snapshot :: processed snapshot seen

/-- In no round a loader panics in front of a healthy one that is due, and in development mode no
healthy one is due after a round with a panic. -/
def Undisturbed (development : Bool) (loaders : List ℕ) : ℕ → List D → Prop
  | _, [] => True
  | round, snapshot :: rest =>
    (loaders.Pairwise fun l l' => cfg.panics round snapshot l → cfg.due snapshot l' = false) ∧
    (development → loaders.any (cfg.panics round snapshot) → rest.flatMap (cfg.dues loaders) = []) ∧
    Undisturbed development loaders (round + 1) rest

/-! ## One snapshot -/

variable {cfg} {development : Bool} {round : ℕ} {snapshot : D} {loaders : List ℕ}

theorem reloadSnapshot_eq_round (h : ∀ l, cfg.faulty l = false) (loaders : List ℕ) :
    (cfg.reloadSnapshot round snapshot loaders).1 = cfg.round snapshot loaders := by
  induction loaders with
  | nil => rfl
  | cons l loaders ih =>
    obtain ⟨hp, hr⟩ := cfg.healthy round l snapshot (h l)
    rw [reloadSnapshot, Setup.round, filter_cons]
    cases hd : cfg.decodes l snapshot <;> simp [hp, hr, ih, Setup.round]

theorem panics_eq_false {l : ℕ} (h : cfg.faulty l = false) :
    cfg.panics round snapshot l = false := by
  obtain ⟨hp, hr⟩ := cfg.healthy round l snapshot h
  simp [panics, hp, hr]

theorem reloadSnapshot_eq (loaders : List ℕ) :
    cfg.reloadSnapshot round snapshot loaders =
      (((loaders.takeWhile (!cfg.panics round snapshot ·)).filter (cfg.decodes · snapshot)).map
        (·, snapshot), loaders.any (cfg.panics round snapshot)) := by
  induction loaders with
  | nil => rfl
  | cons l loaders ih =>
    rw [reloadSnapshot, ih]
    cases hp : cfg.providePanics round l <;> cases hd : cfg.decodes l snapshot <;>
      cases hr : cfg.reloadPanics round l snapshot <;> simp [panics, hp, hd, hr]

theorem ofHealthy_append (r r' : List (ℕ × D)) :
    cfg.ofHealthy (r ++ r') = cfg.ofHealthy r ++ cfg.ofHealthy r' :=
  filter_append ..

theorem ofHealthy_map (loaders : List ℕ) :
    cfg.ofHealthy ((loaders.filter (cfg.decodes · snapshot)).map (·, snapshot)) =
      cfg.dues loaders snapshot := by
  rw [ofHealthy, dues, filter_map, filter_filter]
  rfl

/-- The healthy loaders that get their turn are a first part of the ones that are due. -/
theorem ofHealthy_reloadSnapshot (loaders : List ℕ) :
    cfg.ofHealthy (cfg.reloadSnapshot round snapshot loaders).1 =
      cfg.dues (loaders.takeWhile (!cfg.panics round snapshot ·)) snapshot := by
  rw [reloadSnapshot_eq, ofHealthy_map]

theorem dues_takeWhile_sublist (p : ℕ → Bool) :
    (cfg.dues (loaders.takeWhile p) snapshot).Sublist (cfg.dues loaders snapshot) :=
  ((takeWhile_sublist p).filter _).map _

theorem dues_takeWhile_eq_iff (loaders : List ℕ) :
    cfg.dues (loaders.takeWhile (!cfg.panics round snapshot ·)) snapshot =
        cfg.dues loaders snapshot ↔
      loaders.Pairwise fun l l' => cfg.panics round snapshot l → cfg.due snapshot l' = false := by
  induction loaders with
  | nil => simp
  | cons l loaders ih =>
    rw [pairwise_cons, ← ih]
    cases hp : cfg.panics round snapshot l with
    | false =>
      cases hd : cfg.due snapshot l <;> simp [dues, hp, hd]
    | true =>
      -- a loader that panics is not healthy
      have hl : cfg.due snapshot l = false := by
        cases hf : cfg.faulty l with
        | false => rw [panics_eq_false hf] at hp; cases hp
        | true => simp [due, hf]
      constructor
      · intro h
        have none : ∀ l' ∈ loaders, cfg.due snapshot l' = false := by
          simpa [dues, hp, hl] using h.symm
        refine ⟨fun l' hl' _ => none l' hl', ?_⟩
        rw [dues, dues, filter_eq_nil_iff.mpr, filter_eq_nil_iff.mpr]
        · exact fun l' hl' => by simp [none l' hl']
        · exact fun l' hl' => by simp [none l' (takeWhile_sublist _ |>.subset hl')]
      · rintro ⟨h, -⟩
        have none : loaders.filter (cfg.due snapshot) = [] :=
          filter_eq_nil_iff.mpr fun l' hl' => by simp [h l' hl' rfl]
        simp [dues, hp, hl, none]

/-! ## Runs -/

theorem append_eq_append_iff_of_sublist {α : Type*} {a a' b b' : List α} (ha : a.Sublist a')
    (hb : b.Sublist b') : a ++ b = a' ++ b' ↔ a = a' ∧ b = b' := by
  refine ⟨fun h => ?_, fun ⟨h, h'⟩ => by rw [h, h']⟩
  have hlen := congrArg length h
  rw [length_append, length_append] at hlen
  have := ha.length_le
  have := hb.length_le
  exact append_inj h (by omega)

theorem undisturbed_of_no_dues (rest : List D) (round : ℕ)
    (h : rest.flatMap (cfg.dues loaders) = []) :
    cfg.Undisturbed development loaders round rest := by
  induction rest generalizing round with
  | nil => trivial
  | cons snapshot rest ih =>
    rw [flatMap_cons, append_eq_nil_iff] at h
    refine ⟨?_, fun _ _ => h.2, ih _ h.2⟩
    have none : ∀ l ∈ loaders, cfg.due snapshot l = false := by simpa [dues] using h.1
    exact List.Pairwise.imp_of_mem (fun _ hl' _ _ => none _ hl')
      (pairwise_of_forall fun _ _ => trivial)

variable [DecidableEq D]

theorem superviseWatch_sublist (seen : List D) (last : D) (round : ℕ) :
    (cfg.ofHealthy (cfg.superviseWatch development loaders last round seen)).Sublist
      ((processed last seen).flatMap (cfg.dues loaders)) := by
  induction seen generalizing last round with
  | nil => simp [superviseWatch, ofHealthy]
  | cons snapshot seen ih =>
    rw [superviseWatch, processed]
    split_ifs with hlast hcrash
    · exact ih last round
    · rw [append_nil, ofHealthy_reloadSnapshot, flatMap_cons]
      exact (dues_takeWhile_sublist _).trans (sublist_append_left _ _)
    · rw [ofHealthy_append, ofHealthy_reloadSnapshot, flatMap_cons]
      exact (dues_takeWhile_sublist _).append (ih snapshot (round + 1))

/-- Without the loaders that panic, every healthy one is reloaded with every processed snapshot. -/
theorem superviseWatch_healthy (seen : List D) (last : D) (round : ℕ) :
    cfg.superviseWatch development (loaders.filter (!cfg.faulty ·)) last round seen =
      (processed last seen).flatMap (cfg.dues loaders) := by
  induction seen generalizing last round with
  | nil => rfl
  | cons snapshot seen ih =>
    have calm : ∀ l ∈ loaders.filter (!cfg.faulty ·), cfg.panics round snapshot l = false :=
      fun l hl => panics_eq_false (by simpa using (mem_filter.mp hl).2)
    have none : (loaders.filter (!cfg.faulty ·)).any (cfg.panics round snapshot) = false :=
      any_eq_false.mpr fun l hl => by simp [calm l hl]
    have all : (loaders.filter (!cfg.faulty ·)).takeWhile (!cfg.panics round snapshot ·) =
        loaders.filter (!cfg.faulty ·) :=
      takeWhile_eq_self_iff.mpr fun l hl => by simp [calm l hl]
    rw [superviseWatch, processed]
    split_ifs with hlast hcrash
    · exact ih last round
    · simp [reloadSnapshot_eq, none] at hcrash
    · rw [ih, flatMap_cons, reloadSnapshot_eq, all, ← ofHealthy_map, ofHealthy,
        filter_map, filter_filter, filter_filter]
      simp only [Bool.and_comm, Function.comp_def]

/-- The healthy loaders are reloaded as if the others were absent, which is with every processed
snapshot that decodes for them, exactly if no loader panics in front of them. -/
theorem reloads_iff_undisturbed (cfg : Loaders D) (development : Bool) (loaders : List ℕ)
    (first : D) (round : ℕ) (seen : List D) :
    cfg.superviseWatch development (loaders.filter (!cfg.faulty ·)) first round seen =
        (processed first seen).flatMap (cfg.dues loaders) ∧
      (cfg.ofHealthy (cfg.superviseWatch development loaders first round seen) =
          cfg.superviseWatch development (loaders.filter (!cfg.faulty ·)) first round seen ↔
        cfg.Undisturbed development loaders round (processed first seen)) := by
  refine ⟨superviseWatch_healthy seen first round, ?_⟩
  rw [superviseWatch_healthy]
  induction seen generalizing first round with
  | nil => simp [superviseWatch, processed, ofHealthy, Undisturbed]
  | cons snapshot seen ih =>
    rw [superviseWatch, processed]
    split_ifs with hlast hcrash
    · exact ih first round
    · rw [List.append_nil, ofHealthy_reloadSnapshot, List.flatMap_cons,
        ← List.append_nil (cfg.dues (List.takeWhile _ _) _),
        append_eq_append_iff_of_sublist (dues_takeWhile_sublist _) (List.nil_sublist _),
        dues_takeWhile_eq_iff, Undisturbed]
      rw [reloadSnapshot_eq, Bool.and_eq_true] at hcrash
      refine and_congr_right fun _ => ⟨fun h => ?_, fun h => (h.1 hcrash.2 hcrash.1).symm⟩
      exact ⟨fun _ _ => h.symm, undisturbed_of_no_dues _ _ h.symm⟩
    · rw [ofHealthy_append, ofHealthy_reloadSnapshot, List.flatMap_cons,
        append_eq_append_iff_of_sublist (dues_takeWhile_sublist _)
          (superviseWatch_sublist _ _ _), dues_takeWhile_eq_iff, ih, Undisturbed]
      rw [reloadSnapshot_eq, Bool.and_eq_true, not_and'] at hcrash
      refine and_congr_right fun _ => (and_iff_right fun hd hp => absurd hp (hcrash hd)).symm

/-- Loader 0 panics in `Reload`, loader 1 never does, and every snapshot decodes for both. -/
def zeroPanics : Loaders ℕ where
  provide _ := .pointer []
  unmarshal _ _ _ := true
  providePanics _ _ := false
  reloadPanics _ loader _ := loader == 0
  faulty loader := loader == 0
  healthy _ _ _ h := ⟨rfl, h⟩

/-- Loader 1 gets none of two changes that it would get if loader 0 were absent. -/
theorem starved_behind_panic :
    zeroPanics.ofHealthy (zeroPanics.superviseWatch false [0, 1] 5 0 [5, 6, 6, 7]) = [] ∧
      zeroPanics.superviseWatch false ([0, 1].filter (!zeroPanics.faulty ·)) 5 0 [5, 6, 6, 7] =
        [(1, 6), (1, 7)] := by
  decide

end Loaders

end Pitaya.Config
