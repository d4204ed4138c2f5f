import Mathlib.Data.List.MinMax
import Mathlib.Order.Interval.Finset.Nat
import Pitaya.Foundations.FiniteMap

/-!
# Key-value histories

A store whose every transaction has a revision, with snapshots at a revision and
watches that deliver the changes after one.

* `Event`, `replay` — a change of a key, and a list of changes applied to a store.
* `History` — the changes of every revision.  A transaction changes a key at most
  once, and deletes only what is there.  `History.store` is the store at a revision.
* `Delivers` — what a watch that has delivered everything up to a revision may deliver
  next: everything up to a later one, in order, all changes of a revision together,
  with any number of changes a second time.
-/

universe u v

namespace Revisions

open Finmap List

variable {K : Type u} {V : Type v} [DecidableEq K]

/-- A change of one key in a transaction: a value or, with `none`, a deletion. -/
structure Event (K : Type u) (V : Type v) where
  key : K
  change : Option V
  modRevision : ℕ
  deriving DecidableEq, Repr

/-- Keys with their values. -/
abbrev Store (K : Type u) (V : Type v) : Type (max u v) := Finmap fun _ : K => V

/-- Apply a change. -/
def Event.apply (m : Store K V) (e : Event K V) : Store K V :=
  match e.change with
  | some v => m.insert e.key v
  | none => m.erase e.key

/-- Apply changes one after the other. -/
def replay (m : Store K V) (es : List (Event K V)) : Store K V := es.foldl Event.apply m

theorem Event.lookup_apply_self (m : Store K V) (e : Event K V) :
    (e.apply m).lookup e.key = e.change := by
  unfold Event.apply
  cases e.change with
  | some => exact lookup_insert m
  | none => exact lookup_erase e.key m

variable {e : Event K V}

theorem Event.lookup_apply_of_ne (m : Store K V) {k : K} (h : k ≠ e.key) :
    (e.apply m).lookup k = m.lookup k := by
  unfold Event.apply
  cases e.change with
  | some => exact lookup_insert_of_ne m h
  | none => exact lookup_erase_ne h

theorem replay_concat (m : Store K V) (es : List (Event K V)) (e : Event K V) :
    replay m (es ++ [e]) = e.apply (replay m es) := by
  rw [replay, foldl_append]
  rfl

theorem replay_append (m : Store K V) (es es' : List (Event K V)) :
    replay m (es ++ es') = replay (replay m es) es' :=
  foldl_append

variable {es : List (Event K V)}

/-- A key that no change touches keeps its value. -/
theorem lookup_replay_of_untouched (m : Store K V) {k : K} (h : ∀ e ∈ es, e.key ≠ k) :
    (replay m es).lookup k = m.lookup k := by
  induction es generalizing m with
  | nil => rfl
  | cons e es ih =>
    have hrest := ih (e.apply m) fun e' he' => h e' (mem_cons_of_mem e he')
    exact hrest.trans (Event.lookup_apply_of_ne m (h e mem_cons_self).symm)

/-- A value comes from a change or was there before. -/
theorem lookup_replay_eq_some {m : Store K V} {k : K} {v : V}
    (h : (replay m es).lookup k = some v) :
    (∃ e ∈ es, e.key = k ∧ e.change = some v) ∨ m.lookup k = some v := by
  induction es generalizing m with
  | nil => exact .inr h
  | cons e es ih =>
    rcases ih h with ⟨e', he', hkey, hchange⟩ | hbefore
    · exact .inl ⟨e', mem_cons_of_mem e he', hkey, hchange⟩
    · by_cases hkey : k = e.key
      · subst hkey
        rw [Event.lookup_apply_self] at hbefore
        exact .inl ⟨e, mem_cons_self, rfl, hbefore⟩
      · rw [Event.lookup_apply_of_ne m hkey] at hbefore
        exact .inr hbefore

/-! ## Histories -/

/-- The changes of a revision, as events. -/
def eventsOf (txn : ℕ → List (K × Option V)) (r : ℕ) : List (Event K V) :=
  (txn r).map fun c => ⟨c.1, c.2, r⟩

/-- The store at a revision. -/
def storeOf (txn : ℕ → List (K × Option V)) : ℕ → Store K V
  | 0 => ∅
  | r + 1 => replay (storeOf txn r) (eventsOf txn (r + 1))

/-- A history of transactions, from revision 1 on. -/
structure History (K : Type u) (V : Type v) [DecidableEq K] where
  txn : ℕ → List (K × Option V)
  start : txn 0 = []
  nodup : ∀ r, ((txn r).map Prod.fst).Nodup
  delete_present : ∀ r k, (k, none) ∈ txn (r + 1) → k ∈ storeOf txn r

namespace History

variable (H : History K V)

/-- The changes of a revision. -/
def events (r : ℕ) : List (Event K V) := eventsOf H.txn r

/-- The store at a revision. -/
def store (r : ℕ) : Store K V := storeOf H.txn r

/-- The event happened. -/
def Has (e : Event K V) : Prop := (e.key, e.change) ∈ H.txn e.modRevision

instance [DecidableEq V] (e : Event K V) : Decidable (H.Has e) :=
  inferInstanceAs (Decidable (_ ∈ _))

variable {H}

theorem mem_events {r : ℕ} : e ∈ H.events r ↔ H.Has e ∧ e.modRevision = r := by
  constructor
  · intro h
    obtain ⟨c, hc, rfl⟩ := mem_map.mp h
    exact ⟨hc, rfl⟩
  · rintro ⟨hhas, rfl⟩
    exact mem_map.mpr ⟨(e.key, e.change), hhas, rfl⟩

/-- A transaction changes a key once. -/
theorem Has.change_eq {e' : Event K V} (h : H.Has e) (h' : H.Has e') (hkey : e.key = e'.key)
    (hrevision : e.modRevision = e'.modRevision) : e.change = e'.change := by
  unfold Has at h h'
  rw [← hrevision] at h'
  have hsame := inj_on_of_nodup_map (H.nodup e.modRevision) h h' hkey
  exact congrArg Prod.snd hsame

/-- The changes after one revision and up to another. -/
def between (H : History K V) (b t : ℕ) : List (Event K V) :=
  (List.range' (b + 1) (t - b)).flatMap H.events

theorem mem_between {b t : ℕ} :
    e ∈ H.between b t ↔ H.Has e ∧ b < e.modRevision ∧ e.modRevision ≤ t := by
  simp only [between, mem_flatMap, mem_range'_1, mem_events]
  constructor
  · rintro ⟨r, ⟨hlow, hhigh⟩, hhas, rfl⟩
    exact ⟨hhas, hlow, by omega⟩
  · rintro ⟨hhas, hlow, hhigh⟩
    exact ⟨e.modRevision, ⟨hlow, by omega⟩, hhas, rfl⟩

theorem between_append {b t u : ℕ} (hb : b ≤ t) (ht : t ≤ u) :
    H.between b u = H.between b t ++ H.between t u := by
  obtain ⟨m, rfl⟩ := Nat.exists_eq_add_of_le hb
  obtain ⟨n, rfl⟩ := Nat.exists_eq_add_of_le ht
  rw [between, between, between, ← flatMap_append]
  have hsplit : b + m + n - b = m + n := by omega
  have hright : b + m + 1 = b + 1 + 1 * m := by omega
  rw [hsplit, Nat.add_sub_cancel_left, Nat.add_sub_cancel_left, hright, range'_append]

theorem store_eq_replay_between {b t : ℕ} (h : b ≤ t) :
    H.store t = replay (H.store b) (H.between b t) := by
  obtain ⟨n, rfl⟩ := Nat.exists_eq_add_of_le h
  rw [between, Nat.add_sub_cancel_left]
  clear h
  induction n with
  | zero => rfl
  | succ n ih =>
    rw [range'_concat, flatMap_append, replay_append, ← ih]
    have hnext : b + 1 + 1 * n = b + n + 1 := by omega
    rw [hnext, flatMap_singleton]
    rfl

end History

/-! ## Deliveries -/

/-- In the order of the revisions. -/
def Ordered (es : List (Event K V)) : Prop :=
  es.Pairwise fun e e' => e.modRevision ≤ e'.modRevision

instance (es : List (Event K V)) : Decidable (Ordered es) :=
  inferInstanceAs (Decidable (List.Pairwise _ _))

theorem ordered_between (H : History K V) (b t : ℕ) : Ordered (H.between b t) := by
  refine pairwise_flatMap.mpr ⟨fun r _ => ?_, ?_⟩
  · exact pairwise_of_forall_mem_list fun e he e' he' =>
      ((History.mem_events.mp he).2.trans (History.mem_events.mp he').2.symm).le
  · refine (pairwise_lt_range' 1).imp fun {r r'} hlt e he e' he' => ?_
    rw [(History.mem_events.mp he).2, (History.mem_events.mp he').2]
    exact hlt.le

variable {H : History K V}

/-- In order, the latest change of a key decides. -/
theorem lookup_replay_of_latest (m : Store K V) (ordered : Ordered es)
    (genuine : ∀ e' ∈ es, H.Has e') (he : e ∈ es)
    (latest : ∀ e' ∈ es, e'.key = e.key → e'.modRevision ≤ e.modRevision) :
    (replay m es).lookup e.key = e.change := by
  induction es using reverseRecOn with
  | nil => cases he
  | append_singleton es last ih =>
    obtain ⟨hordered, -, hlast⟩ := pairwise_append.mp ordered
    rw [replay_concat]
    have hmem : last ∈ es ++ [last] := mem_append_right es mem_cons_self
    by_cases hkey : last.key = e.key
    · -- the last change is as late as `e`, hence the same
      have hge : e.modRevision ≤ last.modRevision := by
        rcases mem_append.mp he with he | he
        · exact hlast e he last mem_cons_self
        · rw [mem_singleton.mp he]
      have hsame := (genuine last hmem).change_eq (genuine e he) hkey
        (le_antisymm (latest last hmem hkey) hge)
      rw [← hkey, Event.lookup_apply_self, hsame]
    · rw [Event.lookup_apply_of_ne _ (Ne.symm hkey)]
      have he' : e ∈ es := by
        rcases mem_append.mp he with he | he
        · exact he
        · rw [mem_singleton.mp he] at hkey
          exact absurd rfl hkey
      exact ih hordered (fun e' h' => genuine e' (mem_append_left _ h')) he'
        fun e' h' => latest e' (mem_append_left _ h')

theorem exists_latest (he : e ∈ es) : ∃ e' ∈ es, e'.key = e.key ∧
      ∀ e'' ∈ es, e''.key = e.key → e''.modRevision ≤ e'.modRevision := by
  set same := es.filter fun e' => e'.key = e.key with hsame
  have hmem (e' : Event K V) : e' ∈ same ↔ e' ∈ es ∧ e'.key = e.key := by
    rw [hsame, mem_filter, decide_eq_true_eq]
  cases hmax : same.argmax Event.modRevision with
  | none =>
    rw [argmax_eq_none] at hmax
    have := (hmem e).mpr ⟨he, rfl⟩
    rw [hmax] at this
    cases this
  | some e' =>
    obtain ⟨hin, hkey⟩ := (hmem e').mp (argmax_mem hmax)
    exact ⟨e', hin, hkey, fun e'' hin' hkey' =>
      le_of_mem_argmax ((hmem e'').mpr ⟨hin', hkey'⟩) hmax⟩

/-- **What matters of a list of changes is which there are**, as long as they are in
order. -/
theorem replay_eq_of_mem_iff (m : Store K V) {es' : List (Event K V)} (ordered : Ordered es)
    (ordered' : Ordered es') (genuine : ∀ e ∈ es, H.Has e) (same : ∀ e, e ∈ es ↔ e ∈ es') :
    replay m es = replay m es' := by
  refine ext_lookup fun k => ?_
  by_cases htouched : ∃ e ∈ es, e.key = k
  · obtain ⟨e₀, he₀, rfl⟩ := htouched
    obtain ⟨e, he, hkey, hlatest⟩ := exists_latest he₀
    rw [← hkey] at hlatest ⊢
    rw [lookup_replay_of_latest m ordered genuine he hlatest,
      lookup_replay_of_latest m ordered' (fun e' h' => genuine e' ((same e').mpr h'))
        ((same e).mp he) fun e' h' => hlatest e' ((same e').mpr h')]
  · have huntouched : ∀ e ∈ es, e.key ≠ k := fun e he hkey => htouched ⟨e, he, hkey⟩
    rw [lookup_replay_of_untouched m huntouched,
      lookup_replay_of_untouched m fun e he => huntouched e ((same e).mpr he)]

/-- A watch that has delivered everything up to `pos` delivers everything up to
`pos'`. -/
structure Delivers (H : History K V) (pos pos' : ℕ) (es : List (Event K V)) : Prop where
  ahead : pos ≤ pos'
  genuine : ∀ e ∈ es, H.Has e ∧ e.modRevision ≤ pos'
  complete : ∀ r ∈ Finset.Ioc pos pos', ∀ e ∈ H.events r, e ∈ es
  ordered : Ordered (es.filter fun e => pos < e.modRevision)

instance [DecidableEq V] (H : History K V) (pos pos' : ℕ) (es : List (Event K V)) :
    Decidable (Delivers H pos pos' es) :=
  decidable_of_iff
    (pos ≤ pos' ∧ (∀ e ∈ es, H.Has e ∧ e.modRevision ≤ pos') ∧
      (∀ r ∈ Finset.Ioc pos pos', ∀ e ∈ H.events r, e ∈ es) ∧
      Ordered (es.filter fun e => pos < e.modRevision))
    ⟨fun h => ⟨h.1, h.2.1, h.2.2.1, h.2.2.2⟩, fun h => ⟨h.1, h.2, h.3, h.4⟩⟩

/-- Nothing happened after `b` up to `pos`. -/
def Quiet (H : History K V) (b pos : ℕ) : Prop := ∀ r, b < r → r ≤ pos → H.txn r = []

/-- The newest revision of the changes, or `b` if that is newer. -/
def newest (b : ℕ) (es : List (Event K V)) : ℕ :=
  es.foldl (fun revision e => max revision e.modRevision) b

omit [DecidableEq K] in
theorem le_newest (b : ℕ) (es : List (Event K V)) : b ≤ newest b es := by
  induction es generalizing b with
  | nil => exact le_rfl
  | cons e es ih => exact (le_max_left b e.modRevision).trans (ih _)

variable {b : ℕ}

omit [DecidableEq K] in
theorem le_newest_of_mem (h : e ∈ es) : e.modRevision ≤ newest b es := by
  induction es generalizing b with
  | nil => cases h
  | cons e' es ih =>
    rcases mem_cons.mp h with rfl | h
    · exact (le_max_right b e.modRevision).trans (le_newest _ es)
    · exact ih h

omit [DecidableEq K] in
theorem newest_le {t : ℕ} (hb : b ≤ t) (h : ∀ e ∈ es, e.modRevision ≤ t) : newest b es ≤ t := by
  induction es generalizing b with
  | nil => exact hb
  | cons e es ih =>
    exact ih (max_le hb (h e mem_cons_self)) fun e' he' => h e' (mem_cons_of_mem e he')

theorem store_eq_of_quiet {t : ℕ} (hle : b ≤ t) (quiet : Quiet H b t) : H.store t = H.store b := by
  rw [History.store_eq_replay_between hle]
  have hnone : H.between b t = [] := by
    refine eq_nil_iff_forall_not_mem.mpr fun e he => ?_
    obtain ⟨hhas, hlow, hhigh⟩ := History.mem_between.mp he
    rw [History.Has, quiet e.modRevision hlow hhigh] at hhas
    cases hhas
  rw [hnone]
  rfl

/-- The changes of a delivery that are newer than `b`. -/
theorem mem_fresh {pos pos' : ℕ} (delivers : Delivers H pos pos' es) (quiet : Quiet H b pos) :
    e ∈ es.filter (fun e => b < e.modRevision) ↔ e ∈ H.between b pos' := by
  rw [mem_filter, decide_eq_true_eq, History.mem_between]
  constructor
  · rintro ⟨he, hb⟩
    obtain ⟨hhas, hle⟩ := delivers.genuine e he
    exact ⟨hhas, hb, hle⟩
  · rintro ⟨hhas, hb, hle⟩
    refine ⟨?_, hb⟩
    rcases Nat.lt_or_ge pos e.modRevision with hpos | hpos
    · exact delivers.complete e.modRevision (Finset.mem_Ioc.mpr ⟨hpos, hle⟩) e
        (History.mem_events.mpr ⟨hhas, rfl⟩)
    · rw [History.Has, quiet e.modRevision hb hpos] at hhas
      cases hhas

/-- **Catching up.**  The store at `b`, with the newer changes of a delivery, is the
store at the newest revision; nothing happened between that and the end of the
delivery. -/
theorem replay_fresh {pos pos' : ℕ} (delivers : Delivers H pos pos' es) (quiet : Quiet H b pos) :
    replay (H.store b) (es.filter fun e => b < e.modRevision) = H.store (newest b es) ∧
      Quiet H (newest b es) pos' := by
  have hfresh (e : Event K V) : e ∈ es.filter (fun e => b < e.modRevision) ↔ e ∈ H.between b pos' :=
    mem_fresh delivers quiet
  have hquiet : Quiet H (newest b es) pos' := by
    intro r hlow hhigh
    refine eq_nil_iff_forall_not_mem.mpr fun c hc => ?_
    have hmem : (⟨c.1, c.2, r⟩ : Event K V) ∈ H.between b pos' :=
      History.mem_between.mpr ⟨hc, (le_newest b es).trans_lt hlow, hhigh⟩
    have hle : r ≤ newest b es :=
      le_newest_of_mem (mem_of_mem_filter ((hfresh ⟨c.1, c.2, r⟩).mpr hmem))
    omega
  refine ⟨?_, hquiet⟩
  have hordered : Ordered (es.filter fun e => b < e.modRevision) := by
    -- what is newer than `b` is newer than `pos`
    have hsub : (es.filter fun e => b < e.modRevision)
        = (es.filter fun e => pos < e.modRevision).filter fun e => b < e.modRevision := by
      rw [filter_filter]
      refine filter_congr fun e he => ?_
      by_cases hb : b < e.modRevision
      · have hpos : pos < e.modRevision := by
          by_contra hpos
          have hhas := (delivers.genuine e he).1
          rw [History.Has, quiet e.modRevision hb (not_lt.mp hpos)] at hhas
          cases hhas
        simp [hb, hpos]
      · simp [hb]
    rw [hsub]
    exact delivers.ordered.sublist filter_sublist
  rw [replay_eq_of_mem_iff (H.store b) hordered (ordered_between H b pos')
    (fun e he => (History.mem_between.mp ((hfresh e).mp he)).1) hfresh]
  rcases Nat.lt_or_ge pos' b with hbehind | hahead
  · have hnewest : newest b es = b :=
      le_antisymm (newest_le le_rfl fun e he => ((delivers.genuine e he).2.trans hbehind.le))
        (le_newest b es)
    have hnone : H.between b pos' = [] := by
      rw [History.between, Nat.sub_eq_zero_of_le hbehind.le]
      rfl
    rw [hnewest, hnone]
    rfl
  · rw [← History.store_eq_replay_between hahead]
    exact store_eq_of_quiet (newest_le hahead fun e he => (delivers.genuine e he).2) hquiet

/-! ## Who put a key -/

/-- What is in the store was put there. -/
theorem History.put_of_lookup {r : ℕ} {k : K} {v : V} (h : (H.store r).lookup k = some v) :
    ∃ q, (k, some v) ∈ H.txn q := by
  induction r with
  | zero =>
    change (∅ : Store K V).lookup k = some v at h
    cases h
  | succ r ih =>
    rcases lookup_replay_eq_some h with ⟨e, he, rfl, hchange⟩ | hbefore
    · have hhas := (History.mem_events.mp he).1
      rw [History.Has, hchange] at hhas
      exact ⟨e.modRevision, hhas⟩
    · exact ih hbefore

/-- A key that is changed was put before, or is put by the change. -/
theorem History.Has.put (h : H.Has e) : ∃ q v, (e.key, some v) ∈ H.txn q := by
  unfold History.Has at h
  cases hchange : e.change with
  | some v =>
    rw [hchange] at h
    exact ⟨e.modRevision, v, h⟩
  | none =>
    rw [hchange] at h
    cases hrevision : e.modRevision with
    | zero =>
      rw [hrevision, H.start] at h
      cases h
    | succ r =>
      rw [hrevision] at h
      obtain ⟨v, hv⟩ := mem_iff.mp (H.delete_present r e.key h)
      obtain ⟨q, hq⟩ := History.put_of_lookup hv
      exact ⟨q, v, hq⟩

end Revisions
