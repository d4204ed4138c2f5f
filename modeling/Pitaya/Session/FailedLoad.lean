import Pitaya.Session.Record

/-!
# A load that fails

`ObtainFromCluster` and `InitialFromCluster` of `session/session.go` assign the fields of a
session while they read the record, and return where a field cannot be decoded or encoded.  What
they have assigned by then depends on the order of the loop, and `ObtainFromCluster` has called
`reset` before it asks the store.

* `StoreOutcome` — the answer of the store, before an order is chosen.
* `atomic_iff` — one of the two is needed, and enough.
-/

namespace Pitaya.Loader

open Ranges Session Option

variable {V : Type} {codec : Codec V} {l : Loader} {s : Session V} {fld v : Bytes}

/-- The answer of the store to `Hgetall`. -/
inductive StoreOutcome where
  | failed (text : Bytes)
  | noRows
  | record (r : Record)

/-- The answer as a loader sees it, the fields of a record in some order. -/
inductive StoreOutcome.Gives : StoreOutcome → HgetallReply → Prop where
  | failed (text : Bytes) : Gives (.failed text) (.failed text)
  | noRows : Gives .noRows .noRows
  | record {r : Record} {entries : List (Bytes × Bytes)} (h : Visits r entries) :
      Gives (.record r) (.fields entries)

/-- The fields in the answer. -/
def StoreOutcome.fields : StoreOutcome → Record
  | .record r => r
  | .failed _ => ∅
  | .noRows => ∅

/-- A load that returns an error leaves the session as it was, and what a load leaves does not
depend on the order of the fields. -/
structure Atomic (l : Loader) (codec : Codec V) (s : Session V) (outcome : StoreOutcome) :
    Prop where
  unchanged : ∀ reply, outcome.Gives reply → (l.load codec s reply).2 ≠ none →
    (l.load codec s reply).1 = s
  sameState : ∀ reply reply', outcome.Gives reply → outcome.Gives reply' →
    (l.load codec s reply).1 = (l.load codec s reply').1

/-- The store has a record, or needs none, and every field of it can be read. -/
def Good (l : Loader) (codec : Codec V) : StoreOutcome → Prop
  | .failed _ => False
  | .noRows => l = initial
  | .record r => (l = obtain → r ≠ ∅) ∧
      ∀ fld v, r.lookup fld = some v → fieldError codec fld v = none

/-- The session has already what a load would assign. -/
def Has (l : Loader) (codec : Codec V) (s : Session V) (outcome : StoreOutcome) : Prop :=
  l.reset s = s ∧
    ∀ fld v, outcome.fields.lookup fld = some v → (l.field codec s fld v).1 = s

/-! ## Loads that fail -/

theorem load_cons (l : Loader) (s : Session V) (entry : Bytes × Bytes)
    (entries : List (Bytes × Bytes)) :
    l.load codec s (.fields (entry :: entries)) =
      loadFields (l.field codec) (l.reset s) (entry :: entries) := by
  cases l <;> rfl

theorem load_of_no_fields (l : Loader) (s : Session V) (reply : HgetallReply)
    (h : ∀ entry entries, reply ≠ .fields (entry :: entries)) :
    (l.load codec s reply).1 = l.reset s := by
  cases reply with
  | fields entries =>
    cases entries with
    | nil => cases l <;> rfl
    | cons entry entries => exact absurd rfl (h entry entries)
  | failed => cases l <;> rfl
  | noRows => cases l <;> rfl

theorem online_writes_of_bad (h : fieldError codec fld v ≠ none) (s : Session V) :
    ((l.writes codec (only fld v)).apply s).online = s.online := by
  have hconnection : only fld v fieldKeyOnline = none := by
    refine only_of_ne v ?_
    rintro rfl
    exact h rfl
  cases l with
  | initial => rfl
  | obtain => simp only [Writes.apply, writes, connection, hconnection, bind_none, getD_none]

theorem load_of_bad (h : fieldError codec fld v ≠ none) (entries : List (Bytes × Bytes)) :
    l.load codec s (.fields ((fld, v) :: entries)) =
      ((l.writes codec (only fld v)).apply (l.reset s), fieldError codec fld v) := by
  obtain ⟨e, he⟩ := ne_none_iff_exists'.mp h
  rw [load_cons, loadFields, field_eq, he]

theorem load_of_bad_second {fld' v' : Bytes} (hgood : fieldError codec fld v = none)
    (hbad : fieldError codec fld' v' ≠ none) (entries : List (Bytes × Bytes)) :
    l.load codec s (.fields ((fld, v) :: (fld', v') :: entries)) =
      ((l.writes codec (only fld' v')).apply ((l.writes codec (only fld v)).apply (l.reset s)),
        fieldError codec fld' v') := by
  obtain ⟨e, he⟩ := ne_none_iff_exists'.mp hbad
  rw [load_cons, loadFields, field_eq, hgood]
  dsimp only
  rw [loadFields, field_eq, he]

/-- What a session has already makes no difference, wherever the loop stops. -/
theorem loadFields_of_has {entries : List (Bytes × Bytes)}
    (h : ∀ e ∈ entries, (l.field codec s e.1 e.2).1 = s) :
    (loadFields (l.field codec) s entries).1 = s := by
  induction entries with
  | nil => rfl
  | cons entry entries ih =>
    obtain ⟨fld, v⟩ := entry
    have hfirst : (l.field codec s fld v).1 = s := h (fld, v) List.mem_cons_self
    rw [loadFields]
    generalize l.field codec s fld v = r at hfirst
    obtain ⟨s', err⟩ := r
    obtain rfl : s' = s := hfirst
    cases err with
    | some => rfl
    | none => exact ih fun e he => h e (List.mem_cons_of_mem _ he)

/-! ## When a load is atomic -/

section

variable {r : Record}

theorem Atomic.reset (h : l.Atomic codec s (.record r)) (hlookup : r.lookup fld = some v)
    (hbad : fieldError codec fld v ≠ none) :
    l.reset s = s ∧ (l.writes codec (only fld v)).apply s = s := by
  obtain ⟨entries, hvisits⟩ := exists_visits r
  obtain ⟨rest, hfirst⟩ := hvisits.first hlookup
  have hload := h.unchanged _ (.record hfirst)
  rw [load_of_bad hbad] at hload
  have hsame : (l.writes codec (only fld v)).apply (l.reset s) = s := hload hbad
  have hreset : l.reset s = s := by
    cases l with
    | initial => rfl
    | obtain =>
      have honline := online_writes_of_bad (l := obtain) hbad (obtain.reset s)
      rw [hsame] at honline
      dsimp only [Loader.reset] at honline ⊢
      rw [← honline]
  rw [hreset] at hsame
  exact ⟨hreset, hsame⟩

/-- Without a field to read, `ObtainFromCluster` fails and has nothing to reset. -/
theorem Atomic.reset_of_no_fields {outcome : StoreOutcome} {reply : HgetallReply}
    (h : l.Atomic codec s outcome) (hgives : outcome.Gives reply)
    (hfields : ∀ entry entries, reply ≠ .fields (entry :: entries))
    (hfails : l = obtain → (l.load codec s reply).2 ≠ none) : l.reset s = s := by
  cases l with
  | initial => rfl
  | obtain =>
    rw [← load_of_no_fields obtain s reply hfields]
    exact h.unchanged reply hgives (hfails rfl)

theorem Atomic.field {fld' v' : Bytes} (h : l.Atomic codec s (.record r))
    (hlookup : r.lookup fld = some v) (hbad : fieldError codec fld v ≠ none)
    (hlookup' : r.lookup fld' = some v') : (l.field codec s fld' v').1 = s := by
  obtain ⟨hreset, hsame⟩ := h.reset hlookup hbad
  rw [field_eq]
  by_cases hbad' : fieldError codec fld' v' = none
  · have hne : fld ≠ fld' := by
      rintro rfl
      obtain rfl := some.inj (hlookup.symm.trans hlookup')
      exact hbad hbad'
    obtain ⟨entries, hvisits⟩ := exists_visits r
    obtain ⟨rest, hsecond⟩ := hvisits.second hlookup' hlookup hne
    have hload := h.unchanged _ (.record hsecond)
    rw [load_of_bad_second hbad' hbad, hreset] at hload
    have hback := hload hbad
    rwa [apply_comm hne, hsame] at hback
  · exact (h.reset hlookup' hbad').2

end

/-- A load that cannot fail assigns the fields of the record, in whichever order. -/
theorem load_of_good {outcome : StoreOutcome} {reply : HgetallReply} (h : l.Good codec outcome)
    (hgives : outcome.Gives reply) (s : Session V) :
    l.load codec s reply =
      ((l.writes codec outcome.fields.lookup).apply (l.reset s), none) := by
  cases hgives with
  | failed => exact h.elim
  | noRows =>
    obtain rfl : l = initial := h
    rfl
  | @record r entries hvisits =>
    obtain ⟨hrecord, hgood⟩ := h
    cases entries with
    | nil =>
      obtain rfl := hvisits.eq_empty_of_nil
      cases l with
      | initial => rfl
      | obtain => exact absurd rfl (hrecord rfl)
    | cons =>
      rw [load_cons, loadFields_of_visits hvisits hgood]
      rfl

theorem load_of_has {outcome : StoreOutcome} {reply : HgetallReply} (h : l.Has codec s outcome)
    (hgives : outcome.Gives reply) : (l.load codec s reply).1 = s := by
  obtain ⟨hreset, hfields⟩ := h
  cases hgives with
  | failed text => exact (load_of_no_fields l s (.failed text) nofun).trans hreset
  | noRows => exact (load_of_no_fields l s .noRows nofun).trans hreset
  | @record r entries hvisits =>
    cases entries with
    | nil => exact (load_of_no_fields l s (.fields []) nofun).trans hreset
    | cons =>
      rw [load_cons, hreset]
      exact loadFields_of_has fun e he => hfields e.1 e.2 (hvisits.mem_iff.mp he)

/-- **A failed load leaves the session untouched, in every order, if and only if** there is none,
or the session has already what the load assigns. -/
theorem atomic_iff (l : Loader) (codec : Codec V) (s : Session V) (outcome : StoreOutcome) :
    l.Atomic codec s outcome ↔ l.Good codec outcome ∨ l.Has codec s outcome := by
  have hnothing (fld v : Bytes) (h : (∅ : Record).lookup fld = some v) :
      (l.field codec s fld v).1 = s := by
    cases h
  constructor
  · intro h
    refine or_iff_not_imp_left.mpr fun hbad => ?_
    cases outcome with
    | failed text =>
      refine ⟨h.reset_of_no_fields (.failed text) nofun ?_, hnothing⟩
      rintro rfl
      exact Option.some_ne_none _
    | noRows =>
      refine ⟨h.reset_of_no_fields .noRows nofun ?_, hnothing⟩
      rintro rfl
      exact Option.some_ne_none _
    | record r =>
      by_cases hgood : ∀ fld v, r.lookup fld = some v → fieldError codec fld v = none
      · -- then the record is empty, and is taken for a missing one
        have hempty : l = obtain ∧ r = ∅ := by
          by_contra hne
          exact hbad ⟨fun hl hr => hne ⟨hl, hr⟩, hgood⟩
        obtain ⟨rfl, rfl⟩ := hempty
        refine ⟨h.reset_of_no_fields (.record visits_empty) nofun ?_, hnothing⟩
        exact fun _ => Option.some_ne_none _
      · push Not at hgood
        obtain ⟨fld, v, hlookup, herror⟩ := hgood
        exact ⟨(h.reset hlookup herror).1, fun fld' v' => h.field hlookup herror⟩
  · rintro (hgood | hhas)
    · refine ⟨fun reply hgives hfails => ?_, fun reply reply' hgives hgives' => ?_⟩
      · rw [load_of_good hgood hgives] at hfails
        exact absurd rfl hfails
      · rw [load_of_good hgood hgives, load_of_good hgood hgives']
    · refine ⟨fun reply hgives _ => load_of_has hhas hgives, fun reply reply' hgives hgives' => ?_⟩
      rw [load_of_has hhas hgives, load_of_has hhas hgives']

/-! ## A record with a bad field -/

/-- The frontend "g", and data that are no JSON. -/
def badData : Record := ((∅ : Record).insert fieldKeyFrontendID [103]).insert fieldKeyData [33]

/-- The load fails in both orders, and after one of them the frontend is that of the record; the
session is offline after both, and after a store that fails. -/
theorem half_loaded :
    (∃ entries s e, Visits badData entries ∧
      obtain.load Codec.channels {} (.fields entries) = (s, some e) ∧
      s.frontendID = [103] ∧ s.online = false) ∧
    (∃ entries s e, Visits badData entries ∧
      obtain.load Codec.channels {} (.fields entries) = (s, some e) ∧
      s.frontendID = [] ∧ s.online = false) ∧
    (∃ s e, obtain.load Codec.channels {} (.failed []) = (s, some e) ∧ s.online = false) ∧
    ¬ obtain.Atomic Codec.channels {} (.record badData) := by
  have hvisits : Visits badData [(fieldKeyData, [33]), (fieldKeyFrontendID, [103])] :=
    (visits_empty.cons Finmap.notMem_empty [103]).cons (by decide +kernel) [33]
  have hswapped := hvisits.of_perm (List.Perm.swap _ _ _)
  refine ⟨⟨_, _, _, hswapped, rfl, rfl, rfl⟩, ⟨_, _, _, hvisits, rfl, rfl, rfl⟩,
    ⟨_, _, rfl, rfl⟩, fun h => ?_⟩
  have hsame := h.unchanged _ (.record hvisits) (Option.some_ne_none _)
  exact Bool.false_ne_true (congrArg Session.online hsame)

end Pitaya.Loader
