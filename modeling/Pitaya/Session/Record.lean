import Pitaya.Foundations.Ranges
import Pitaya.Session.Overlay

/-!
# Loading a record of the cluster store

`ObtainFromCluster` and `InitialFromCluster` of `session/session.go` read a record, which is a map
from field names to strings, in the order of a `range` loop, and assign the fields of a session
one after the other.  Each field of the record is read into fields of the session of its own.

* `Loader` — the two loaders, with the fields each of them reads.
-/

namespace Pitaya

open Ranges Finmap Overlay

/-- New values for the fields a loader assigns; `none` leaves a field as it is. -/
structure Writes (V : Type) extends Overlay V where
  frontendID : Option Bytes := none
  frontendSessionID : Option ℤ := none
  ip : Option Bytes := none
  online : Option Bool := none

/-- The session with the new values. -/
def Writes.apply {V : Type} (w : Writes V) (s : Session V) : Session V :=
  { w.toOverlay.layOver s with
    frontendID := w.frontendID.getD s.frontendID
    frontendSessionID := w.frontendSessionID.getD s.frontendSessionID
    ip := w.ip.getD s.ip
    online := w.online.getD s.online }

/-- A record of the cluster store. -/
abbrev Record : Type := Finmap fun _ : Bytes => Bytes

/-- A record with one field, as a partial map. -/
def only (field v : Bytes) : Bytes → Option Bytes := fun key => if key = field then some v else none

/-! ## One field after another -/

section Components

variable {α : Type} (g : Bytes → Option α) (x : α) (key : Bytes)

theorem getD_only_erase {record : Record} {field v : Bytes} (h : record.lookup field = some v) :
    (((record.erase field).lookup key).bind g).getD (((only field v key).bind g).getD x) =
      ((record.lookup key).bind g).getD x := by
  by_cases hkey : key = field
  · subst hkey
    rw [lookup_erase, h, only, if_pos rfl]
    rfl
  · rw [lookup_erase_ne hkey, only, if_neg hkey]
    rfl

theorem getD_only_comm {field field' : Bytes} (v v' : Bytes) (hne : field ≠ field') :
    ((only field v key).bind g).getD (((only field' v' key).bind g).getD x) =
      ((only field' v' key).bind g).getD (((only field v key).bind g).getD x) := by
  by_cases hkey : key = field
  · have hother : key ≠ field' := hkey ▸ hne
    rw [only, only, if_pos hkey, if_neg hother]
    rfl
  · rw [only, if_neg hkey]
    rfl

end Components

/-! ## The loaders -/

/-- The two functions that read a record. -/
inductive Loader where
  /-- `InitialFromCluster`. -/
  | initial
  /-- `ObtainFromCluster`. -/
  | obtain
  deriving DecidableEq, Repr

namespace Loader

variable {V : Type} (codec : Codec V)

open Session

/-- The loader called on a session, with the reply of the store. -/
def load : Loader → Session V → HgetallReply → Session V × Option SessionError
  | initial, s, reply => s.initialFromCluster codec reply
  | obtain, s, reply => s.obtainFromCluster codec reply

/-- What is assigned before the store is asked: `reset` in `ObtainFromCluster`. -/
def reset : Loader → Session V → Session V
  | initial, s => s
  | obtain, s => { s with online := false }

/-- The `switch` of the loader. -/
def field : Loader → Session V → Bytes → Bytes → Session V × Option SessionError
  | initial => initialField codec
  | obtain => obtainField codec

/-- The fields that say where the connection is; only `ObtainFromCluster` reads them. -/
def connection : Loader → (Bytes → Option Bytes) → Bytes → Option Bytes
  | initial, _ => fun _ => none
  | obtain, get => get

/-- What the fields of a record write, given as a partial map. -/
def writes (l : Loader) (get : Bytes → Option Bytes) : Writes V where
  data := (get fieldKeyData).bind fun v => (decodeSessionData codec v).toOption
  encodedData := (get fieldKeyData).bind fun v =>
    (decodeSessionData codec v).toOption.bind fun data => (codec.marshal data).toOption
  backends := (get fieldKeyBackends).bind fun v =>
    (decodeSessionData codec v).toOption.map fun m => some (mapStrInter2MapStrStr codec m)
  frontendID := (l.connection get fieldKeyFrontendID).bind some
  frontendSessionID := (l.connection get fieldKeyFrontendSessID).bind fun v =>
    some (Strconv.parseInt v).1
  ip := (l.connection get fieldKeyIP).bind some
  online := (l.connection get fieldKeyOnline).bind fun v => some (decide (v = [49]))

variable {codec} {l : Loader} {s : Session V} {fld fld' v v' : Bytes}

theorem only_self (fld v : Bytes) : only fld v fld = some v := if_pos rfl

theorem only_of_ne {key fld : Bytes} (v : Bytes) (h : key ≠ fld) : only fld v key = none := if_neg h

theorem toOverlay_writes (l : Loader) (fld v : Bytes) :
    (l.writes codec (only fld v)).toOverlay = fieldOverlay codec fld v := by
  unfold fieldOverlay
  by_cases hbackends : fld = fieldKeyBackends
  · subst hbackends
    have hother : only fieldKeyBackends v fieldKeyData = none := only_of_ne v (by decide)
    simp only [writes, hother, only_self, Option.bind_none, Option.bind_some]
    cases decodeSessionData codec v <;> rfl
  by_cases hdata : fld = fieldKeyData
  · subst hdata
    have hother : only fieldKeyData v fieldKeyBackends = none := only_of_ne v (by decide)
    simp only [writes, hother, only_self, Option.bind_none, Option.bind_some]
    cases decodeSessionData codec v <;> rfl
  · rw [if_neg hbackends, if_neg hdata]
    simp only [writes, only_of_ne v (Ne.symm hbackends), only_of_ne v (Ne.symm hdata),
      Option.bind_none]

theorem apply_of_no_connection {w : Writes V}
    (h : w.frontendID = none ∧ w.frontendSessionID = none ∧
    w.ip = none ∧ w.online = none) (s : Session V) : w.apply s = w.toOverlay.layOver s := by
  obtain ⟨hid, hsess, hip, honline⟩ := h
  rw [Writes.apply, hid, hsess, hip, honline]
  rfl

theorem obtainField_of_ne (s : Session V) (fld v : Bytes) (hbackends : fld ≠ fieldKeyBackends)
    (hdata : fld ≠ fieldKeyData) :
    s.obtainField codec fld v = ((obtain.writes codec (only fld v)).apply s, none) := by
  have hoverlay : (obtain.writes codec (only fld v)).toOverlay = {} :=
    (toOverlay_writes obtain fld v).trans (fieldOverlay_of_ne codec v hbackends hdata).1
  unfold obtainField Writes.apply
  rw [hoverlay, layOver_empty, if_neg hbackends, if_neg hdata]
  dsimp only [writes, connection]
  by_cases hid : fld = fieldKeyFrontendID
  · subst hid
    rfl
  by_cases hsess : fld = fieldKeyFrontendSessID
  · subst hsess
    rfl
  by_cases hip : fld = fieldKeyIP
  · subst hip
    rfl
  by_cases honline : fld = fieldKeyOnline
  · subst honline
    rfl
  · rw [if_neg hid, if_neg hsess, if_neg hip, if_neg honline, only_of_ne v (Ne.symm hid),
      only_of_ne v (Ne.symm hsess), only_of_ne v (Ne.symm hip), only_of_ne v (Ne.symm honline)]
    rfl

/-- **One field of a record**, as what it writes and its error. -/
theorem field_eq (l : Loader) (s : Session V) (fld v : Bytes) :
    l.field codec s fld v = ((l.writes codec (only fld v)).apply s, fieldError codec fld v) := by
  cases l with
  | initial =>
    rw [apply_of_no_connection ⟨rfl, rfl, rfl, rfl⟩, toOverlay_writes]
    exact initialField_eq codec s fld v
  | obtain =>
    by_cases hbackends : fld = fieldKeyBackends
    · subst hbackends
      rw [apply_of_no_connection ⟨rfl, rfl, rfl, rfl⟩, toOverlay_writes]
      exact loadBackends_eq codec s v
    by_cases hdata : fld = fieldKeyData
    · subst hdata
      rw [apply_of_no_connection ⟨rfl, rfl, rfl, rfl⟩, toOverlay_writes]
      exact loadData_eq codec s v
    · rw [(fieldOverlay_of_ne codec v hbackends hdata).2]
      exact obtainField_of_ne s fld v hbackends hdata

/-! ## Records -/

theorem apply_erase {record : Record} (h : record.lookup fld = some v) (s : Session V) :
    (l.writes codec (record.erase fld).lookup).apply ((l.writes codec (only fld v)).apply s) =
      (l.writes codec record.lookup).apply s := by
  cases l <;>
    simp only [Writes.apply, layOver, writes, connection, getD_only_erase _ _ _ h,
      Option.bind_none, Option.getD_none]

/-- **Two fields of a record do not interfere.** -/
theorem apply_comm (hne : fld ≠ fld') (v v' : Bytes) (s : Session V) :
    (l.writes codec (only fld v)).apply ((l.writes codec (only fld' v')).apply s) =
      (l.writes codec (only fld' v')).apply ((l.writes codec (only fld v)).apply s) := by
  cases l <;>
    simp only [Writes.apply, layOver, writes, connection, getD_only_comm _ _ _ v v' hne,
      Option.bind_none, Option.getD_none]

/-- **A record without a bad field** is read alike in every order. -/
theorem loadFields_of_visits {record : Record} {entries : List (Bytes × Bytes)}
    (hvisits : Visits record entries)
    (hgood : ∀ fld v, record.lookup fld = some v → fieldError codec fld v = none) (s : Session V) :
    loadFields (l.field codec) s entries = ((l.writes codec record.lookup).apply s, none) := by
  induction entries generalizing record s with
  | nil =>
    obtain rfl := hvisits.eq_empty_of_nil
    cases l <;> rfl
  | cons entry entries ih =>
    obtain ⟨fld, v⟩ := entry
    have hlookup : record.lookup fld = some v := hvisits.lookup_head
    have hrest (fld' v') (h : (record.erase fld).lookup fld' = some v') :
        fieldError codec fld' v' = none := by
      refine hgood fld' v' ?_
      rwa [lookup_erase_ne] at h
      rintro rfl
      rw [lookup_erase] at h
      cases h
    rw [loadFields, field_eq, hgood fld v hlookup]
    dsimp only
    rw [ih hvisits.tail hrest, apply_erase hlookup]

end Loader

end Pitaya
