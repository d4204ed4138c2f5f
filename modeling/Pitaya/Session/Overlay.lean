import Pitaya.Session.Session

/-!
# What a session takes from outside

`SetData` and the two loaders of `session/session.go` overwrite the custom data of a
session, its encoded copy and its backends, and stop where something cannot be decoded or
encoded.  What they have written by then depends on the argument or on the record of the
store alone, not on the session.

* `Overlay` — values laid over these three fields, the later ones over the earlier ones.
* `dataOverlay`, `fieldOverlay`, `recordOverlay`, `replyOverlay` — what is written, with the
  errors beside them.
* `setData_eq`, `initialFromCluster_eq`, `obtainFromCluster_covers` — the three calls, as an
  overlay and an error.
-/

namespace Pitaya

open Option

/-- New values for the fields a loader writes; `none` leaves a field as it is. -/
structure Overlay (V : Type) where
  data : Option (StringMap V) := none
  encodedData : Option Bytes := none
  backends : Option (StringMap Bytes) := none

namespace Overlay

variable {V : Type} {o o' : Overlay V} {s s' s'' : Session V}

/-- The session with the new values. -/
def layOver (o : Overlay V) (s : Session V) : Session V :=
  { s with
    data := o.data.getD s.data
    encodedData := o.encodedData.getD s.encodedData
    backends := o.backends.getD s.backends }

/-- One overlay after the other. -/
def andThen (o o' : Overlay V) : Overlay V where
  data := o'.data.or o.data
  encodedData := o'.encodedData.or o.encodedData
  backends := o'.backends.or o.backends

/-- The session has these values already. -/
def Fits (o : Overlay V) (s : Session V) : Prop :=
  (∀ m ∈ o.data, s.data = m) ∧ (∀ b ∈ o.encodedData, s.encodedData = b) ∧
    ∀ m ∈ o.backends, s.backends = m

/-- `s'` is `s` with the new values, up to the fields that say where the connection is. -/
structure Covers (o : Overlay V) (s s' : Session V) : Prop where
  uid : s'.uid = s.uid
  uidInt : s'.uidInt = s.uidInt
  isFrontend : s'.isFrontend = s.isFrontend
  data : s'.data = o.data.getD s.data
  encodedData : s'.encodedData = o.encodedData.getD s.encodedData
  backends : s'.backends = o.backends.getD s.backends

@[simp] theorem layOver_empty (s : Session V) : layOver {} s = s := rfl

@[simp] theorem layOver_andThen (o o' : Overlay V) (s : Session V) :
    (o.andThen o').layOver s = o'.layOver (o.layOver s) := by
  simp only [layOver, andThen, getD_or]

@[simp] theorem empty_andThen (o : Overlay V) : andThen {} o = o := by
  simp only [andThen, or_none]

theorem covers_layOver (o : Overlay V) (s : Session V) : o.Covers s (o.layOver s) :=
  ⟨rfl, rfl, rfl, rfl, rfl, rfl⟩

theorem Covers.refl (s : Session V) : Covers {} s s := ⟨rfl, rfl, rfl, rfl, rfl, rfl⟩

theorem Covers.trans (h : o.Covers s s') (h' : o'.Covers s' s'') :
    (o.andThen o').Covers s s'' where
  uid := h'.uid.trans h.uid
  uidInt := h'.uidInt.trans h.uidInt
  isFrontend := h'.isFrontend.trans h.isFrontend
  data := by rw [h'.data, h.data, andThen, getD_or]
  encodedData := by rw [h'.encodedData, h.encodedData, andThen, getD_or]
  backends := by rw [h'.backends, h.backends, andThen, getD_or]

theorem getD_eq_self_iff {α : Type} (x : Option α) (a : α) : x.getD a = a ↔ ∀ b ∈ x, a = b := by
  cases x <;> simp [eq_comm]

theorem Covers.same_iff_fits (h : o.Covers s s') :
    (s'.data = s.data ∧ s'.encodedData = s.encodedData ∧ s'.backends = s.backends) ↔
      o.Fits s := by
  rw [h.data, h.encodedData, h.backends, getD_eq_self_iff, getD_eq_self_iff, getD_eq_self_iff, Fits]

end Overlay

namespace Session

variable {V : Type} (codec : Codec V)

/-! ## Custom data -/

/-- A data map and its encoding, if there is one. -/
def dataOverlay (data : StringMap V) : Overlay V :=
  { data := some data, encodedData := (codec.marshal data).toOption }

/-- The error of encoding a data map. -/
def dataError (data : StringMap V) : Option SessionError :=
  match codec.marshal data with
  | .error e => some (.json e)
  | .ok _ => none

variable (s : Session V)

theorem updateEncodedData_eq (data : StringMap V) :
    updateEncodedData codec { s with data := data } =
      ((dataOverlay codec data).layOver s, dataError codec data) := by
  unfold updateEncodedData encodeSessionData dataError dataOverlay
  cases codec.marshal data <;> rfl

theorem setData_eq (data : StringMap V) :
    s.setData codec data =
      ((dataOverlay codec (some (data.getD ∅))).layOver s, dataError codec (some (data.getD ∅))) :=
  updateEncodedData_eq codec s _

/-! ## Fields of a record -/

variable (field v : Bytes)

/-- What the field of a record writes. -/
def fieldOverlay : Overlay V :=
  if field = fieldKeyBackends then
    match decodeSessionData codec v with
    | .error _ => {}
    | .ok m => { backends := some (some (mapStrInter2MapStrStr codec m)) }
  else if field = fieldKeyData then
    match decodeSessionData codec v with
    | .error _ => {}
    | .ok data => dataOverlay codec data
  else {}

/-- The error of a field of a record. -/
def fieldError : Option SessionError :=
  if field = fieldKeyBackends then
    match decodeSessionData codec v with
    | .error e => some (.json e)
    | .ok _ => none
  else if field = fieldKeyData then
    match decodeSessionData codec v with
    | .error e => some (.json e)
    | .ok data => dataError codec data
  else none

theorem loadBackends_eq (v : Bytes) :
    s.loadBackends codec v =
      ((fieldOverlay codec fieldKeyBackends v).layOver s, fieldError codec fieldKeyBackends v) := by
  unfold loadBackends fieldOverlay fieldError
  cases decodeSessionData codec v <;> rfl

theorem loadData_eq (v : Bytes) :
    s.loadData codec v =
      ((fieldOverlay codec fieldKeyData v).layOver s, fieldError codec fieldKeyData v) := by
  unfold loadData fieldOverlay fieldError
  cases decodeSessionData codec v with
  | error => rfl
  | ok data => exact updateEncodedData_eq codec s data

theorem initialField_eq :
    s.initialField codec field v =
      ((fieldOverlay codec field v).layOver s, fieldError codec field v) := by
  unfold initialField
  split
  · next h => rw [h, loadBackends_eq]
  next hbackends =>
  split
  · next h => rw [h, loadData_eq]
  · next hdata =>
    simp only [fieldOverlay, fieldError, if_neg hbackends, if_neg hdata, Overlay.layOver_empty]

theorem fieldOverlay_of_ne {field : Bytes} (v : Bytes) (hbackends : field ≠ fieldKeyBackends)
    (hdata : field ≠ fieldKeyData) :
    fieldOverlay codec field v = {} ∧ fieldError codec field v = none := by
  simp only [fieldOverlay, fieldError, if_neg hbackends, if_neg hdata, and_self]

theorem obtainField_covers :
    (fieldOverlay codec field v).Covers s (s.obtainField codec field v).1 ∧
      (s.obtainField codec field v).2 = fieldError codec field v := by
  by_cases hbackends : field = fieldKeyBackends
  · subst hbackends
    have hload : s.obtainField codec fieldKeyBackends v = s.loadBackends codec v := rfl
    rw [hload, loadBackends_eq]
    exact ⟨Overlay.covers_layOver _ s, rfl⟩
  by_cases hdata : field = fieldKeyData
  · subst hdata
    have hload : s.obtainField codec fieldKeyData v = s.loadData codec v := rfl
    rw [hload, loadData_eq]
    exact ⟨Overlay.covers_layOver _ s, rfl⟩
  · obtain ⟨hoverlay, herror⟩ := fieldOverlay_of_ne codec v hbackends hdata
    rw [hoverlay, herror]
    unfold obtainField
    split
    · exact ⟨⟨rfl, rfl, rfl, rfl, rfl, rfl⟩, rfl⟩
    split
    · exact ⟨⟨rfl, rfl, rfl, rfl, rfl, rfl⟩, rfl⟩
    split
    · exact ⟨⟨rfl, rfl, rfl, rfl, rfl, rfl⟩, rfl⟩
    split <;> exact ⟨⟨rfl, rfl, rfl, rfl, rfl, rfl⟩, rfl⟩

/-! ## Records -/

/-- What a record writes, up to the first field that fails. -/
def recordOverlay : List (Bytes × Bytes) → Overlay V
  | [] => {}
  | (field, v) :: entries =>
    match fieldError codec field v with
    | some _ => fieldOverlay codec field v
    | none => (fieldOverlay codec field v).andThen (recordOverlay entries)

/-- The error of the first field that fails. -/
def recordError : List (Bytes × Bytes) → Option SessionError
  | [] => none
  | (field, v) :: entries => (fieldError codec field v).or (recordError entries)

/-- **The loop of a loader** does with a record what it does with the fields, one after the
other. -/
theorem loadFields_overlay {R : Overlay V → Session V → Session V → Prop}
    (load : Session V → Bytes → Bytes → Session V × Option SessionError) (hrefl : ∀ s, R {} s s)
    (htrans : ∀ {o o' s s' s''}, R o s s' → R o' s' s'' → R (o.andThen o') s s'')
    (hload : ∀ s field v, R (fieldOverlay codec field v) s (load s field v).1 ∧
      (load s field v).2 = fieldError codec field v)
    (s : Session V) (entries : List (Bytes × Bytes)) :
    R (recordOverlay codec entries) s (loadFields load s entries).1 ∧
      (loadFields load s entries).2 = recordError codec entries := by
  induction entries generalizing s with
  | nil => exact ⟨hrefl s, rfl⟩
  | cons entry entries ih =>
    obtain ⟨field, v⟩ := entry
    obtain ⟨hfirst, herror⟩ := hload s field v
    rw [loadFields, recordOverlay, recordError, ← herror]
    generalize load s field v = r at *
    obtain ⟨s', err⟩ := r
    cases err with
    | some => exact ⟨hfirst, rfl⟩
    | none => exact ⟨htrans hfirst (ih s').1, (ih s').2⟩

/-- What the reply of the store writes. -/
def replyOverlay : HgetallReply → Overlay V
  | .fields entries => recordOverlay codec entries
  | .noRows => {}
  | .failed _ => {}

/-- The error of `InitialFromCluster`. -/
def initialError : HgetallReply → Option SessionError
  | .fields entries => recordError codec entries
  | .noRows => none
  | .failed e => some (.store e)

theorem initialFromCluster_eq (reply : HgetallReply) :
    s.initialFromCluster codec reply =
      ((replyOverlay codec reply).layOver s, initialError codec reply) := by
  cases reply with
  | failed => rfl
  | noRows => rfl
  | fields entries =>
    obtain ⟨hover, herror⟩ := loadFields_overlay codec
      (R := fun o s s' => s' = o.layOver s) (initialField codec) (fun _ => rfl)
      (fun h h' => by rw [h', h, Overlay.layOver_andThen])
      (fun s field v => by rw [initialField_eq]; exact ⟨rfl, rfl⟩) s entries
    exact Prod.ext hover herror

/-- The error of `ObtainFromCluster`. -/
def obtainError : HgetallReply → Option SessionError
  | .fields [] => some .sessionNotFound
  | .fields entries => recordError codec entries
  | .noRows => some .sessionNotFound
  | .failed e => some (.store e)

/-- `ObtainFromCluster` writes the same overlay, and the place of the connection. -/
theorem obtainFromCluster_covers (reply : HgetallReply) :
    (replyOverlay codec reply).Covers s (s.obtainFromCluster codec reply).1 ∧
      (s.obtainFromCluster codec reply).2 = obtainError codec reply := by
  have hreset : Overlay.Covers {} s { s with online := false } := ⟨rfl, rfl, rfl, rfl, rfl, rfl⟩
  cases reply with
  | failed | noRows => exact ⟨hreset, rfl⟩
  | fields entries =>
    cases entries with
    | nil => exact ⟨hreset, rfl⟩
    | cons entry entries =>
      obtain ⟨hload, herror⟩ := loadFields_overlay codec (obtainField codec)
        Overlay.Covers.refl Overlay.Covers.trans (obtainField_covers codec)
        { s with online := false } (entry :: entries)
      exact ⟨⟨hload.uid, hload.uidInt, hload.isFrontend, hload.data, hload.encodedData,
        hload.backends⟩, herror⟩

/-! ## What loading leaves alone -/

/-- The fields the pool's tables depend on: the bound uid and the side of the
connection. -/
structure SameIdentity (s s' : Session V) : Prop where
  uid : s'.uid = s.uid
  isFrontend : s'.isFrontend = s.isFrontend

namespace SameIdentity

theorem refl (s : Session V) : SameIdentity s s := ⟨rfl, rfl⟩

theorem trans {s s' s'' : Session V} (h : SameIdentity s s') (h' : SameIdentity s' s'') :
    SameIdentity s s'' :=
  ⟨h'.uid.trans h.uid, h'.isFrontend.trans h.isFrontend⟩

end SameIdentity

theorem setData_identity (s : Session V) (data : StringMap V) :
    SameIdentity s (s.setData codec data).1 := by
  rw [setData_eq]
  exact ⟨rfl, rfl⟩

theorem initialFromCluster_identity (s : Session V) (reply : HgetallReply) :
    SameIdentity s (s.initialFromCluster codec reply).1 := by
  rw [initialFromCluster_eq]
  exact ⟨rfl, rfl⟩

theorem obtainFromCluster_identity (s : Session V) (reply : HgetallReply) :
    SameIdentity s (s.obtainFromCluster codec reply).1 :=
  have hcovers := (s.obtainFromCluster_covers codec reply).1
  ⟨hcovers.uid, hcovers.isFrontend⟩

end Session

end Pitaya
