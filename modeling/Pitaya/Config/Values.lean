import Pitaya.Foundations.ByteString

/-!
# Applying a decoded configuration

`config/viper_config.go`: a reloaded configuration is decoded into a fresh value, and
`applyConfigValue` then copies it into the loader's object, position by position, so that the
fields that are no configuration keep their values.

* `Field`, `Access` — what reflection tells about the fields of a struct, and whether a position
  may be set.  A field of an unexported embedded struct may be, the struct itself may not.
* `applyConfigValue` — the object after the call, `reload` — one turn of `reloadSnapshot`.
* `descend`, `arrive` — the pairs of positions at which the call arrives.
* `part_apply_from`, `apply_of_ends` — what it leaves there.

Both values have the same type; nothing below depends on it.
-/

namespace Pitaya.Config

open Option

/-- A field of a struct type, with its `mapstructure` tag. -/
structure Field where
  pkgPath : Bytes := []
  anonymous : Bool := false
  tag : Bytes := []

namespace Field

/-- The parts of the tag between the commas. -/
def tags (f : Field) : List Bytes := f.tag.splitOn 0x2C

/-- The field is no configuration: it is unexported and not embedded, or tagged "-". -/
def excluded (f : Field) : Bool := f.pkgPath != [] && !f.anonymous || f.tags.head? == some [0x2D]

end Field

/-- `CanSet` of an addressable value: the flags of a `reflect.Value`. -/
inductive Access
  | settable
  | embedRO
  | stickyRO
  deriving DecidableEq

namespace Access

def field (a : Access) (f : Field) : Access :=
  if a = .stickyRO then .stickyRO
  else if f.pkgPath = [] then .settable
  else if f.anonymous then .embedRO
  else .stickyRO

/-- `Index`, and `Elem` of an interface; `Elem` of a pointer keeps the flags. -/
def elem : Access → Access
  | .settable => .settable
  | _ => .stickyRO

/-- `if dst.CanSet() { dst.Set(decoded) }` -/
def set {α : Type} (a : Access) (dst decoded : α) : α := if a = .settable then decoded else dst

end Access

/-- The struct types of the program, and `time.Time`. -/
structure Types (T : Type) where
  fields : T → List Field
  time : T

/-- A field that is configuration. -/
def Types.config {T : Type} (U : Types T) (t : T) (i : ℕ) : Option Field :=
  (U.fields t)[i]?.filter (!·.excluded)

/-- A value that is a tree.  Maps, slices and scalars are leaves.  The fields of a struct and the
elements of an array are numbered; there is nothing behind the last one. -/
inductive Value (T L : Type)
  | leaf (x : L)
  | nilPointer
  | pointer (elem : Value T L)
  | nilInterface
  | interface (typ : T) (elem : Value T L)
  | array (len : ℕ) (index : ℕ → Value T L)
  | struct (typ : T) (field : ℕ → Value T L)

variable {T L : Type} [DecidableEq T] (U : Types T)

/-- `applyConfigValue`: the value of `dst` after the call. -/
def applyConfigValue (a : Access) : Value T L → Value T L → Value T L
  | .interface t v, .interface t' v' =>
    if t = t' ∧ a = .settable then .interface t (applyConfigValue .settable v v')
    else a.set (.interface t v) (.interface t' v')
  | .pointer v, .pointer v' => .pointer (applyConfigValue a v v')
  | .array n v, .array _ v' =>
    .array n fun i => if i < n then applyConfigValue a.elem (v i) (v' i) else v i
  | .struct t v, .struct t' v' =>
    if t = U.time then a.set (.struct t v) (.struct t' v')
    else .struct t fun i =>
      match U.config t i with
      | none => v i
      | some f => applyConfigValue (a.field f) (v i) (v' i)
  | dst, decoded => a.set dst decoded

/-- One turn of the loop of `reloadSnapshot`, for a loader that provides a pointer to `object`:
the object after it, and whether `Reload` is called.  `none` is an error of the decoder. -/
def reload (object : Value T L) : Option (Value T L) → Value T L × Bool
  | none => (object, false)
  | some decoded => (applyConfigValue U .settable object decoded, true)

/-! ## Positions -/

/-- A step into a value. -/
inductive Step
  | elem
  | dynamic
  | index (i : ℕ)
  | field (i : ℕ)

/-- The part of a value that a step leads to. -/
def Value.child : Value T L → Step → Option (Value T L)
  | .pointer v, .elem => some v
  | .interface _ v, .dynamic => some v
  | .array n v, .index i => if i < n then some (v i) else none
  | .struct t v, .field i => (U.fields t)[i]?.map fun _ => v i
  | _, _ => none

/-- The part of a value at the end of a path. -/
def Value.part (v : Value T L) (path : List Step) : Option (Value T L) :=
  path.foldlM (fun v step => v.child U step) v

/-- A step into both values: through pointers that are not nil, interfaces of equal dynamic type,
arrays, and structs other than times, there by a field that is configuration. -/
def descend : Access × Value T L × Value T L → Step → Option (Access × Value T L × Value T L)
  | (a, .interface t v, .interface t' v'), .dynamic =>
    if t = t' then some (a.elem, v, v') else none
  | (a, .pointer v, .pointer v'), .elem => some (a, v, v')
  | (a, .array n v, .array _ v'), .index i => if i < n then some (a.elem, v i, v' i) else none
  | (a, .struct t v, .struct _ v'), .field i =>
    if t = U.time then none else (U.config t i).map fun f => (a.field f, v i, v' i)
  | _, _ => none

/-- The pair of positions at the end of a path. -/
def arrive (dst decoded : Value T L) (path : List Step) :
    Option (Access × Value T L × Value T L) :=
  path.foldlM (descend U) (.settable, dst, decoded)

/-- There is no step into both: one of two pointers or interfaces is nil, or the dynamic types
differ, or it is a leaf or a time. -/
def Value.Ends : Value T L → Value T L → Prop
  | .interface t _, .interface t' _ => t ≠ t'
  | .pointer _, .pointer _ => False
  | .array .., .array .. => False
  | .struct t _, .struct _ _ => t = U.time
  | _, _ => True

variable {U} {a : Access} {v v' : Value T L} {step : Step} {x : Access × Value T L × Value T L}

theorem apply_stickyRO (v v' : Value T L) : applyConfigValue U .stickyRO v v' = v := by
  induction v generalizing v' with
  | pointer v ih => cases v' <;> simp [applyConfigValue, Access.set, ih]
  | array n v ih => cases v' <;> simp [applyConfigValue, Access.set, Access.elem, ih]
  | struct t v ih =>
    cases v' <;> simp only [applyConfigValue, Access.set, Access.field, reduceCtorEq, if_false]
    split_ifs
    · rfl
    · congr 1
      funext i
      split <;> simp [ih]
  | _ => cases v' <;> simp [applyConfigValue, Access.set]

theorem apply_self (a : Access) (v : Value T L) : applyConfigValue U a v v = v := by
  induction v generalizing a with
  | struct t v ih =>
    simp only [applyConfigValue, Access.set, ite_self]
    split_ifs
    · rfl
    · congr 1
      funext i
      split <;> simp [ih]
  | _ => simp_all [applyConfigValue, Access.set]

theorem apply_of_ends (h : v.Ends U v') : applyConfigValue U a v v' = a.set v v' := by
  cases v <;> cases v' <;> simp_all [applyConfigValue, Value.Ends]

theorem apply_apply_of_set (h : applyConfigValue U a v v' = a.set v v') :
    applyConfigValue U a (applyConfigValue U a v v') v' = applyConfigValue U a v v' := by
  rw [h]
  unfold Access.set at h ⊢
  split_ifs at h ⊢
  · exact apply_self a v'
  · exact h

theorem apply_apply (a : Access) (v v' : Value T L) :
    applyConfigValue U a (applyConfigValue U a v v') v' = applyConfigValue U a v v' := by
  induction v generalizing a v' with
  | interface t v ih =>
    cases v' with
    | interface t' =>
      by_cases h : t = t' ∧ a = .settable
      · simp [applyConfigValue, h, ih]
      · exact apply_apply_of_set (by rw [applyConfigValue, if_neg h])
    | _ => exact apply_apply_of_set (apply_of_ends trivial)
  | pointer v ih =>
    cases v' with
    | pointer => simp [applyConfigValue, ih]
    | _ => exact apply_apply_of_set (apply_of_ends trivial)
  | array n v ih =>
    cases v' with
    | array =>
      simp only [applyConfigValue, Value.array.injEq, true_and]
      funext i
      split_ifs <;> simp [ih]
    | _ => exact apply_apply_of_set (apply_of_ends trivial)
  | struct t v ih =>
    cases v' with
    | struct =>
      by_cases h : t = U.time
      · exact apply_apply_of_set (apply_of_ends h)
      · simp only [applyConfigValue, if_neg h, Value.struct.injEq, true_and]
        funext i
        cases U.config t i <;> simp [ih]
    | _ => exact apply_apply_of_set (apply_of_ends trivial)
  | _ => exact apply_apply_of_set (by cases v' <;> rfl)

theorem child_apply (h : descend U (a, v, v') step = some x) :
    v.child U step = some x.2.1 ∧
      (applyConfigValue U a v v').child U step = some (applyConfigValue U x.1 x.2.1 x.2.2) := by
  unfold descend at h
  split at h
  · next heq =>
    cases heq
    obtain ⟨ht, ⟨⟩⟩ := ite_none_right_eq_some.mp h
    subst ht
    -- below an interface that may not be set, nothing is
    cases a <;> simp [applyConfigValue, Access.set, Access.elem, Value.child, apply_stickyRO]
  · next heq =>
    cases heq
    cases h
    exact ⟨rfl, rfl⟩
  · next heq =>
    cases heq
    obtain ⟨hi, ⟨⟩⟩ := ite_none_right_eq_some.mp h
    simp [applyConfigValue, Value.child, hi]
  · next heq =>
    cases heq
    obtain ⟨ht, h⟩ := ite_none_left_eq_some.mp h
    obtain ⟨f, hf, rfl⟩ := map_eq_some_iff.mp h
    have hi := (filter_eq_some_iff.mp hf).1
    simp [applyConfigValue, Value.child, ht, hi, hf]
  · cases h

theorem part_apply_from (path : List Step) (h : path.foldlM (descend U) (a, v, v') = some x) :
    v.part U path = some x.2.1 ∧
      (applyConfigValue U a v v').part U path = some (applyConfigValue U x.1 x.2.1 x.2.2) := by
  induction path generalizing a v v' with
  | nil =>
    cases h
    exact ⟨rfl, rfl⟩
  | cons step path ih =>
    obtain ⟨⟨b, w, w'⟩, hstep, hrest⟩ := bind_eq_some_iff.mp h
    obtain ⟨hv, hr⟩ := child_apply hstep
    simp only [Value.part, List.foldlM_cons, hv, hr]
    exact ih hrest

/-- Every excluded field at which a reload arrives keeps its value. -/
theorem part_reload_excluded {object decoded : Value T L} {path : List Step} {t t' : T}
    {w w' : ℕ → Value T L} {i : ℕ} {f : Field}
    (h : arrive U object decoded path = some (a, .struct t w, .struct t' w')) (ht : t ≠ U.time)
    (hf : (U.fields t)[i]? = some f) (hex : f.excluded = true) :
    object.part U (path ++ [.field i]) = some (w i) ∧
      (reload U object (some decoded)).1.part U (path ++ [.field i]) = some (w i) := by
  obtain ⟨hv, hr⟩ := part_apply_from path h
  have hnone : U.config t i = none := by simp [Types.config, hf, hex]
  simp only [Value.part, reload, List.foldlM_append] at hv hr ⊢
  rw [hv, hr]
  simp [Value.child, applyConfigValue, ht, hf, hnone]

end Pitaya.Config
