import Mathlib.Tactic.Common

/-!
# Outcomes: a value, an error, or a crash

A call of a function in a language with run-time checks ends in one of three
ways: it returns a value, it returns an error, or it is torn down by an access
outside a slice.  `Outcome ε α` keeps the three apart, so that "returns normally"
is a statement (`Outcome.Returns`) and not a convention.

`index`, `slice` and `sliceFrom` are the checked accesses on a finite sequence;
the lemmas beside them say when they succeed, and with what.
-/

universe u v w

/-- How a call ends. -/
inductive Outcome (ε : Type u) (α : Type v) where
  | ok (value : α)
  | error (err : ε)
  | crash
  deriving DecidableEq, Repr

namespace Outcome

variable {ε : Type u} {α β : Type v}

/-- The call returned, with a value or with an error. -/
def Returns {ε : Type u} {α : Type v} : Outcome ε α → Prop
  | .crash => False
  | _ => True

instance {ε : Type u} {α : Type v} : ∀ x : Outcome ε α, Decidable x.Returns
  | .ok _ => .isTrue trivial
  | .error _ => .isTrue trivial
  | .crash => .isFalse id

/-- Run `f` on the value, if there is one. -/
def bind (x : Outcome ε α) (f : α → Outcome ε β) : Outcome ε β :=
  match x with
  | .ok a => f a
  | .error e => .error e
  | .crash => .crash

instance : Monad (Outcome ε) where
  pure := .ok
  bind := Outcome.bind

@[simp] theorem pure_eq_ok (a : α) : (pure a : Outcome ε α) = .ok a := rfl

@[simp] theorem ok_bind (a : α) (f : α → Outcome ε β) : (Outcome.ok a >>= f) = f a := rfl

@[simp] theorem crash_bind (f : α → Outcome ε β) :
    ((Outcome.crash : Outcome ε α) >>= f) = .crash := rfl

@[simp] theorem returns_ok (a : α) : (Outcome.ok a : Outcome ε α).Returns := trivial

@[simp] theorem returns_error (e : ε) : (Outcome.error e : Outcome ε α).Returns := trivial

@[simp] theorem not_returns_crash : ¬ (Outcome.crash : Outcome ε α).Returns := id

variable {x : Outcome ε α}

theorem not_returns_iff : ¬x.Returns ↔ x = .crash := by
  cases x <;> simp

theorem bind_eq_ok {f : α → Outcome ε β} {b : β} (h : (x >>= f) = .ok b) :
    ∃ a, x = .ok a ∧ f a = .ok b := by
  cases x with
  | ok a => exact ⟨a, rfl, h⟩
  | error => cases h
  | crash => cases h

theorem bind_bind {γ : Type v} (x : Outcome ε α) (f : α → Outcome ε β) (g : β → Outcome ε γ) :
    ((x >>= f) >>= g) = x >>= fun a => f a >>= g := by
  cases x <;> rfl

/-- A sequence of calls returns if each does. -/
theorem Returns.bind {f : α → Outcome ε β} (hx : x.Returns) (hf : ∀ a, x = .ok a → (f a).Returns) :
    (x >>= f).Returns := by
  cases x with
  | ok a => exact hf a rfl
  | error e => exact returns_error e
  | crash => exact absurd hx not_returns_crash

/-- Working on with the value neither adds nor removes a crash. -/
theorem returns_map_iff (f : α → β) : (x >>= fun a => pure (f a)).Returns ↔ x.Returns := by
  cases x <;> exact Iff.rfl

/-- Change the error. -/
def mapError {ε' : Type w} (f : ε → ε') (x : Outcome ε α) : Outcome ε' α :=
  match x with
  | .ok a => .ok a
  | .error e => .error (f e)
  | .crash => .crash

@[simp] theorem returns_mapError {ε' : Type w} {f : ε → ε'} :
    (x.mapError f).Returns ↔ x.Returns := by
  cases x <;> exact Iff.rfl

/-! ## Calls without an error -/

/-- A call that cannot return an error, where one that can is expected. -/
def lift (x : Outcome Empty α) : Outcome ε α :=
  match x with
  | .ok a => .ok a
  | .crash => .crash

@[simp] theorem returns_lift {x : Outcome Empty α} :
    (x.lift : Outcome ε α).Returns ↔ x.Returns := by
  cases x with
  | ok => exact Iff.rfl
  | error e => cases e
  | crash => exact Iff.rfl

/-- Of two calls without an error both have to return. -/
theorem returns_bind_iff {x : Outcome Empty α} {f : α → Outcome Empty β} :
    (x >>= f).Returns ↔ ∃ a, x = .ok a ∧ (f a).Returns := by
  cases x with
  | ok a => exact ⟨fun h => ⟨a, rfl, h⟩, fun ⟨_, heq, h⟩ => ok.inj heq ▸ h⟩
  | error e => cases e
  | crash => exact ⟨fun h => absurd h not_returns_crash, fun ⟨_, heq, _⟩ => by cases heq⟩

/-- The error of a call as a value. -/
def toExcept {ε : Type v} {α : Type v} (x : Outcome ε α) : Outcome Empty (Except ε α) :=
  match x with
  | .ok a => .ok (.ok a)
  | .error e => .ok (.error e)
  | .crash => .crash

/-! ## Checked accesses -/

/-- `xs[i]`: crashes outside the sequence. -/
def index (xs : List α) (i : ℕ) : Outcome ε α :=
  match xs[i]? with
  | some a => .ok a
  | none => .crash

/-- `xs[lo:hi]`: crashes unless `lo ≤ hi` and `hi` is within the sequence. -/
def slice (xs : List α) (lo hi : ℕ) : Outcome ε (List α) :=
  if lo ≤ hi ∧ hi ≤ xs.length then .ok ((xs.take hi).drop lo) else .crash

/-- `xs[lo:]`. -/
def sliceFrom (xs : List α) (lo : ℕ) : Outcome ε (List α) :=
  slice xs lo xs.length

variable {xs : List α}

theorem index_of_drop {tail : List α} {i : ℕ} {a : α} (h : xs.drop i = a :: tail) :
    (index xs i : Outcome ε α) = .ok a := by
  have hget : xs[i]? = some a := by
    rw [← List.head?_drop, h, List.head?_cons]
  rw [index, hget]

theorem index_returns {i : ℕ} (h : i < xs.length) : (index xs i : Outcome ε α).Returns := by
  rw [index, List.getElem?_eq_getElem h]
  exact returns_ok _

theorem slice_returns {lo hi : ℕ} (hlo : lo ≤ hi) (hhi : hi ≤ xs.length) :
    (slice xs lo hi : Outcome ε (List α)).Returns := by
  rw [slice, if_pos ⟨hlo, hhi⟩]
  exact returns_ok _

theorem slice_length {ys : List α} {lo hi : ℕ}
    (h : (slice xs lo hi : Outcome ε (List α)) = .ok ys) : ys.length = hi - lo := by
  rw [slice] at h
  split at h
  · next hin =>
    obtain rfl := ok.inj h
    rw [List.length_drop, List.length_take, Nat.min_eq_left hin.2]
  · cases h

/-- An element that was read stands at its index. -/
theorem index_eq_ok {i : ℕ} {a : α} (h : (index xs i : Outcome ε α) = .ok a) :
    xs.drop i = a :: xs.drop (i + 1) := by
  rw [index] at h
  split at h
  · next b hget =>
    obtain ⟨hlt, rfl⟩ := List.getElem?_eq_some_iff.mp hget
    obtain rfl := ok.inj h
    exact List.drop_eq_getElem_cons hlt
  · cases h

/-- A slice that was taken stands between its bounds. -/
theorem slice_eq_ok {ys : List α} {lo hi : ℕ} (h : (slice xs lo hi : Outcome ε (List α)) = .ok ys) :
    xs.drop lo = ys ++ xs.drop hi := by
  rw [slice] at h
  split at h
  · next hin =>
    obtain rfl := ok.inj h
    have hsplit : xs.drop lo = (xs.take hi ++ xs.drop hi).drop lo := by
      rw [List.take_append_drop]
    rw [hsplit, List.drop_append_of_le_length]
    rw [List.length_take, Nat.min_eq_left hin.2]
    exact hin.1
  · cases h

theorem slice_of_drop {ys tail : List α} {lo : ℕ} (hlo : lo ≤ xs.length)
    (h : xs.drop lo = ys ++ tail) :
    (slice xs lo (lo + ys.length) : Outcome ε (List α)) = .ok ys := by
  have hlen := congrArg List.length h
  rw [List.length_drop, List.length_append] at hlen
  rw [slice, if_pos ⟨Nat.le_add_right lo _, by omega⟩, List.drop_take, h,
    Nat.add_sub_cancel_left, List.take_left]

theorem sliceFrom_of_le {lo : ℕ} (hlo : lo ≤ xs.length) :
    (sliceFrom xs lo : Outcome ε (List α)) = .ok (xs.drop lo) := by
  rw [sliceFrom, slice, if_pos ⟨hlo, Nat.le_refl _⟩, List.take_length]

end Outcome
