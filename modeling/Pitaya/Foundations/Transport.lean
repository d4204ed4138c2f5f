import Mathlib.Tactic.Common

/-!
# Reading from a transport that fragments

A transport hands a byte stream out in pieces of its own choosing: a read into a
buffer returns at least nothing and at most a buffer full, and at the end of the
stream an error.  The two ways of reading a fixed amount from such a transport
are modelled with their loops:

* `readFull` — `io.ReadFull`: read until the buffer is full or a read fails.
* `readAllLimit` — `io.ReadAll` of an `io.LimitReader`: read until the limit is
  reached or a read fails, end of file being no failure.

What `readFull` returns depends on the pieces only through their concatenation `rest`
(`readFull_of_le`, `readFull_of_lt`).  `readAllLimit` also drops the bytes that come
together with an error (`failsWithLast`, `readAllLimit_of_le`).
-/

universe u v

/-- How a stream ends: at end of file or with another error, which the transport
reports on its own or together with the last bytes. -/
inductive Transport.End (ε : Type v) where
  | eof (together : Bool)
  | error (together : Bool) (err : ε)
  deriving DecidableEq, Repr

/-- The errors of a read: `io.EOF`, `io.ErrUnexpectedEOF`, or the transport's. -/
inductive Transport.ReadError (ε : Type v) where
  | eof
  | unexpectedEOF
  | error (err : ε)
  deriving DecidableEq, Repr

/-- A transport: the pieces it will hand out, possibly empty ones, and how the
stream ends. -/
structure Transport (α : Type u) (ε : Type v) where
  chunks : List (List α)
  ending : Transport.End ε
  deriving DecidableEq, Repr

namespace Transport

open List

variable {α : Type u} {ε : Type v}

/-- The error every read reports once the stream is over. -/
def End.err : End ε → ReadError ε
  | .eof _ => .eof
  | .error _ e => .error e

/-- The error that comes with the last bytes. -/
def End.withLast : End ε → Option (ReadError ε)
  | .eof true => some .eof
  | .error true e => some (.error e)
  | _ => none

variable (r : Transport α ε)

/-- What is still to come. -/
def rest : List α := r.chunks.flatten

/-- One `Read` into a buffer of length `n`. -/
def read (n : ℕ) : List α × Option (ReadError ε) × Transport α ε :=
  match r.chunks with
  | [] => ([], some r.ending.err, r)
  | c :: cs =>
    if c.length ≤ n then
      (c, if cs.isEmpty then r.ending.withLast else none, ⟨cs, r.ending⟩)
    else (c.take n, none, ⟨c.drop n :: cs, r.ending⟩)

/-- The last bytes come together with an error other than end of file. -/
def failsWithLast : Bool :=
  match r.ending with
  | .error true _ => !(r.chunks.getLastD []).isEmpty
  | _ => false

theorem failsWithLast_iff {r : Transport α ε} : r.failsWithLast = true ↔
    (∃ e, r.ending = .error true e) ∧ r.chunks.getLastD [] ≠ [] := by
  obtain ⟨chunks, ending⟩ := r
  match ending with
  | .eof _ => simp [failsWithLast]
  | .error false _ => simp [failsWithLast]
  | .error true e => simp [failsWithLast]

theorem rest_ne_nil {r : Transport α ε} (h : r.failsWithLast = true) : r.rest ≠ [] := by
  obtain ⟨-, hlast⟩ := failsWithLast_iff.mp h
  obtain ⟨chunks, ending⟩ := r
  cases chunks with
  | nil => exact absurd rfl hlast
  | cons c cs =>
    rw [getLastD_cons] at hlast
    intro hrest
    rw [rest, flatten_eq_nil_iff] at hrest
    exact hlast (hrest _ (by rw [← getLast_eq_getLastD (cons_ne_nil c cs)]; exact getLast_mem _))

/-- Reads left: every read into a nonempty buffer without an error lowers it. -/
def left (r : Transport α ε) : ℕ := r.rest.length + r.chunks.length

/-- What a read hands out and what it leaves make up what was there. -/
structure Serves (r : Transport α ε) (n : ℕ) (b : List α) (err : Option (ReadError ε))
    (r' : Transport α ε) : Prop where
  rest : r.rest = b ++ r'.rest
  length : b.length ≤ n
  left : err = none → 0 < n → r'.left < r.left
  fails : r'.failsWithLast = true ↔ r.failsWithLast = true ∧ r'.rest ≠ []
  last : r.failsWithLast = true → r'.rest = [] → ∃ e, err = some (.error e)
  err : ∀ e, err = some e → r'.rest = [] ∧ (e = .eof ∨ b = [] ∨ r.failsWithLast = true)

theorem read_serves (n : ℕ) :
    r.Serves n (r.read n).1 (r.read n).2.1 (r.read n).2.2 := by
  obtain ⟨chunks, ending⟩ := r
  cases chunks with
  | nil =>
    refine ⟨rfl, Nat.zero_le n, ?_, ?_, fun hfails => absurd rfl (rest_ne_nil hfails), ?_⟩
    · rintro ⟨⟩
    · exact ⟨fun hfails => absurd rfl (rest_ne_nil hfails), fun h => h.1⟩
    · rintro e ⟨⟩
      exact ⟨rfl, Or.inr (Or.inl rfl)⟩
  | cons c cs =>
    rw [read]
    dsimp only
    by_cases hfits : c.length ≤ n
    · rw [if_pos hfits]
      have hrest : (c :: cs).flatten = c ++ cs.flatten := flatten_cons
      have hleft : (⟨cs, ending⟩ : Transport α ε).left < left ⟨c :: cs, ending⟩ := by
        simp only [left, rest, hrest, length_append, length_cons]
        omega
      -- only the last piece can come with an error
      cases cs with
      | nil =>
        refine ⟨hrest, hfits, fun _ _ => hleft, ?_, fun hfails _ => ?_, fun e he => ⟨rfl, ?_⟩⟩
        · exact ⟨fun hfails => absurd rfl (rest_ne_nil hfails), fun h => absurd rfl h.2⟩
        · obtain ⟨⟨e, hending⟩, -⟩ := failsWithLast_iff.mp hfails
          cases hending
          exact ⟨e, rfl⟩
        · match ending, he with
          | .eof true, he => exact Or.inl (Option.some.inj he).symm
          | .error true _, _ =>
            rcases eq_or_ne c [] with hc | hc
            · exact Or.inr (Or.inl hc)
            · exact Or.inr (Or.inr (failsWithLast_iff.mpr ⟨⟨_, rfl⟩, hc⟩))
      | cons d ds =>
        refine ⟨hrest, hfits, fun _ _ => hleft, ?_,
          fun hfails hnil => absurd hnil (rest_ne_nil hfails), ?_⟩
        · exact ⟨fun hfails => ⟨hfails, rest_ne_nil hfails⟩, fun h => h.1⟩
        · rintro e ⟨⟩
    · rw [if_neg hfits]
      have hdrop : c.drop n ≠ [] := fun hnil => hfits (drop_eq_nil_iff.mp hnil)
      have hc : c ≠ [] := fun hnil => hdrop (by rw [hnil, drop_nil])
      have hrest : (⟨c.drop n :: cs, ending⟩ : Transport α ε).rest ≠ [] :=
        append_ne_nil_of_left_ne_nil hdrop _
      refine ⟨?_, length_take_le n c, fun _ hpos => ?_, ?_, fun _ h => absurd h hrest, ?_⟩
      · simp only [rest, flatten_cons, ← append_assoc, take_append_drop]
      · simp only [left, rest, flatten_cons, length_append, length_drop, length_cons]
        omega
      · rw [failsWithLast_iff, failsWithLast_iff]
        cases cs with
        | nil => exact ⟨fun h => ⟨⟨h.1, hc⟩, hrest⟩, fun h => ⟨h.1.1, hdrop⟩⟩
        | cons => exact ⟨fun h => ⟨h, hrest⟩, fun h => h.1⟩
      · rintro e ⟨⟩

variable {r : Transport α ε} {n : ℕ}

theorem serves_of_read {r' : Transport α ε} {b : List α} {err : Option (ReadError ε)}
    (h : r.read n = (b, err, r')) : r.Serves n b err r' := by
  have hserves := r.read_serves n
  rwa [h] at hserves

/-- A read without an error, or with end of file, leaves what comes with one. -/
theorem Serves.failsWithLast_eq {r' : Transport α ε} {b : List α} {err : Option (ReadError ε)}
    (h : r.Serves n b err r') (herr : ∀ e, err ≠ some (.error e)) :
    r'.failsWithLast = r.failsWithLast := by
  rw [Bool.eq_iff_iff, h.fails, and_iff_left_iff_imp]
  intro hfails hrest
  obtain ⟨e, he⟩ := h.last hfails hrest
  exact herr e he

/-! ## Reading a full buffer -/

/-- The error of a buffer that did not fill: end of file in the middle of it is
unexpected. -/
def ReadError.short (e : ReadError ε) (got : List α) : ReadError ε :=
  match e with
  | .eof => if got.isEmpty then .eof else .unexpectedEOF
  | e => e

/-- The loop of `io.ReadFull` for a buffer of length `n`, `acc` of which is
filled. -/
def readFullLoop (n : ℕ) (r : Transport α ε) (acc : List α) :
    Except (ReadError ε) (List α) × Transport α ε :=
  if acc.length < n then
    match _h : r.read (n - acc.length) with
    | (b, none, r') => readFullLoop n r' (acc ++ b)
    | (b, some e, r') =>
      if n ≤ (acc ++ b).length then (.ok (acc ++ b), r')
      else (.error (e.short (acc ++ b)), r')
  else (.ok acc, r)
termination_by r.left
decreasing_by
  exact (serves_of_read _h).left rfl (by omega)

/-- `io.ReadFull` into a buffer of length `n`. -/
def readFull (r : Transport α ε) (n : ℕ) : Except (ReadError ε) (List α) × Transport α ε :=
  readFullLoop n r []

private theorem take_append_past {b l : List α} {k : ℕ} (h : b.length ≤ k) :
    (b ++ l).take k = b ++ l.take (k - b.length) := by
  rw [take_append, take_of_length_le h]

private theorem drop_append_past {b l : List α} {k : ℕ} (h : b.length ≤ k) :
    (b ++ l).drop k = l.drop (k - b.length) := by
  rw [drop_append, drop_of_length_le h, nil_append]

/-- The loop fills the buffer if the stream has what is missing, and fails if not. -/
theorem readFullLoop_spec (n : ℕ) (r : Transport α ε) (acc : List α) (hacc : acc.length ≤ n) :
    (n ≤ acc.length + r.rest.length →
      (readFullLoop n r acc).1 = .ok (acc ++ r.rest.take (n - acc.length)) ∧
        (readFullLoop n r acc).2.rest = r.rest.drop (n - acc.length)) ∧
    (acc.length + r.rest.length < n → ∃ e, (readFullLoop n r acc).1 = .error e) := by
  -- the induction follows the loop: a read moves bytes from the stream to the buffer
  fun_induction readFullLoop n r acc with
  | case1 r acc hmore b r' hread ih =>
    have hserves := serves_of_read hread
    have hb := hserves.length
    have hstep := ih (by rw [length_append]; omega)
    rw [length_append, ← Nat.sub_sub] at hstep
    rw [hserves.rest, length_append, take_append_past hb, drop_append_past hb,
      ← append_assoc, ← Nat.add_assoc]
    exact hstep
  | case2 r acc hmore b e r' hread hfull =>
    have hserves := serves_of_read hread
    have hb := hserves.length
    obtain ⟨hempty, -⟩ := hserves.err e rfl
    rw [length_append] at hfull
    rw [hserves.rest, hempty, append_nil, take_of_length_le hb, drop_of_length_le hb]
    exact ⟨fun _ => ⟨rfl, rfl⟩, fun hlt => by omega⟩
  | case3 r acc hmore b e r' hread hshort =>
    have hserves := serves_of_read hread
    obtain ⟨hempty, -⟩ := hserves.err e rfl
    rw [length_append] at hshort
    rw [hserves.rest, hempty, append_nil]
    exact ⟨fun hle => by omega, fun _ => ⟨_, rfl⟩⟩
  | case4 r acc hdone =>
    have hzero : n - acc.length = 0 := by omega
    rw [hzero, take_zero, append_nil, drop_zero]
    exact ⟨fun _ => ⟨rfl, rfl⟩, fun hlt => by omega⟩

/-- `io.ReadFull` on a stream that is long enough. -/
theorem readFull_of_le (h : n ≤ r.rest.length) :
    ∃ r', r.readFull n = (.ok (r.rest.take n), r') ∧ r'.rest = r.rest.drop n := by
  obtain ⟨hok, hrest⟩ := (readFullLoop_spec n r [] (Nat.zero_le n)).1 (by simpa using h)
  exact ⟨_, Prod.ext hok rfl, hrest⟩

/-- `io.ReadFull` on a stream that is too short. -/
theorem readFull_of_lt (h : r.rest.length < n) : ∃ e r', r.readFull n = (.error e, r') := by
  obtain ⟨e, he⟩ := (readFullLoop_spec n r [] (Nat.zero_le n)).2 (by simpa using h)
  exact ⟨e, _, Prod.ext he rfl⟩

/-! ## Reading up to a limit -/

/-- The loop of `io.ReadAll` over an `io.LimitReader` with `n` bytes to go.
`io.ReadAll` grows its buffer as it fills; `room k` and one more is what is free
behind `k` bytes. -/
def readAllLoop (room : ℕ → ℕ) (n : ℕ) (r : Transport α ε) (acc : List α) :
    Except (ReadError ε) (List α) × Transport α ε :=
  -- a limit of zero is end of file to `io.ReadAll`
  if n = 0 then (.ok acc, r)
  else
    match _h : r.read (min n (room acc.length + 1)) with
    | (b, none, r') => readAllLoop room (n - b.length) r' (acc ++ b)
    | (b, some .eof, r') => (.ok (acc ++ b), r')
    | (_, some e, r') => (.error e, r')
termination_by r.left
decreasing_by
  exact (serves_of_read _h).left rfl (by omega)

variable (room : ℕ → ℕ)

/-- `io.ReadAll(io.LimitReader(r, n))`. -/
def readAllLimit (r : Transport α ε) (n : ℕ) :
    Except (ReadError ε) (List α) × Transport α ε :=
  readAllLoop room n r []

/-- The loop stops at the limit if the stream gets that far, unless the last bytes before the
limit come with an error; else it returns all there was, or an error. -/
theorem readAllLoop_spec (n : ℕ) (r : Transport α ε) (acc : List α) :
    (n ≤ r.rest.length → (r.failsWithLast = true → n < r.rest.length) →
      (readAllLoop room n r acc).1 = .ok (acc ++ r.rest.take n) ∧
        (readAllLoop room n r acc).2.rest = r.rest.drop n) ∧
    (r.failsWithLast = true → r.rest.length = n → ∃ e, (readAllLoop room n r acc).1 = .error e) ∧
    (r.rest.length < n → (readAllLoop room n r acc).1 = .ok (acc ++ r.rest) ∨
      ∃ e, (readAllLoop room n r acc).1 = .error e) := by
  fun_induction readAllLoop room n r acc with
  | case1 r acc =>
    rw [take_zero, append_nil]
    refine ⟨fun _ _ => ⟨rfl, rfl⟩, fun hfails hzero => ?_, fun hlt => by omega⟩
    exact absurd (length_eq_zero_iff.mp hzero) (rest_ne_nil hfails)
  | case2 n r acc hpos b r' hread ih =>
    have hserves := serves_of_read hread
    have hb : b.length ≤ n := Nat.le_trans hserves.length (Nat.min_le_left _ _)
    obtain ⟨hlong, hequal, hshort⟩ := ih
    rw [hserves.failsWithLast_eq nofun] at hlong hequal
    rw [hserves.rest, take_append_past hb, drop_append_past hb, length_append,
      ← append_assoc, ← append_assoc]
    refine ⟨fun hle hlt => hlong (by omega) fun hfails => ?_,
      fun hfails heq => hequal hfails (by omega), fun hlt => hshort (by omega)⟩
    have := hlt hfails
    omega
  | case3 n r acc hpos b r' hread =>
    have hserves := serves_of_read hread
    have hb : b.length ≤ n := Nat.le_trans hserves.length (Nat.min_le_left _ _)
    obtain ⟨hempty, -⟩ := hserves.err _ rfl
    refine ⟨fun _ _ => ?_, fun hfails _ => ?_, fun _ => Or.inl ?_⟩
    · rw [hserves.rest, hempty, append_nil, take_of_length_le hb, drop_of_length_le hb]
      exact ⟨rfl, rfl⟩
    · obtain ⟨e, ⟨⟩⟩ := hserves.last hfails hempty
    · rw [hserves.rest, hempty, append_nil]
  | case4 n r acc hpos b e r' hne hread =>
    have hserves := serves_of_read hread
    have hb : b.length ≤ n := Nat.le_trans hserves.length (Nat.min_le_left _ _)
    obtain ⟨hempty, hend⟩ := hserves.err e rfl
    refine ⟨fun hle hlt => ?_, fun _ _ => ⟨e, rfl⟩, fun _ => Or.inr ⟨e, rfl⟩⟩
    rw [hserves.rest, hempty, append_nil] at hle hlt
    rcases hend.resolve_left hne with rfl | hfails
    · exact absurd (Nat.le_zero.mp hle) hpos
    · exact absurd (hlt hfails) (Nat.not_lt.mpr hb)

/-- The bytes that come with an error are still ahead after a limited read that succeeds. -/
theorem readAllLoop_failsWithLast (n : ℕ) (r : Transport α ε) (acc : List α)
    {bs : List α} (h : (readAllLoop room n r acc).1 = .ok bs) :
    (readAllLoop room n r acc).2.failsWithLast = r.failsWithLast := by
  fun_induction readAllLoop room n r acc with
  | case1 => rfl
  | case2 n r acc hpos b r' hread ih =>
    rw [ih h]
    exact (serves_of_read hread).failsWithLast_eq nofun
  | case3 n r acc hpos b r' hread => exact (serves_of_read hread).failsWithLast_eq nofun
  | case4 => cases h

theorem readAllLimit_failsWithLast {room : ℕ → ℕ} {r' : Transport α ε} {bs : List α}
    (h : r.readAllLimit room n = (.ok bs, r')) : r'.failsWithLast = r.failsWithLast := by
  have hfst : (r.readAllLimit room n).1 = .ok bs := by rw [h]
  rw [← readAllLoop_failsWithLast room n r [] hfst, ← readAllLimit, h]

/-- The limited read of a stream that is long enough: it fails if its last bytes come with an
error. -/
theorem readAllLimit_of_le (h : n ≤ r.rest.length) :
    (r.failsWithLast = true ∧ r.rest.length = n ∧ ∃ e r', r.readAllLimit room n = (.error e, r')) ∨
      (r.failsWithLast = true → n < r.rest.length) ∧
        ∃ r', r.readAllLimit room n = (.ok (r.rest.take n), r') ∧ r'.rest = r.rest.drop n ∧
          r'.failsWithLast = r.failsWithLast := by
  obtain ⟨hlong, hequal, -⟩ := readAllLoop_spec room n r []
  by_cases hfails : r.failsWithLast = true ∧ r.rest.length = n
  · obtain ⟨e, he⟩ := hequal hfails.1 hfails.2
    exact Or.inl ⟨hfails.1, hfails.2, e, _, Prod.ext he rfl⟩
  · have hlt : r.failsWithLast = true → n < r.rest.length := fun hr =>
      Nat.lt_of_le_of_ne h fun heq => hfails ⟨hr, heq.symm⟩
    obtain ⟨hok, hrest⟩ := hlong h hlt
    exact Or.inr ⟨hlt, _, Prod.ext hok rfl, hrest, readAllLimit_failsWithLast (Prod.ext hok rfl)⟩

/-- The limited read of a stream that is too short. -/
theorem readAllLimit_of_lt (h : r.rest.length < n) :
    ∃ r', r.readAllLimit room n = (.ok r.rest, r') ∨
      ∃ e, r.readAllLimit room n = (.error e, r') := by
  rcases (readAllLoop_spec room n r []).2.2 h with hok | ⟨e, he⟩
  · exact ⟨_, Or.inl (Prod.ext hok rfl)⟩
  · exact ⟨_, Or.inr ⟨e, Prod.ext he rfl⟩⟩

end Transport
