import Mathlib.Data.List.Infix

/-!
# Length-prefixed framing

A length-prefixed stream is a concatenation of frames `header ‖ body`, where the
header has a fixed width and announces the length of the body and a tag.  This
module develops such a format on its own terms: an arbitrary alphabet `α`, an
arbitrary tag type `τ`, an arbitrary header parser with errors `ε`.

* `Format` — the header layout: a writer, a parser, and the two laws that make
  them inverse to each other on the pairs the header can carry (`Writable`).
* `Format.scan` — the greedy reader: frames from the front of a buffer for as
  long as a whole frame is there, together with what is left over.

* `Format.next?`, `Format.frames` — the reader that takes one frame at a time and
  stops at the first that is not there or whose header does not parse.
* `Whole`, `Truncated` — what a writer of frames leaves on a stream.

The results the rest of the development uses are `scan_frames_append`
(the reader delivers a concatenation of frames and goes on with the rest),
`scan_of_incomplete` / `incomplete_of_prefix` (a truncated frame is left alone),
`scan_sound` (whatever the reader delivers, followed by what it leaves over, is
the buffer, and the leftover is incomplete), and `frames_sound` (the same for the
reader that stops).
-/

namespace Framing

open List

universe u v w

/-- A length-prefixed format over the alphabet `α`, with tags `τ` and header
errors `ε`.  `Writable t n` says that the header can carry the tag `t` and the
length `n`; a parser that accepts a header accepts a writable one. -/
structure Format (α : Type u) (τ : Type v) (ε : Type w) where
  /-- The fixed width of a header. -/
  headLength : ℕ
  /-- Read a header: the announced body length and the tag. -/
  parseHeader : List α → Except ε (ℕ × τ)
  /-- Write a header. -/
  header : τ → ℕ → List α
  /-- The pairs a header can carry without loss. -/
  Writable : τ → ℕ → Prop
  headLength_pos : 0 < headLength
  header_length : ∀ t n, (header t n).length = headLength
  parseHeader_header : ∀ t n, Writable t n → parseHeader (header t n) = .ok (n, t)
  header_of_parseHeader : ∀ h n t, h.length = headLength →
    parseHeader h = .ok (n, t) → Writable t n ∧ header t n = h

namespace Format

variable {α : Type u} {τ : Type v} {ε : Type w} (F : Format α τ ε)

/-- One frame on the wire. -/
def frame (f : τ × List α) : List α := F.header f.1 f.2.length ++ f.2

/-- The greedy reader: deliver frames while a whole one is at the front, and
return the unread rest.  A header that does not parse fails the whole read. -/
def scan (buf : List α) : Except ε (List (τ × List α) × List α) :=
  if buf.length < F.headLength then .ok ([], buf)
  else
    match F.parseHeader (buf.take F.headLength) with
    | .error e => .error e
    | .ok (n, t) =>
      if buf.length < F.headLength + n then .ok ([], buf)
      else
        match scan (buf.drop (F.headLength + n)) with
        | .error e => .error e
        | .ok (frames, rest) =>
          .ok ((t, (buf.drop F.headLength).take n) :: frames, rest)
termination_by buf.length
decreasing_by
  have := F.headLength_pos
  simp only [List.length_drop]
  omega

/-- The reader has nothing to deliver: either the header is not there yet, or
it announces a body that is not. -/
def Incomplete (buf : List α) : Prop :=
  buf.length < F.headLength ∨
    ∃ n t, F.parseHeader (buf.take F.headLength) = .ok (n, t) ∧
      buf.length < F.headLength + n

@[simp] theorem frame_length (f : τ × List α) : (F.frame f).length = F.headLength + f.2.length := by
  simp [frame, F.header_length]

variable {buf : List α}

/-- An incomplete buffer is returned untouched. -/
theorem scan_of_incomplete (h : F.Incomplete buf) : F.scan buf = .ok ([], buf) := by
  rw [scan]
  rcases h with short | ⟨n, t, parsed, short⟩
  · rw [if_pos short]
  · by_cases short' : buf.length < F.headLength
    · rw [if_pos short']
    · rw [if_neg short', parsed]
      simp only [if_pos short]

/-- A header that does not parse fails the read. -/
theorem scan_of_bad_header {e : ε} (long : F.headLength ≤ buf.length)
    (bad : F.parseHeader (buf.take F.headLength) = .error e) : F.scan buf = .error e := by
  rw [scan, if_neg (not_lt.mpr long), bad]

/-- A header whose announced body is there delivers one frame, and the reader
goes on behind it. -/
theorem scan_of_whole {n : ℕ} {t : τ} (parsed : F.parseHeader (buf.take F.headLength) = .ok (n, t))
    (whole : F.headLength + n ≤ buf.length) :
    F.scan buf = (F.scan (buf.drop (F.headLength + n))).map fun r =>
      ((t, (buf.drop F.headLength).take n) :: r.1, r.2) := by
  have long : ¬ buf.length < F.headLength := by omega
  rw [scan, if_neg long, parsed]
  simp only [if_neg (not_lt.mpr whole)]
  cases F.scan (buf.drop (F.headLength + n)) with
  | error => rfl
  | ok => rfl

variable {f : τ × List α}

theorem take_frame_append (f : τ × List α) (rest : List α) :
    (F.frame f ++ rest).take F.headLength = F.header f.1 f.2.length := by
  rw [frame, append_assoc, ← F.header_length f.1 f.2.length, take_left]

theorem drop_frame_append (f : τ × List α) (rest : List α) :
    (F.frame f ++ rest).drop F.headLength = f.2 ++ rest := by
  rw [frame, append_assoc, ← F.header_length f.1 f.2.length, drop_left]

/-- A writable frame at the front is delivered. -/
theorem scan_frame_append (hf : F.Writable f.1 f.2.length) (rest : List α) :
    F.scan (F.frame f ++ rest) =
      (F.scan rest).map fun r => (f :: r.1, r.2) := by
  have hwhole : F.headLength + f.2.length ≤ (F.frame f ++ rest).length := by
    rw [length_append, F.frame_length]
    omega
  rw [F.scan_of_whole (by rw [take_frame_append, F.parseHeader_header _ _ hf]) hwhole, ← drop_drop,
    drop_frame_append, take_left, drop_left]

/-- **The reader on a concatenation of frames.**  All of them are delivered in
order, and reading continues with the rest. -/
theorem scan_frames_append (frames : List (τ × List α))
    (hframes : ∀ f ∈ frames, F.Writable f.1 f.2.length) (rest : List α) :
    F.scan (frames.flatMap F.frame ++ rest) =
      (F.scan rest).map fun r => (frames ++ r.1, r.2) := by
  induction frames with
  | nil =>
    cases h : F.scan rest with
    | error | ok => simp [h, Except.map]
  | cons f frames ih =>
    have hf := hframes f mem_cons_self
    have htail := ih fun g hg => hframes g (mem_cons_of_mem f hg)
    rw [flatMap_cons, append_assoc, F.scan_frame_append hf, htail]
    cases F.scan rest with
    | error => rfl
    | ok => rfl

/-- A strict prefix of a writable frame is incomplete: too short for its header
or for the body the header announces. -/
theorem incomplete_of_prefix (hf : F.Writable f.1 f.2.length) {t : List α} (hpre : t <+: F.frame f)
    (hne : t ≠ F.frame f) : F.Incomplete t := by
  have hlen : t.length < (F.frame f).length :=
    lt_of_le_of_ne hpre.length_le fun h => hne (hpre.eq_of_length h)
  rw [F.frame_length] at hlen
  by_cases short : t.length < F.headLength
  · exact Or.inl short
  · refine Or.inr ⟨f.2.length, f.1, ?_, hlen⟩
    have hhead : t.take F.headLength = F.header f.1 f.2.length := by
      obtain ⟨s, hs⟩ := hpre
      have htake := congrArg (take F.headLength) hs
      rwa [take_append_of_le_length (not_lt.mp short), frame,
        ← F.header_length f.1 f.2.length, take_left,
        F.header_length] at htake
    rw [hhead, F.parseHeader_header _ _ hf]

variable {rest : List α}

/-- A header that parses, with its body behind it, is that of a writable frame. -/
theorem frame_of_parsed {n : ℕ} {t : τ}
    (parsed : F.parseHeader (buf.take F.headLength) = .ok (n, t))
    (whole : F.headLength + n ≤ buf.length) : ((buf.drop F.headLength).take n).length = n ∧
      F.Writable t n ∧ F.header t n = buf.take F.headLength := by
  refine ⟨?_, F.header_of_parseHeader _ n t ?_ parsed⟩
  · simp only [length_take, length_drop]
    omega
  · rw [length_take]
    omega

/-- **What the reader delivers is what the buffer held.**  The frames are
writable, writing them again in front of the leftover gives the buffer back, and
the leftover is incomplete. -/
theorem scan_sound {frames : List (τ × List α)}
    (h : F.scan buf = .ok (frames, rest)) : (∀ f ∈ frames, F.Writable f.1 f.2.length) ∧
      frames.flatMap F.frame ++ rest = buf ∧ F.Incomplete rest := by
  -- the induction follows the reader's own recursion, frame by frame
  fun_induction F.scan buf generalizing frames with
  | case1 buf short =>
    obtain ⟨rfl, rfl⟩ := Prod.mk.inj (Except.ok.inj h)
    exact ⟨by simp, by simp, Or.inl short⟩
  | case3 buf long n t parsed short =>
    obtain ⟨rfl, rfl⟩ := Prod.mk.inj (Except.ok.inj h)
    exact ⟨by simp, by simp, Or.inr ⟨n, t, parsed, short⟩⟩
  | case2 | case4 => cases h
  | case5 buf long n t parsed whole frames' rest' tail ih =>
    obtain ⟨rfl, rfl⟩ := Prod.mk.inj (Except.ok.inj h)
    obtain ⟨hwrite, hcat, hinc⟩ := ih tail
    obtain ⟨hbody, hw, hheader⟩ := F.frame_of_parsed parsed (not_lt.mp whole)
    refine ⟨?_, ?_, hinc⟩
    · intro f hf
      rcases mem_cons.mp hf with rfl | hf
      · simpa only [hbody] using hw
      · exact hwrite f hf
    · calc ((t, (buf.drop F.headLength).take n) :: frames').flatMap F.frame ++ rest'
          = F.header t n ++ ((buf.drop F.headLength).take n
              ++ (frames'.flatMap F.frame ++ rest')) := by
            simp only [flatMap_cons, frame, hbody, append_assoc]
        _ = buf.take F.headLength ++ ((buf.drop F.headLength).take n
              ++ (buf.drop F.headLength).drop n) := by
            rw [hheader, hcat, drop_drop]
        _ = buf := by rw [take_append_drop, take_append_drop]

/-! ## One frame at a time -/

/-- The frame at the front of a buffer, if it is there as a whole, and what is
behind it. -/
def next? (buf : List α) : Option ((τ × List α) × List α) :=
  if buf.length < F.headLength then none
  else
    match F.parseHeader (buf.take F.headLength) with
    | .error _ => none
    | .ok (n, t) =>
      if buf.length < F.headLength + n then none
      else some ((t, (buf.drop F.headLength).take n), buf.drop (F.headLength + n))

/-- What can be at the front of a buffer, with the answer of `next?`: too little for
a header, a header that does not parse, a frame that is cut off, or a frame. -/
inductive Front (buf : List α) : Option ((τ × List α) × List α) → Prop where
  | short (short : buf.length < F.headLength) : Front buf none
  | bad (e : ε) (long : F.headLength ≤ buf.length)
      (bad : F.parseHeader (buf.take F.headLength) = .error e) : Front buf none
  | cut (n : ℕ) (t : τ) (long : F.headLength ≤ buf.length)
      (parsed : F.parseHeader (buf.take F.headLength) = .ok (n, t))
      (short : buf.length < F.headLength + n) : Front buf none
  | whole (n : ℕ) (t : τ) (parsed : F.parseHeader (buf.take F.headLength) = .ok (n, t))
      (whole : F.headLength + n ≤ buf.length) :
      Front buf (some ((t, (buf.drop F.headLength).take n), buf.drop (F.headLength + n)))

theorem front_next? (buf : List α) : F.Front buf (F.next? buf) := by
  rw [next?]
  split
  · next short => exact .short short
  · next long =>
    split
    · next e bad => exact .bad e (not_lt.mp long) bad
    · next n t parsed =>
      split
      · next short => exact .cut n t (not_lt.mp long) parsed short
      · next whole => exact .whole n t parsed (not_lt.mp whole)

/-- A writable frame at the front is found. -/
theorem next?_frame_append (hf : F.Writable f.1 f.2.length) (rest : List α) :
    F.next? (F.frame f ++ rest) = some (f, rest) := by
  have hlength : (F.frame f ++ rest).length = F.headLength + f.2.length + rest.length := by
    rw [length_append, F.frame_length]
  rw [next?, if_neg (by omega), take_frame_append, F.parseHeader_header _ _ hf]
  dsimp only
  rw [if_neg (by omega), ← drop_drop, drop_frame_append, take_left, drop_left]

/-- The frame found is writable and stands at the front of the buffer. -/
theorem next?_eq_some (h : F.next? buf = some (f, rest)) :
    F.Writable f.1 f.2.length ∧ buf = F.frame f ++ rest := by
  have hfront := F.front_next? buf
  rw [h] at hfront
  cases hfront with
  | whole n t parsed whole =>
    obtain ⟨hbody, hw, hheader⟩ := F.frame_of_parsed parsed whole
    rw [frame, hbody, hheader, ← drop_drop, append_assoc, take_append_drop, take_append_drop]
    exact ⟨hw, rfl⟩

/-- A frame takes at least a header. -/
theorem next?_length (h : F.next? buf = some (f, rest)) :
    rest.length < buf.length := by
  have hpos := F.headLength_pos
  rw [(F.next?_eq_some h).2, length_append, F.frame_length]
  omega

/-- Frames from the front of a buffer until there is none. -/
def frames (buf : List α) : List (τ × List α) :=
  match _h : F.next? buf with
  | none => []
  | some (f, rest) => f :: frames rest
termination_by buf.length
decreasing_by exact F.next?_length _h

theorem frames_of_none (h : F.next? buf = none) : F.frames buf = [] := by
  rw [frames]
  split
  · rfl
  · next heq => rw [h] at heq; cases heq

theorem frames_of_some (h : F.next? buf = some (f, rest)) :
    F.frames buf = f :: F.frames rest := by
  rw [frames]
  split
  · next heq => rw [h] at heq; cases heq
  · next heq => rw [h] at heq; cases heq; rfl

/-- **What the stopping reader delivers stands at the front of the buffer**, and
behind it there is no further frame. -/
theorem frames_sound (buf : List α) :
    (∀ f ∈ F.frames buf, F.Writable f.1 f.2.length) ∧
      ∃ rest, buf = (F.frames buf).flatMap F.frame ++ rest ∧ F.next? rest = none := by
  fun_induction F.frames buf with
  | case1 buf hnext => exact ⟨forall_mem_nil _, buf, rfl, hnext⟩
  | case2 buf f rest hnext ih =>
    obtain ⟨hw, hbuf⟩ := F.next?_eq_some hnext
    obtain ⟨hall, tail, hrest, hnone⟩ := ih
    refine ⟨forall_mem_cons.mpr ⟨hw, hall⟩, tail, ?_, hnone⟩
    rw [flatMap_cons, append_assoc, ← hrest, ← hbuf]

end Format

/-! ## Streams of frames -/

section Streams

variable {α : Type u} {Frame : List α → Prop} {bytes f : List α}

/-- A concatenation of frames. -/
def Whole (Frame : List α → Prop) (bytes : List α) : Prop :=
  ∃ frames : List (List α), (∀ f ∈ frames, Frame f) ∧ bytes = frames.flatten

/-- A concatenation of frames, and then at most one frame that is truncated. -/
def Truncated (Frame : List α → Prop) (bytes : List α) : Prop :=
  ∃ whole cut, Whole Frame whole ∧ bytes = whole ++ cut ∧
    (cut = [] ∨ ∃ f n, Frame f ∧ n < f.length ∧ cut = f.take n)

theorem Whole.nil : Whole Frame [] := ⟨[], List.forall_mem_nil _, rfl⟩

theorem Whole.append (h : Whole Frame bytes) (hf : Frame f) : Whole Frame (bytes ++ f) := by
  obtain ⟨frames, hframes, rfl⟩ := h
  refine ⟨frames ++ [f], ?_, ?_⟩
  · intro g hg
    rcases mem_append.mp hg with hg | hg
    · exact hframes g hg
    · rw [mem_singleton.mp hg]
      exact hf
  · rw [flatten_append, flatten_singleton]

theorem Whole.truncated (h : Whole Frame bytes) : Truncated Frame bytes :=
  ⟨bytes, [], h, (append_nil _).symm, .inl rfl⟩

/-- A part of one more frame. -/
theorem Whole.append_take {n : ℕ} (h : Whole Frame bytes) (hf : Frame f) (hn : n ≤ f.length) :
    Truncated Frame (bytes ++ f.take n) ∧
      (n = 0 ∨ n = f.length → Whole Frame (bytes ++ f.take n)) := by
  have hwhole : n = f.length → Whole Frame (bytes ++ f.take n) := by
    rintro rfl
    rw [take_length]
    exact h.append hf
  refine ⟨?_, fun hends => hends.elim ?_ hwhole⟩
  · rcases Nat.lt_or_eq_of_le hn with hlt | heq
    · exact ⟨bytes, f.take n, h, rfl, .inr ⟨f, n, hf, hlt, rfl⟩⟩
    · exact (hwhole heq).truncated
  · rintro rfl
    rw [take_zero, append_nil]
    exact h

end Streams

end Framing
