import Mathlib.Tactic.Common

/-!
# Byte strings

A string of the host language is an arbitrary sequence of bytes; text is UTF-8
by convention only.  `trimSpace` removes leading and trailing Unicode white
space from such a sequence: it strips, for as long as it can, one of the byte
sequences that encode a white space character.  A malformed sequence at either
end is not white space and stops the trimming.
-/

/-- A byte string. -/
abbrev Bytes : Type := List UInt8

namespace Bytes

/-- The UTF-8 encodings of the Unicode white space characters: the six ASCII
ones, U+0085, U+00A0, U+1680, U+2000 to U+200A, U+2028, U+2029, U+202F, U+205F
and U+3000. -/
def whiteSpace : List Bytes :=
  [[0x09], [0x0A], [0x0B], [0x0C], [0x0D], [0x20], [0xC2, 0x85], [0xC2, 0xA0],
    [0xE1, 0x9A, 0x80], [0xE2, 0x80, 0x80], [0xE2, 0x80, 0x81], [0xE2, 0x80, 0x82],
    [0xE2, 0x80, 0x83], [0xE2, 0x80, 0x84], [0xE2, 0x80, 0x85], [0xE2, 0x80, 0x86],
    [0xE2, 0x80, 0x87], [0xE2, 0x80, 0x88], [0xE2, 0x80, 0x89], [0xE2, 0x80, 0x8A],
    [0xE2, 0x80, 0xA8], [0xE2, 0x80, 0xA9], [0xE2, 0x80, 0xAF], [0xE2, 0x81, 0x9F],
    [0xE3, 0x80, 0x80]]

/-- Strip words of `ws` from the front until none of them is there. -/
def stripFront (ws : List Bytes) (s : Bytes) : Bytes :=
  match _found : ws.find? fun w => !w.isEmpty && w.isPrefixOf s with
  | none => s
  | some w => stripFront ws (s.drop w.length)
termination_by s.length
decreasing_by
  have hw := List.find?_some _found
  simp only [Bool.and_eq_true, Bool.not_eq_true', List.isEmpty_eq_false_iff,
    List.isPrefixOf_iff_prefix] at hw
  have hpos := List.length_pos_iff.mpr hw.1
  have hle := hw.2.length_le
  simp only [List.length_drop]
  omega

/-- `strings.TrimSpace`. -/
def trimSpace (s : Bytes) : Bytes :=
  (stripFront (whiteSpace.map List.reverse) (stripFront whiteSpace s).reverse).reverse

example : trimSpace [0x20, 0x61, 0x20, 0x62, 0xE3, 0x80, 0x80, 0x0A] = [0x61, 0x20, 0x62] := by
  decide +kernel

end Bytes
