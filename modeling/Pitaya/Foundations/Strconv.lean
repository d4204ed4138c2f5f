import Mathlib.Data.Nat.Digits.Defs
import Pitaya.Foundations.ByteString

/-!
# Decimal numbers and checksums

`strconv.FormatInt` and `strconv.ParseInt` in base ten with 64 bits, and
`crc32.ChecksumIEEE`, over byte strings.
-/

namespace Strconv

open List

/-- Why `ParseInt` fails. -/
inductive NumError where
  /-- `ErrSyntax`. -/
  | invalidSyntax
  /-- `ErrRange`. -/
  | outOfRange
  deriving DecidableEq, Repr

/-- `FormatInt(n, 10)`. -/
def formatInt (n : ℤ) : Bytes :=
  let digits := if n = 0 then [48]
    else ((Nat.digits 10 n.natAbs).reverse.map fun d => UInt8.ofNat (48 + d))
  if n < 0 then 45 :: digits else digits

/-- The digit loop of `ParseUint`: it stops at the first byte that is not a digit
and at the first digit that leaves 64 bits. -/
def parseUint : ℕ → Bytes → Except NumError ℕ
  | n, [] => .ok n
  | n, b :: digits =>
    if 48 ≤ b ∧ b ≤ 57 then
      let n := 10 * n + (b.toNat - 48)
      if n ≥ 2 ^ 64 then .error .outOfRange else parseUint n digits
    else .error .invalidSyntax

/-- `ParseInt(s, 10, 64)`: the value and the error.  Out of range the value is
the nearest bound, and 0 on a syntax error. -/
def parseInt (s : Bytes) : ℤ × Option NumError :=
  let (negative, digits) :=
    match s with
    | 45 :: digits => (true, digits)
    | 43 :: digits => (false, digits)
    | digits => (false, digits)
  let tooBig : ℤ × Option NumError :=
    (if negative then -2 ^ 63 else 2 ^ 63 - 1, some .outOfRange)
  if digits = [] then (0, some .invalidSyntax)
  else
    match parseUint 0 digits with
    | .error .invalidSyntax => (0, some .invalidSyntax)
    | .error .outOfRange => tooBig
    | .ok n =>
      if negative then (if n > 2 ^ 63 then tooBig else (-n, none))
      else if n ≥ 2 ^ 63 then tooBig
      else (n, none)

example : parseInt (formatInt (-40)) = (-40, none) := by decide +kernel

variable (n : ℕ)

/-- The digits `FormatInt` writes are those of the number. -/
theorem ofDigits_formatInt :
    Nat.ofDigits 10 ((formatInt n).map fun b => b.toNat - 48).reverse = n := by
  by_cases hn : n = 0
  · subst hn
    rfl
  · have hdigits : formatInt n = (Nat.digits 10 n).reverse.map fun d => UInt8.ofNat (48 + d) := by
      simp [formatInt, hn]
    have hback : (Nat.digits 10 n).reverse.map (fun d => (UInt8.ofNat (48 + d)).toNat - 48)
        = (Nat.digits 10 n).reverse := by
      refine (map_congr_left fun d hd => ?_).trans (map_id _)
      have hlt : d < 10 := Nat.digits_lt_base (by decide) (mem_reverse.mp hd)
      simp only [UInt8.toNat_ofNat', id_eq]
      omega
    rw [hdigits, map_map]
    simp only [Function.comp_def]
    rw [hback, reverse_reverse, Nat.ofDigits_digits]

variable (digits : List ℕ)

/-- The number with the given digits, the first one first, behind the digits of `n`. -/
def readDigits : ℕ := digits.foldl (fun n d => 10 * n + d) n

theorem le_readDigits : n ≤ readDigits n digits := by
  induction digits generalizing n with
  | nil => exact le_rfl
  | cons d digits ih => exact le_trans (by omega) (ih (10 * n + d))

theorem readDigits_digits : readDigits 0 (Nat.digits 10 n).reverse = n := by
  rw [readDigits, foldl_reverse]
  refine Eq.trans ?_ (Nat.ofDigits_digits 10 n)
  rw [Nat.ofDigits_eq_foldr]
  refine congrArg (fun f => foldr f 0 (Nat.digits 10 n)) (funext fun d => funext fun m => ?_)
  exact Nat.add_comm _ _

/-- `ParseUint` reads the digits of a number that fits. -/
theorem parseUint_digits (hdigits : ∀ d ∈ digits, d < 10) (n : ℕ)
    (hfits : readDigits n digits < 2 ^ 64) :
    parseUint n (digits.map fun d => UInt8.ofNat (48 + d)) = .ok (readDigits n digits) := by
  induction digits generalizing n with
  | nil => rfl
  | cons d digits ih =>
    have hd : d < 10 := hdigits d mem_cons_self
    have hbyte : (UInt8.ofNat (48 + d)).toNat = 48 + d := by
      rw [UInt8.toNat_ofNat', Nat.mod_eq_of_lt (by omega)]
    have hdigit : (48 : UInt8) ≤ UInt8.ofNat (48 + d) ∧ UInt8.ofNat (48 + d) ≤ (57 : UInt8) := by
      rw [UInt8.le_iff_toNat_le, UInt8.le_iff_toNat_le, hbyte]
      exact ⟨Nat.le_add_right 48 d, Nat.add_le_add_left (Nat.le_of_lt_succ hd) 48⟩
    have hnext : 10 * n + d < 2 ^ 64 := lt_of_le_of_lt (le_readDigits _ digits) hfits
    rw [map_cons, parseUint, if_pos hdigit, hbyte, Nat.add_sub_cancel_left]
    rw [if_neg (Nat.not_le.mpr hnext), ih (fun d' hd' => hdigits d' (mem_cons_of_mem _ hd'))
      _ hfits]
    rfl

/-- The digits `FormatInt` writes. -/
def decimal : Bytes := (if n = 0 then [0] else (Nat.digits 10 n).reverse).map fun d =>
  UInt8.ofNat (48 + d)

theorem formatInt_eq (n : ℤ) :
    formatInt n = if n < 0 then 45 :: decimal n.natAbs else decimal n.natAbs := by
  unfold formatInt decimal
  by_cases hn : n = 0
  · subst hn
    rfl
  · have habs : n.natAbs ≠ 0 := Int.natAbs_ne_zero.mpr hn
    simp only [if_neg hn, if_neg habs]

theorem parseUint_decimal {n : ℕ} (h : n < 2 ^ 64) : parseUint 0 (decimal n) = .ok n := by
  unfold decimal
  by_cases hn : n = 0
  · subst hn
    rfl
  · rw [if_neg hn]
    have hread := readDigits_digits n
    rw [parseUint_digits _ (fun d hd => ?_) 0 (by rw [hread]; exact h), hread]
    exact Nat.digits_lt_base (by decide) (mem_reverse.mp hd)

/-- A decimal number begins with a digit. -/
theorem decimal_eq_cons : ∃ b rest, decimal n = b :: rest ∧ b ≠ 45 ∧ b ≠ 43 := by
  have hne : (if n = 0 then [0] else (Nat.digits 10 n).reverse) ≠ [] := by
    split
    · exact cons_ne_nil _ _
    · next hn => exact fun h => hn (Nat.digits_eq_nil_iff_eq_zero.mp (reverse_eq_nil_iff.mp h))
  have hdigits : ∀ d ∈ (if n = 0 then [0] else (Nat.digits 10 n).reverse), d < 10 := by
    intro d hd
    split at hd
    · rw [mem_singleton.mp hd]
      exact Nat.zero_lt_succ 9
    · exact Nat.digits_lt_base (by decide) (mem_reverse.mp hd)
  unfold decimal
  generalize (if n = 0 then [0] else (Nat.digits 10 n).reverse) = digits at hne hdigits
  cases digits with
  | nil => exact absurd rfl hne
  | cons d =>
    have hd : d < 10 := hdigits d mem_cons_self
    refine ⟨_, _, rfl, fun h => ?_, fun h => ?_⟩ <;>
    · have hnat := congrArg UInt8.toNat h
      rw [UInt8.toNat_ofNat', Nat.mod_eq_of_lt (by omega)] at hnat
      simp only [UInt8.reduceToNat] at hnat
      omega

/-- **`ParseInt` reads what `FormatInt` has written.** -/
theorem parseInt_formatInt {n : ℤ} (hlow : -9223372036854775808 ≤ n)
    (hhigh : n < 9223372036854775808) : parseInt (formatInt n) = (n, none) := by
  have hparse : parseUint 0 (decimal n.natAbs) = .ok n.natAbs := parseUint_decimal (by omega)
  obtain ⟨b, rest, hcons, hminus, hplus⟩ := decimal_eq_cons n.natAbs
  rw [formatInt_eq]
  rw [hcons] at hparse ⊢
  by_cases hneg : n < 0
  · rw [if_pos hneg]
    have hfits : ¬ n.natAbs > 2 ^ 63 := by omega
    simp only [parseInt, cons_ne_nil, if_false, hparse, if_true, if_neg hfits, Prod.mk.injEq,
      and_true]
    omega
  · rw [if_neg hneg]
    have hfits : ¬ n.natAbs ≥ 2 ^ 63 := by omega
    unfold parseInt
    split
    next negative digits hsplit =>
    split at hsplit
    · next heq => exact absurd (cons.inj heq).1 hminus
    · next heq => exact absurd (cons.inj heq).1 hplus
    · obtain ⟨rfl, rfl⟩ := Prod.mk.inj hsplit
      simp only [cons_ne_nil, if_false, hparse, Bool.false_eq_true, if_neg hfits,
        Prod.mk.injEq, and_true]
      omega

theorem formatInt_natCast_inj {m n : ℕ} (h : formatInt m = formatInt n) : m = n := by
  rw [← ofDigits_formatInt m, h, ofDigits_formatInt n]

end Strconv

namespace Crc32

/-- One bit of the reflected IEEE polynomial. -/
def shift (crc : UInt32) : UInt32 :=
  if crc &&& 1 = 1 then (crc >>> 1) ^^^ 0xEDB88320 else crc >>> 1

/-- `crc32.ChecksumIEEE`. -/
def checksumIEEE (data : Bytes) : UInt32 :=
  ~~~ data.foldl (fun crc b => shift^[8] (crc ^^^ b.toUInt32)) 0xFFFFFFFF

example : checksumIEEE [49, 50, 51, 52, 53, 54, 55, 56, 57] = 0xCBF43926 := by decide +kernel

end Crc32
