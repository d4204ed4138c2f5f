import Mathlib.Data.Nat.Bitwise
import Pitaya.Foundations.ByteString
import Pitaya.Foundations.Outcome

/-!
# Big-endian integers

`binary.BigEndian` of the standard library.  The readers crash on a slice that is
shorter than the integer; longer slices are read from their front.
-/

universe u

namespace BigEndian

open Outcome

variable {ε : Type u}

/-- `BigEndian.Uint16`. -/
def uint16 (b : Bytes) : Outcome ε UInt16 := do
  let lo ← Outcome.index b 1
  let hi ← Outcome.index b 0
  pure (lo.toUInt16 ||| hi.toUInt16 <<< 8)

/-- `BigEndian.Uint64`: one bounds check on the last byte, then the eight bytes. -/
def uint64 (b : Bytes) : Outcome ε UInt64 :=
  Outcome.index b 7 >>= fun _ =>
    pure ((b.take 8).foldl (fun acc v => acc <<< 8 ||| v.toUInt64) 0)

/-- The eight bytes `BigEndian.PutUint64` writes. -/
def putUint64 (v : UInt64) : Bytes :=
  (List.range 8).map fun i => (v >>> UInt64.ofNat (56 - 8 * i)).toUInt8

theorem and_255 (n : ℕ) : n &&& 255 = n % 256 := Nat.and_two_pow_sub_one_eq_mod n 8

theorem toNat_high (v : UInt16) : (((v >>> 8) &&& 0xFF).toUInt8).toNat = v.toNat / 256 := by
  have hlt : v.toNat < 65536 := v.toNat_lt
  rw [UInt16.toNat_toUInt8, UInt16.toNat_and, UInt16.toNat_shiftRight]
  simp only [Nat.shiftRight_eq_div_pow, UInt16.toNat_ofNat, Nat.reducePow, Nat.reduceMod, and_255]
  omega

theorem toNat_low (v : UInt16) : ((v &&& 0xFF).toUInt8).toNat = v.toNat % 256 := by
  rw [UInt16.toNat_toUInt8, UInt16.toNat_and]
  simp only [UInt16.toNat_ofNat, Nat.reducePow, Nat.reduceMod, and_255]
  omega

/-- Two bytes, written high byte first, are read back. -/
theorem uint16_bytes (v : UInt16) :
    uint16 [((v >>> 8) &&& 0xFF).toUInt8, (v &&& 0xFF).toUInt8] =
      (.ok v : Outcome ε UInt16) := by
  have hlt : v.toNat < 65536 := v.toNat_lt
  have hor : 256 * (v.toNat / 256) + v.toNat % 256 = 256 * (v.toNat / 256) ||| v.toNat % 256 :=
    Nat.two_pow_add_eq_or_of_lt (i := 8) (by omega) (v.toNat / 256)
  simp only [uint16, index, List.getElem?_cons_succ, List.getElem?_cons_zero,
    ok_bind, pure_eq_ok, ok.injEq]
  apply UInt16.toNat_inj.mp
  rw [UInt16.toNat_or, UInt16.toNat_shiftLeft, UInt8.toNat_toUInt16, UInt8.toNat_toUInt16,
    toNat_high, toNat_low, Nat.shiftLeft_eq]
  simp only [UInt16.toNat_ofNat, Nat.reducePow, Nat.reduceMod]
  rw [Nat.mod_eq_of_lt (a := v.toNat / 256 * 256) (by omega), Nat.or_comm, Nat.mul_comm, ← hor]
  omega

/-- Two bytes are what the integer read from them writes. -/
theorem bytes_uint16 {hi lo : UInt8} {v : UInt16}
    (h : (uint16 [hi, lo] : Outcome ε UInt16) = .ok v) :
    [((v >>> 8) &&& 0xFF).toUInt8, (v &&& 0xFF).toUInt8] = [hi, lo] := by
  have hlo := lo.toNat_lt
  have hhi := hi.toNat_lt
  have hor : 256 * hi.toNat + lo.toNat = 256 * hi.toNat ||| lo.toNat :=
    Nat.two_pow_add_eq_or_of_lt (i := 8) (by omega) hi.toNat
  have hv : v.toNat = 256 * hi.toNat + lo.toNat := by
    simp only [uint16, index, List.getElem?_cons_succ, List.getElem?_cons_zero,
      ok_bind, pure_eq_ok, ok.injEq] at h
    rw [← h, UInt16.toNat_or, UInt16.toNat_shiftLeft, UInt8.toNat_toUInt16, UInt8.toNat_toUInt16,
      Nat.shiftLeft_eq]
    simp only [UInt16.toNat_ofNat, Nat.reducePow, Nat.reduceMod]
    rw [Nat.mod_eq_of_lt (a := hi.toNat * 256) (by omega), Nat.or_comm, Nat.mul_comm, ← hor]
  rw [List.cons.injEq, List.cons.injEq]
  refine ⟨?_, ?_, rfl⟩
  · apply UInt8.toNat_inj.mp
    rw [toNat_high, hv]
    omega
  · apply UInt8.toNat_inj.mp
    rw [toNat_low, hv]
    omega

theorem uint16_returns {b : Bytes} (h : 2 ≤ b.length) : (uint16 b : Outcome ε UInt16).Returns :=
  (index_returns (by omega)).bind fun _ _ =>
    (index_returns (by omega)).bind fun _ _ => returns_ok _

/-- **The only way to fail is a short slice.** -/
theorem uint64_returns_iff (b : Bytes) : (uint64 b : Outcome ε UInt64).Returns ↔ 8 ≤ b.length := by
  rw [uint64, index]
  cases h : b[7]? with
  | none =>
    rw [List.getElem?_eq_none_iff] at h
    simp only [crash_bind, not_returns_crash, false_iff]
    omega
  | some =>
    obtain ⟨hlt, -⟩ := List.getElem?_eq_some_iff.mp h
    simp only [ok_bind, pure_eq_ok, returns_ok, true_iff]
    omega

end BigEndian
