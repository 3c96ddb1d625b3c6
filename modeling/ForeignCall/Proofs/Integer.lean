import ForeignCall.Scalar
import Mathlib.Algebra.Order.Ring.Int

/-!
# Integers at the width of their type

A pattern stands for the one integer in the range of its type that is congruent to the integer it
was made of (`dvd_sub_toInt_wrap`).  In a register, which is a pattern of the type `uintptr`, the
low end is the pattern of a narrower type (`toNat_wrap_uintptr_mod`), and an integer of that type is
extended according to the sign (`wrap_uintptr_eq_extend`).
-/

namespace ForeignCall.IntType

/-- The range of an integer type in two's complement. -/
theorem fits_iff (t : IntType) (n : Int) : t.Fits n ↔
    if t.isSigned then -2 ^ (t.bits - 1) ≤ n ∧ n < 2 ^ (t.bits - 1)
    else 0 ≤ n ∧ n < 2 ^ t.bits := by
  cases t <;> simp only [Fits, least, greatest, isSigned, bits, size, wordSize, if_true, if_false,
    Bool.false_eq_true] <;> omega

/-- A pattern spells the integer that it was made of modulo its width. -/
theorem natCast_toNat_wrap (t : IntType) (n : Int) : ((t.wrap n).toNat : Int) = n % 2 ^ t.bits := by
  have modulus : ((2 ^ t.bits : Nat) : Int) ≠ 0 :=
    Int.natCast_ne_zero.2 (Nat.ne_of_gt (Nat.two_pow_pos _))
  rw [wrap, BitVec.toNat_ofInt, Int.toNat_of_nonneg (Int.emod_nonneg n modulus), Int.natCast_pow]
  rfl

theorem dvd_sub_toInt_wrap (t : IntType) (n : Int) : 2 ^ t.bits ∣ n - t.toInt (t.wrap n) := by
  unfold toInt
  split
  · rw [wrap, BitVec.toInt_ofInt]
    exact_mod_cast Int.dvd_self_sub_bmod
  · rw [natCast_toNat_wrap]
    exact Int.dvd_self_sub_emod

/-! ## Registers -/

theorem bits_le (t : IntType) : t.bits ≤ uintptr.bits := by
  cases t <;> decide

/-- A register has the pattern of a narrower type at its low end. -/
theorem toNat_wrap_uintptr_mod (t : IntType) (n : Int) :
    (uintptr.wrap n).toNat % 256 ^ t.size = (t.wrap n).toNat := by
  have bits : 256 ^ t.size = 2 ^ t.bits := (Nat.pow_mul 2 8 t.size).symm
  have narrow : (2 ^ t.bits : Int) ∣ 2 ^ uintptr.bits := pow_dvd_pow 2 t.bits_le
  apply Int.natCast_inj.1
  rw [bits, Int.natCast_emod, natCast_toNat_wrap, natCast_toNat_wrap, Int.natCast_pow]
  exact Int.emod_emod_of_dvd n narrow

/-- The pattern extended to a register according to the sign of the type. -/
def extend (t : IntType) (pattern : BitVec t.bits) : BitVec 64 :=
  if t.isSigned then pattern.signExtend 64 else pattern.setWidth 64

theorem wrap_uintptr_toInt (t : IntType) (pattern : BitVec t.bits) :
    uintptr.wrap (t.toInt pattern) = t.extend pattern := by
  unfold toInt extend
  split
  · rfl
  · rw [wrap, BitVec.ofInt_natCast]
    exact BitVec.ofNat_toNat 64 pattern

theorem wrap_uintptr_eq_extend {t : IntType} {n : Int} (h : t.Fits n) :
    uintptr.wrap n = t.extend (t.wrap n) := by
  rw [← wrap_uintptr_toInt, toInt_wrap_of_fits h]

end ForeignCall.IntType
