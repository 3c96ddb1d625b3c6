import ForeignCall.Alignment
import ForeignCall.NativeType.Basic
import ForeignCall.Scalar
import Mathlib.Algebra.Group.Nat.Defs
import Mathlib.Order.Bounds.Defs

/-!
# Alignments

The alignments of the target are the divisors of the word size (`IsAlignment`), so of two of them
the smaller one divides the other.  For these the rounding by bits is the rounding to the least
multiple (`alignUp_eq_leastMultiple`), about which everything else is said.
-/

namespace ForeignCall

/-! ## The least multiple -/

section LeastMultiple

variable {n m k : Nat}

theorem dvd_leastMultiple (n m : Nat) : m ∣ leastMultiple n m := Nat.dvd_mul_left m _

theorem le_leastMultiple (n : Nat) (hm : 0 < m) : n ≤ leastMultiple n m := by
  have hd := Nat.div_add_mod (n + m - 1) m
  have hr := Nat.mod_lt (n + m - 1) hm
  rw [Nat.mul_comm] at hd
  unfold leastMultiple
  omega

/-- No multiple of `m` lies between `n` and the least multiple. -/
theorem leastMultiple_le (hm : 0 < m) (hn : n ≤ k) (hk : m ∣ k) : leastMultiple n m ≤ k := by
  obtain ⟨q, rfl⟩ := hk
  have hq : (n + m - 1) / m < q + 1 := by
    rw [Nat.div_lt_iff_lt_mul hm, Nat.add_mul, Nat.mul_comm q m]
    omega
  calc leastMultiple n m ≤ q * m := Nat.mul_le_mul_right m (Nat.le_of_lt_succ hq)
    _ = m * q := Nat.mul_comm q m

theorem isLeast_leastMultiple (n : Nat) (hm : 0 < m) :
    IsLeast {k | m ∣ k ∧ n ≤ k} (leastMultiple n m) :=
  ⟨⟨dvd_leastMultiple n m, le_leastMultiple n hm⟩, fun _ hk => leastMultiple_le hm hk.2 hk.1⟩

theorem leastMultiple_of_dvd (hm : 0 < m) (h : m ∣ n) : leastMultiple n m = n :=
  Nat.le_antisymm (leastMultiple_le hm (Nat.le_refl n) h) (le_leastMultiple n hm)

theorem lt_of_lt_leastMultiple (hm : 0 < m) (hk : m ∣ k) (h : k < leastMultiple n m) : k < n := by
  by_cases hn : n ≤ k
  · exact absurd (leastMultiple_le hm hn hk) (Nat.not_le.2 h)
  · exact Nat.lt_of_not_le hn

end LeastMultiple

/-! ## Powers of two up to the word size -/

/-- The alignments of the target. -/
def IsAlignment (a : Nat) : Prop := a ∣ wordSize

instance (a : Nat) : Decidable (IsAlignment a) := inferInstanceAs (Decidable (a ∣ wordSize))

namespace IsAlignment

variable {a b : Nat}

theorem pos (h : IsAlignment a) : 0 < a := Nat.pos_of_dvd_of_pos h (by decide)

theorem cases (h : IsAlignment a) : a = 1 ∨ a = 2 ∨ a = 4 ∨ a = 8 := by
  have hle : a ≤ 8 := Nat.le_of_dvd (by decide) h
  have key : ∀ b ≤ 8, b ∣ wordSize → b = 1 ∨ b = 2 ∨ b = 4 ∨ b = 8 := by decide
  exact key a hle h

theorem dvd_of_le (ha : IsAlignment a) (hb : IsAlignment b) (h : a ≤ b) : a ∣ b := by
  rcases ha.cases with rfl | rfl | rfl | rfl <;> rcases hb.cases with rfl | rfl | rfl | rfl <;>
    first | decide | omega

theorem max (ha : IsAlignment a) (hb : IsAlignment b) : IsAlignment (max a b) := by
  rcases Nat.le_total a b with h | h
  · rwa [Nat.max_eq_right h]
  · rwa [Nat.max_eq_left h]

theorem dvd_max_left (ha : IsAlignment a) (hb : IsAlignment b) : a ∣ Max.max a b :=
  ha.dvd_of_le (ha.max hb) (Nat.le_max_left a b)

theorem dvd_max_right (ha : IsAlignment a) (hb : IsAlignment b) : b ∣ Max.max a b :=
  hb.dvd_of_le (ha.max hb) (Nat.le_max_right a b)

end IsAlignment

theorem IntType.isAlignment_size (t : IntType) : IsAlignment t.size := by
  cases t <;> decide

theorem Scalar.isAlignment_align (s : Scalar) : IsAlignment s.align := by
  cases s with
  | int t => exact t.isAlignment_size
  | _ => decide

/-! ## Rounding by bits -/

/-- Clearing the bits below a power of two leaves a multiple of it. -/
theorem clearBits_two_pow (n e : Nat) : clearBits n (2 ^ e - 1) = n / 2 ^ e * 2 ^ e := by
  have hd := Nat.div_add_mod n (2 ^ e)
  rw [Nat.mul_comm] at hd
  rw [clearBits, Nat.and_two_pow_sub_one_eq_mod]
  omega

theorem alignUp_eq_leastMultiple {a : Nat} (n : Nat) (h : IsAlignment a) :
    alignUp n a = leastMultiple n a := by
  have key : ∀ e, alignUp n (2 ^ e) = leastMultiple n (2 ^ e) := by
    intro e
    rw [alignUp, clearBits_two_pow, leastMultiple, Nat.add_sub_assoc (Nat.two_pow_pos e)]
  rcases h.cases with rfl | rfl | rfl | rfl
  · exact key 0
  · exact key 1
  · exact key 2
  · exact key 3

/-! ## Rounding in words -/

/-- The rounding of `n` up to `align` in words of 64 bits, where nothing is said of overflow. -/
def alignUpWord (n align : BitVec 64) : BitVec 64 := (n + align - 1) &&& ~~~(align - 1)

/-- Masking a word with the complement of `mask` clears the bits of `mask`. -/
theorem toNat_and_not {w : Nat} (x mask : BitVec w) :
    (x &&& ~~~mask).toNat = clearBits x.toNat mask.toNat := by
  have disjoint : (x &&& mask) &&& (x &&& ~~~mask) = 0#w := by
    ext i
    simp only [BitVec.getElem_and, BitVec.getElem_not, BitVec.getElem_zero]
    grind
  have whole : (x &&& mask) + (x &&& ~~~mask) = x := by
    rw [BitVec.add_eq_or_of_and_eq_zero _ _ disjoint]
    ext i
    simp only [BitVec.getElem_and, BitVec.getElem_or, BitVec.getElem_not]
    grind
  have rest : x &&& ~~~mask = x - (x &&& mask) := by
    rw [BitVec.eq_sub_iff_add_eq, BitVec.add_comm]
    exact whole
  rw [rest, BitVec.toNat_sub_of_le (BitVec.le_def.2 Nat.and_le_left), BitVec.toNat_and, clearBits]

/-- In words the rounding is the same, as long as there is room for the alignment. -/
theorem toNat_alignUpWord {n a : Nat} (ha : IsAlignment a) (hn : n < 2 ^ 63) :
    (alignUpWord (BitVec.ofNat 64 n) (BitVec.ofNat 64 a)).toNat = alignUp n a := by
  have hpos := ha.pos
  have hle : a ≤ 8 := Nat.le_of_dvd (by decide) ha
  have one : (1 : BitVec 64).toNat = 1 := rfl
  rw [alignUpWord, toNat_and_not, alignUp]
  congr 1
  · simp only [BitVec.toNat_sub, BitVec.toNat_add, BitVec.toNat_ofNat]
    omega
  · simp only [BitVec.toNat_sub, BitVec.toNat_ofNat]
    omega

end ForeignCall
