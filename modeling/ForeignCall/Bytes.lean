/-!
# Byte strings

Memory is a list of bytes.  This file gives the little-endian encoding of naturals
(`littleEndian`, `ofLittleEndian`) and the two ways in which bytes are stored into memory that
already exists: `overwrite` replaces the front of a buffer and never changes its length, and
`overwriteAt` does so to one range of it.
-/

namespace ForeignCall

/-- A string of bytes, the first at the lowest address. -/
abbrev Bytes := List UInt8

namespace Bytes

/-- `count` zero bytes. -/
def zeros (count : Nat) : Bytes := List.replicate count 0

@[simp] theorem length_zeros (count : Nat) : (zeros count).length = count :=
  List.length_replicate

/-! ## Little-endian naturals -/

/-- The `width` low bytes of `n`, the least significant first. -/
def littleEndian : (width n : Nat) → Bytes
  | 0, _ => []
  | width + 1, n => UInt8.ofNat n :: littleEndian width (n / 256)

/-- The natural that the bytes spell, the least significant first. -/
def ofLittleEndian : Bytes → Nat
  | [] => 0
  | b :: bs => b.toNat + 256 * ofLittleEndian bs

@[simp] theorem length_littleEndian (width n : Nat) : (littleEndian width n).length = width := by
  induction width generalizing n with
  | zero => rfl
  | succ width ih => simp [littleEndian, ih]

theorem littleEndian_ofLittleEndian (bs : Bytes) :
    littleEndian bs.length (ofLittleEndian bs) = bs := by
  induction bs with
  | nil => rfl
  | cons b bs ih =>
    have hb := b.toNat_lt
    have low : UInt8.ofNat (b.toNat + 256 * ofLittleEndian bs) = b := by
      apply UInt8.toNat_inj.1
      rw [UInt8.toNat_ofNat']
      omega
    have high : (b.toNat + 256 * ofLittleEndian bs) / 256 = ofLittleEndian bs := by omega
    simp only [List.length_cons, littleEndian, ofLittleEndian, low, high, ih]

/-! ## Storing into memory -/

/-- Memory `out` after `bytes` were stored at its front; what does not fit is dropped. -/
def overwrite (out bytes : Bytes) : Bytes :=
  bytes.take out.length ++ out.drop bytes.length

@[simp] theorem length_overwrite (out bytes : Bytes) :
    (overwrite out bytes).length = out.length := by
  simp only [overwrite, List.length_append, List.length_take, List.length_drop]
  omega

/-- The `count` bytes of `memory` from `start` on. -/
def slice (memory : Bytes) (start count : Nat) : Bytes := (memory.drop start).take count

theorem length_slice {memory : Bytes} {start count : Nat} (h : start + count ≤ memory.length) :
    (slice memory start count).length = count := by
  simp only [slice, List.length_take, List.length_drop]
  omega

/-- Memory after `bytes` were stored into its range of `count` bytes from `start` on. -/
def overwriteAt (memory : Bytes) (start count : Nat) (bytes : Bytes) : Bytes :=
  memory.take start ++ overwrite (slice memory start count) bytes ++ memory.drop (start + count)

/-- Cuts the bytes to `count`, or extends them with zeros. -/
def resize (bytes : Bytes) (count : Nat) : Bytes :=
  bytes.take count ++ zeros (count - bytes.length)

end Bytes

end ForeignCall
