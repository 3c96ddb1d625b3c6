/-!
# Scalar types

The scalar types of the target, a 64-bit little-endian machine: ten integer types (`IntType`),
two floating-point types and the data pointer (`Scalar`).  A scalar is aligned to its own size.
Pointer-sized integers are types of their own, apart from the 64-bit ones.
-/

namespace ForeignCall

/-- The size in bytes of a general register, an address and a pointer-sized integer. -/
def wordSize : Nat := 8

inductive IntType where
  | int8 | uint8 | int16 | uint16 | int32 | uint32 | int64 | uint64 | intptr | uintptr
  deriving DecidableEq, Repr, Inhabited

namespace IntType

def size : IntType → Nat
  | int8 | uint8 => 1
  | int16 | uint16 => 2
  | int32 | uint32 => 4
  | int64 | uint64 => 8
  | intptr | uintptr => wordSize

abbrev bits (t : IntType) : Nat := 8 * t.size

/-- Whether the type has negative values, in two's complement. -/
def isSigned : IntType → Bool
  | int8 | int16 | int32 | int64 | intptr => true
  | uint8 | uint16 | uint32 | uint64 | uintptr => false

def name : IntType → String
  | int8 => "int8"
  | uint8 => "uint8"
  | int16 => "int16"
  | uint16 => "uint16"
  | int32 => "int32"
  | uint32 => "uint32"
  | int64 => "int64"
  | uint64 => "uint64"
  | intptr => "intptr"
  | uintptr => "uintptr"

def least : IntType → Int
  | int8 => -128
  | int16 => -32768
  | int32 => -2147483648
  | int64 | intptr => -9223372036854775808
  | uint8 | uint16 | uint32 | uint64 | uintptr => 0

def greatest : IntType → Int
  | int8 => 127
  | uint8 => 255
  | int16 => 32767
  | uint16 => 65535
  | int32 => 2147483647
  | uint32 => 4294967295
  | int64 | intptr => 9223372036854775807
  | uint64 | uintptr => 18446744073709551615

/-- The integer `n` is a value of the type. -/
def Fits (t : IntType) (n : Int) : Prop := t.least ≤ n ∧ n ≤ t.greatest

instance (t : IntType) (n : Int) : Decidable (t.Fits n) :=
  inferInstanceAs (Decidable (t.least ≤ n ∧ n ≤ t.greatest))

/-- The integer that a pattern of the type's width stands for. -/
def toInt (t : IntType) (pattern : BitVec t.bits) : Int :=
  if t.isSigned then pattern.toInt else pattern.toNat

/-- The pattern of the type's width for `n`, which is wrapped to that width. -/
def wrap (t : IntType) (n : Int) : BitVec t.bits := BitVec.ofInt t.bits n

theorem size_pos (t : IntType) : 0 < t.size := by
  cases t <;> decide

theorem toInt_wrap_of_fits {t : IntType} {n : Int} (h : t.Fits n) : t.toInt (t.wrap n) = n := by
  cases t <;> simp only [Fits, least, greatest, wrap, isSigned, bits, size, wordSize, toInt,
    if_true, if_false, Bool.false_eq_true, BitVec.toInt_ofInt, BitVec.toNat_ofInt,
    Int.bmod_def] at h ⊢ <;> omega

theorem wrap_toInt (t : IntType) (pattern : BitVec t.bits) :
    t.wrap (t.toInt pattern) = pattern := by
  unfold wrap toInt
  split
  · exact BitVec.ofInt_toInt
  · rw [BitVec.ofInt_natCast, BitVec.ofNat_toNat, BitVec.setWidth_eq]

theorem fits_toInt (t : IntType) (pattern : BitVec t.bits) : t.Fits (t.toInt pattern) := by
  have := pattern.isLt
  have := pattern.le_toInt
  have := pattern.toInt_lt
  cases t <;> simp only [Fits, least, greatest, isSigned, bits, size, wordSize, toInt, if_true,
    if_false, Bool.false_eq_true] at * <;> omega

end IntType

inductive Scalar where
  | int (type : IntType)
  | float32
  | float64
  | pointer
  deriving DecidableEq, Repr, Inhabited

namespace Scalar

def size : Scalar → Nat
  | int t => t.size
  | float32 => 4
  | float64 => 8
  | pointer => wordSize

/-- The alignment in bytes: a scalar is aligned to its size. -/
def align (s : Scalar) : Nat := s.size

def isFloating : Scalar → Bool
  | float32 | float64 => true
  | int _ | pointer => false

def name : Scalar → String
  | int t => t.name
  | float32 => "float"
  | float64 => "double"
  | pointer => "pointer"

theorem size_pos (s : Scalar) : 0 < s.size := by
  cases s with
  | int t => exact t.size_pos
  | _ => decide

end Scalar

end ForeignCall
