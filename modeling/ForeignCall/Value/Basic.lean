import ForeignCall.Bytes
import ForeignCall.CType.Basic
import ForeignCall.Number.FloatFormat

/-!
# Values

A value is the absence of one (`void`), a scalar or the bytes of an aggregate.  Scalars are bit
patterns of the width of their type, so every value is in range and storing one and reading it back
gives the same value.
-/

namespace ForeignCall

/-- An address of the target. -/
abbrev Address := BitVec 64

def Address.null : Address := 0

/-- A value that crosses a call. -/
inductive Value where
  | void
  | int (type : IntType) (pattern : BitVec type.bits)
  | float32 (number : Single)
  | float64 (number : Double)
  | pointer (address : Address)
  | aggregate (bytes : Bytes)
  deriving DecidableEq

/-- The kind of a value, as a message names it. -/
inductive ValueKind where
  | void | signedInteger | unsignedInteger | float | pointer | aggregate
  deriving DecidableEq, Repr

def ValueKind.describe : ValueKind → String
  | void => "void"
  | signedInteger => "signed integer"
  | unsignedInteger => "unsigned integer"
  | float => "float"
  | pointer => "pointer"
  | aggregate => "aggregate"

namespace Value

/-- The integer `n`, wrapped to the width of the type. -/
def ofInt (t : IntType) (n : Int) : Value := int t (t.wrap n)

def kind : Value → ValueKind
  | void => .void
  | int t _ => if t.isSigned then .signedInteger else .unsignedInteger
  | float32 _ | float64 _ => .float
  | pointer _ => .pointer
  | aggregate _ => .aggregate

/-! ## Views -/

/-- The integer, for the values of integer types. -/
def asInteger : Value → Option Int
  | int t pattern => some (t.toInt pattern)
  | _ => none

/-- The nearest floating-point number, for numbers. -/
def asDouble : Value → Option Double
  | float32 x => some x.widen
  | float64 x => some x
  | int t pattern => some (Double.ofInt (t.toInt pattern))
  | void | pointer _ | aggregate _ => none

/-- The address, for pointers and pointer-sized integers. -/
def asAddress : Value → Option Address
  | pointer a => some a
  | int .intptr pattern => some pattern
  | int .uintptr pattern => some pattern
  | _ => none

/-- The bytes, for aggregates. -/
def asBytes : Value → Option Bytes
  | aggregate bytes => some bytes
  | _ => none

/-- Equality of what two values stand for: floating-point numbers are compared by value, so a
pattern that is no number differs from itself and the two zeros are equal.  Values of different
types are never equal. -/
def equal : Value → Value → Bool
  | float32 x, float32 y => x.equal y
  | float64 x, float64 y => x.equal y
  | v, w => v = w

theorem int_eq_ofInt (t : IntType) (p : BitVec t.bits) : int t p = ofInt t (t.toInt p) := by
  rw [ofInt, t.wrap_toInt]

theorem asInteger_ofInt_of_fits {t : IntType} {n : Int} (h : t.Fits n) :
    (ofInt t n).asInteger = some n :=
  congrArg some (IntType.toInt_wrap_of_fits h)

end Value

end ForeignCall
