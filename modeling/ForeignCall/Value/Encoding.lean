import ForeignCall.Value.Basic

/-!
# Values in memory

`Value.encode` gives the bytes of a value in the order of the target, `Value.store` puts them at
the front of a buffer, and `Value.load` reads a value of a given type from the front of one.  A
buffer that is too short for a scalar reads as if zeros followed it.
-/

namespace ForeignCall.Value

/-- The bytes of the value. -/
def encode : Value → Bytes
  | void => []
  | int t pattern => Bytes.littleEndian t.size pattern.toNat
  | float32 x => Bytes.littleEndian 4 x.toNat
  | float64 x => Bytes.littleEndian 8 x.toNat
  | pointer a => Bytes.littleEndian wordSize a.toNat
  | aggregate bytes => bytes

/-- The buffer `out` after the value was stored at its front; what does not fit is dropped. -/
def store (v : Value) (out : Bytes) : Bytes := Bytes.overwrite out v.encode

/-- The scalar at the front of `bytes`. -/
def loadScalar (s : Scalar) (bytes : Bytes) : Value :=
  let pattern := Bytes.ofLittleEndian (bytes.take s.size)
  match s with
  | .int t => int t (BitVec.ofNat t.bits pattern)
  | .float32 => float32 (BitVec.ofNat 32 pattern)
  | .float64 => float64 (BitVec.ofNat 64 pattern)
  | .pointer => pointer (BitVec.ofNat 64 pattern)

/-- The value of type `t` at the front of `bytes`. -/
def load (t : CType) (bytes : Bytes) : Value :=
  match t with
  | .void => void
  | .object (.scalar s) => loadScalar s bytes
  | .object (.aggregate kind fields) =>
    aggregate (bytes.take (ObjectType.aggregate kind fields).size)

/-- The value whose bytes are all zero. -/
def zero (t : CType) : Value := load t (Bytes.zeros t.size)

@[simp] theorem length_store (v : Value) (out : Bytes) : (v.store out).length = out.length :=
  Bytes.length_overwrite out v.encode

end ForeignCall.Value
