import ForeignCall.NativeType.Chunk

/-!
# Types as the call interface sees them

`ObjectType.lower` turns a type into a type of the call interface: a scalar into the scalar of the
same size and sign, a struct into the struct of its lowered fields, and a union into the struct of
its chunks.
-/

namespace ForeignCall

/-- The scalar of the call interface for an integer type. -/
def IntType.lower : IntType → NativeScalar
  | .int8 => .sint8
  | .uint8 => .uint8
  | .int16 => .sint16
  | .uint16 => .uint16
  | .int32 => .sint32
  | .uint32 => .uint32
  | .int64 | .intptr => .sint64
  | .uint64 | .uintptr => .uint64

/-- The scalar of the call interface for a scalar. -/
def Scalar.lower : Scalar → NativeScalar
  | .int t => t.lower
  | .float32 => .float
  | .float64 => .double
  | .pointer => .pointer

@[simp] theorem Scalar.size_lower (s : Scalar) : s.lower.size = s.size := by
  cases s with
  | int t => cases t <;> rfl
  | _ => rfl

@[simp] theorem Scalar.isFloating_lower (s : Scalar) : s.lower.isFloating = s.isFloating := by
  cases s with
  | int t => cases t <;> rfl
  | _ => rfl

/-- The struct that stands for a union of the given fields. -/
def Fields.lowerUnion (fields : Fields) : NativeType :=
  let union := ObjectType.aggregate .union fields
  .struct ((unionMembers union.size union.align union.leaves).map .scalar)

mutual

/-- The type as the call interface sees it. -/
def ObjectType.lower : ObjectType → NativeType
  | .scalar s => .scalar s.lower
  | .aggregate .struct fields => .struct fields.lowerEach
  | .aggregate .union fields => fields.lowerUnion

/-- The field types as the call interface sees them, in order. -/
def Fields.lowerEach : Fields → List NativeType
  | .single t => [t.lower]
  | .push earlier t => earlier.lowerEach ++ [t.lower]

end

/-- The type as the call interface sees it, or nothing for `void`. -/
def CType.lower : CType → Option NativeType
  | .void => none
  | .object t => some t.lower

end ForeignCall
