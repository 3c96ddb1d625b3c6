import ForeignCall.Error

/-!
# Coercion

`Value.coerce t v` converts a value to the type `t` of a parameter, a field or a result.  Integers
convert to every integer type that holds them and to floating-point numbers; these convert to each
other, but never to integers.  Pointers and pointer-sized integers convert to pointers.  The bytes
of an aggregate are taken as they are if their number is right.
-/

namespace ForeignCall.Value

/-- The value as a value of the scalar type, if it converts. -/
def coerceScalar (s : Scalar) (v : Value) : Except ArgumentError Value :=
  let mismatch : ArgumentError := .mismatch v.kind (.scalar s)
  match s with
  | .int t =>
    match v.asInteger with
    | some n => if t.Fits n then .ok (ofInt t n) else .error (.outOfRange n t)
    | none => .error mismatch
  | .float32 =>
    match v.asDouble with
    | some x => .ok (float32 x.narrow)
    | none => .error mismatch
  | .float64 =>
    match v.asDouble with
    | some x => .ok (float64 x)
    | none => .error mismatch
  | .pointer =>
    match v.asAddress with
    | some a => .ok (pointer a)
    | none => .error mismatch

/-- The value as a value of an object type, if it converts. -/
def coerceObject (t : ObjectType) (v : Value) : Except ArgumentError Value :=
  match t, v with
  | .scalar s, v => v.coerceScalar s
  | .aggregate .., aggregate bytes =>
    if bytes.length = t.size then .ok (aggregate bytes)
    else .error (.aggregateLength t.size bytes.length)
  | .aggregate .., v => .error (.mismatch v.kind (.object t))

/-- The value as a value of type `t`, if it converts. -/
def coerce (t : CType) (v : Value) : Except ArgumentError Value :=
  match t, v with
  | .void, void => .ok void
  | .void, v => .error (.mismatch v.kind .void)
  | .object t, v => v.coerceObject t

/-- The value belongs to the type: it has the variant of the type and, as an aggregate, its
size. -/
def HasType (v : Value) (t : CType) : Prop :=
  match t, v with
  | .void, void => True
  | .object (.scalar (.int t)), int u _ => u = t
  | .object (.scalar .float32), float32 _ => True
  | .object (.scalar .float64), float64 _ => True
  | .object (.scalar .pointer), pointer _ => True
  | .object (.aggregate kind fields), aggregate bytes =>
    bytes.length = (ObjectType.aggregate kind fields).size
  | _, _ => False

end ForeignCall.Value
