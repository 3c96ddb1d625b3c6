import ForeignCall.Layout.Basic
import ForeignCall.Value.Coercion
import ForeignCall.Value.Encoding

/-!
# Reading and writing fields

`Layout.read` and `Layout.write` access one field of an aggregate that lies in a buffer.  The
length of the buffer is checked first, then the index, and a value is converted to the type of the
field before anything is written.
-/

namespace ForeignCall.Layout

/-- The offset and the type of the field at the index of an aggregate in a buffer of the given
length. -/
def access (l : Layout) (length index : Nat) : Except ArgumentError (Nat × ObjectType) :=
  if length = l.size then
    match l.field? index with
    | some field => .ok field
    | none => .error (.fieldOutOfRange index l.fields.length)
  else .error (.bufferLength l.size length)

/-- The value of the field at the index. -/
def read (l : Layout) (buffer : Bytes) (index : Nat) : Except ArgumentError Value :=
  match l.access buffer.length index with
  | .ok (offset, t) => .ok (.load (.object t) (Bytes.slice buffer offset t.size))
  | .error e => .error e

/-- The buffer after the value was written to the field at the index. -/
def write (l : Layout) (buffer : Bytes) (index : Nat) (v : Value) : Except ArgumentError Bytes :=
  match l.access buffer.length index with
  | .ok (offset, t) =>
    match v.coerceObject t with
    | .ok w => .ok (Bytes.overwriteAt buffer offset t.size w.encode)
    | .error e => .error e
  | .error e => .error e

end ForeignCall.Layout
