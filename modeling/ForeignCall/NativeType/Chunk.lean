import ForeignCall.Layout.Leaves
import ForeignCall.NativeType.Basic

/-!
# Unions for the call interface

The call interface has no unions, so a union is handed over as a struct of scalars.  It is cut into
chunks of eight bytes, the last of which may be shorter (`chunks`).  A chunk that only
floating-point scalars reach becomes floating-point members, and any other becomes unsigned
integers (`Chunk.members`), so that the struct travels in the registers that the union would.  No
member is wider than the alignment of the union, which keeps its size and its alignment.
-/

namespace ForeignCall

/-- The size of the part of an aggregate that travels in one register. -/
def eightbyte : Nat := 8

/-- A part of a union. -/
structure Chunk where
  start : Nat
  length : Nat
  deriving DecidableEq, Repr

/-- The chunks of a union of `size` bytes in order. -/
def chunks (size : Nat) : List Chunk :=
  (List.range ((size + (eightbyte - 1)) / eightbyte)).map fun i =>
    ⟨eightbyte * i, min eightbyte (size - eightbyte * i)⟩

/-- The widest unsigned integer of at most `limit` bytes. -/
def widestUnsigned (limit : Nat) : NativeScalar :=
  if 8 ≤ limit then .uint64
  else if 4 ≤ limit then .uint32
  else if 2 ≤ limit then .uint16
  else .uint8

/-- Unsigned integers of at most `align` bytes each that fill `remaining` bytes, each as wide as
possible. -/
def unsignedMembers (align remaining : Nat) : List NativeScalar :=
  if 0 < remaining then
    let piece := widestUnsigned (min align remaining)
    piece :: unsignedMembers align (remaining - piece.size)
  else []
termination_by remaining
decreasing_by
  have := (widestUnsigned (min align remaining)).size_pos
  omega

namespace Chunk

/-- Whether the scalar reaches into the chunk. -/
def overlaps (c : Chunk) (l : Leaf) : Bool := l.offset < c.start + c.length && c.start < l.stop

/-- Whether scalars reach into the chunk, and only floating-point ones. -/
def isFloating (c : Chunk) (leaves : List Leaf) : Bool :=
  let inside := leaves.filter c.overlaps
  !inside.isEmpty && inside.all fun l => l.scalar.isFloating

/-- The members that stand for the chunk in a union of the given alignment and scalars. -/
def members (c : Chunk) (align : Nat) (leaves : List Leaf) : List NativeScalar :=
  if c.isFloating leaves && c.length == 8 && 8 ≤ align then [.double]
  else if c.isFloating leaves && c.length == 8 then [.float, .float]
  else if c.isFloating leaves && c.length == 4 then [.float]
  else unsignedMembers align c.length

end Chunk

/-- The members that stand for a union of the given size, alignment and scalars. -/
def unionMembers (size align : Nat) (leaves : List Leaf) : List NativeScalar :=
  (chunks size).flatMap fun c => c.members align leaves

end ForeignCall
