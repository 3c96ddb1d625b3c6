import ForeignCall.Layout.Basic

/-!
# The scalars inside a type

`ObjectType.leaves` lists every scalar inside a type with its offset, in field order, the members
of a union one after the other.
-/

namespace ForeignCall

/-- A scalar at an offset inside a type. -/
structure Leaf where
  offset : Nat
  scalar : Scalar
  deriving DecidableEq, Repr

namespace Leaf

/-- Where the scalar ends. -/
def stop (l : Leaf) : Nat := l.offset + l.scalar.size

/-- The leaf inside a type that itself lies at `base`. -/
def shift (base : Nat) (l : Leaf) : Leaf := ⟨base + l.offset, l.scalar⟩

end Leaf

mutual

/-- The scalars inside the type. -/
def ObjectType.leaves : ObjectType → List Leaf
  | .scalar s => [⟨0, s⟩]
  | .aggregate kind fields => fields.leaves kind

/-- The scalars inside the fields of an aggregate. -/
def Fields.leaves (kind : AggregateKind) : Fields → List Leaf
  | .single t => t.leaves
  | .push earlier t =>
    earlier.leaves kind ++ t.leaves.map (Leaf.shift (earlier.nextOffset kind t))

end

/-- The scalars inside the aggregate. -/
def Layout.leaves (l : Layout) : List Leaf := l.type.leaves

end ForeignCall
