import ForeignCall.Error

/-!
# Layouts of aggregates

A layout is the description of an aggregate: its kind and its fields.  `Layout.ofFields` builds one
and refuses an empty list and void fields; `Fields.placed` gives every field with its offset.
-/

namespace ForeignCall

/-! ## Placement of fields -/

namespace Fields

/-- The offset of a field of type `t` that follows the fields `earlier`. -/
def nextOffset (kind : AggregateKind) (earlier : Fields) (t : ObjectType) : Nat :=
  kind.select (alignUp earlier.structEnd t.align) 0

/-- The fields in order, each with its offset. -/
def placed (kind : AggregateKind) : Fields → List (Nat × ObjectType)
  | single t => [(0, t)]
  | push earlier t => earlier.placed kind ++ [(earlier.nextOffset kind t, t)]

@[simp] theorem placed_single (kind : AggregateKind) (t : ObjectType) :
    (single t).placed kind = [(0, t)] := rfl

@[simp] theorem placed_push (kind : AggregateKind) (fs : Fields) (t : ObjectType) :
    (fs.push t).placed kind = fs.placed kind ++ [(fs.nextOffset kind t, t)] := rfl

@[simp] theorem map_snd_placed (kind : AggregateKind) :
    (fs : Fields) → (fs.placed kind).map Prod.snd = fs.toList
  | single _ => rfl
  | push earlier _ => by
    simp [map_snd_placed kind earlier]

@[simp] theorem length_placed (kind : AggregateKind) (fs : Fields) :
    (fs.placed kind).length = fs.length := by
  rw [← length_toList, ← map_snd_placed kind, List.length_map]

end Fields

/-! ## Layouts -/

/-- The description of an aggregate. -/
structure Layout where
  kind : AggregateKind
  fields : Fields
  deriving DecidableEq, Inhabited

namespace Layout

/-- The aggregate with this layout, as a type. -/
def type (l : Layout) : ObjectType := .aggregate l.kind l.fields

/-- The size in bytes, trailing padding included. -/
def size (l : Layout) : Nat := l.type.size

def align (l : Layout) : Nat := l.type.align

/-- The offsets of the fields in order. -/
def offsets (l : Layout) : List Nat := (l.fields.placed l.kind).map Prod.fst

/-- The offset and the type of the field at the index, if there is one. -/
def field? (l : Layout) (index : Nat) : Option (Nat × ObjectType) :=
  (l.fields.placed l.kind)[index]?

/-- The offset of the field at the index, if there is one. -/
def offset? (l : Layout) (index : Nat) : Option Nat := l.offsets[index]?

/-- A buffer for the aggregate, filled with zeros. -/
def zeroed (l : Layout) : Bytes := Bytes.zeros l.size

/-- The layout of fields of the given types. -/
def ofFields (kind : AggregateKind) (types : List CType) : Except DescriptorError Layout :=
  match CType.objects types with
  | .error index => .error (.voidField index)
  | .ok [] => .error .noFields
  | .ok (first :: others) => .ok ⟨kind, .ofList first others⟩

end Layout

/-- The layout of an aggregate; other types have none. -/
def CType.layout? : CType → Option Layout
  | .object (.aggregate kind fields) => some ⟨kind, fields⟩
  | .void | .object (.scalar _) => none

namespace CType

/-- The struct of fields of the given types. -/
def struct (types : List CType) : Except DescriptorError CType :=
  (Layout.ofFields .struct types).map fun l => .object l.type

/-- The union of fields of the given types. -/
def union (types : List CType) : Except DescriptorError CType :=
  (Layout.ofFields .union types).map fun l => .object l.type

end CType

end ForeignCall
