import ForeignCall.Alignment
import ForeignCall.Scalar

/-!
# Types of values that cross a call

An object type is a scalar or an aggregate of one or more fields, each of an object type again
(`ObjectType`, `Fields`).  `void` is no object type: it names the absence of a result (`CType`).
So an aggregate is never empty and never has a void field.

Sizes follow the C rules for the target.  A field list knows where its last field ends when the
fields are placed one after the other (`Fields.structEnd`), the size of its largest field
(`Fields.maxSize`) and the strictest alignment (`Fields.align`).  Sizes and alignments are kept
with each type, so a type that shares its parts is measured once for each part.
-/

namespace ForeignCall

/-- The two kinds of aggregates. -/
inductive AggregateKind where
  /-- The fields lie one after the other. -/
  | struct
  /-- All fields start at offset zero. -/
  | union
  deriving DecidableEq, Repr, Inhabited

/-- What a kind of aggregate takes of two things: one for structs and one for unions. -/
def AggregateKind.select {α : Type} (kind : AggregateKind) (struct union : α) : α :=
  match kind with
  | .struct => struct
  | .union => union

mutual

/-- A type that values have. -/
inductive ObjectType where
  | scalar (scalar : Scalar)
  | aggregate (kind : AggregateKind) (fields : Fields)
with
  /-- The size in bytes, trailing padding included. -/
  @[computed_field] size : ObjectType → Nat
    | .scalar s => s.size
    | .aggregate kind fields =>
      alignUp (kind.select fields.structEnd fields.maxSize) fields.align
  /-- The alignment in bytes. -/
  @[computed_field] align : ObjectType → Nat
    | .scalar s => s.align
    | .aggregate _ fields => fields.align

/-- The fields of an aggregate, of which there is at least one, in order. -/
inductive Fields where
  /-- One field alone. -/
  | single (type : ObjectType)
  /-- The earlier fields, then a last one. -/
  | push (earlier : Fields) (type : ObjectType)
with
  /-- Where the last field ends in a struct of these fields. -/
  @[computed_field] structEnd : Fields → Nat
    | .single t => t.size
    | .push earlier t => alignUp earlier.structEnd t.align + t.size
  /-- The size of the largest field. -/
  @[computed_field] maxSize : Fields → Nat
    | .single t => t.size
    | .push earlier t => max earlier.maxSize t.size
  /-- The strictest alignment of a field. -/
  @[computed_field] align : Fields → Nat
    | .single t => t.align
    | .push earlier t => max earlier.align t.align

end

instance : Inhabited ObjectType := ⟨.scalar default⟩

instance : Inhabited Fields := ⟨.single default⟩

/-! ## Field lists -/

namespace Fields

/-- The field list with the given first field and the others after it. -/
def ofList (first : ObjectType) (others : List ObjectType) : Fields :=
  others.foldl push (single first)

def toList : Fields → List ObjectType
  | single t => [t]
  | push earlier t => earlier.toList ++ [t]

def length : Fields → Nat
  | single _ => 1
  | push earlier _ => earlier.length + 1

@[simp] theorem toList_single (t : ObjectType) : (single t).toList = [t] := rfl

@[simp] theorem toList_push (fs : Fields) (t : ObjectType) :
    (fs.push t).toList = fs.toList ++ [t] := rfl

@[simp] theorem length_toList : (fs : Fields) → fs.toList.length = fs.length
  | single _ => rfl
  | push earlier _ => by
    simp [length, length_toList earlier]

theorem toList_foldl_push (fs : Fields) (ts : List ObjectType) :
    (ts.foldl push fs).toList = fs.toList ++ ts := by
  induction ts generalizing fs with
  | nil => simp
  | cons t ts ih => simp [ih]

@[simp] theorem toList_ofList (first : ObjectType) (others : List ObjectType) :
    (ofList first others).toList = first :: others := by
  simp [ofList, toList_foldl_push]

end Fields

/-! ## Equality -/

mutual

/-- Decides equality of object types; a type that is shared is equal to itself at once. -/
def ObjectType.decEq (a b : ObjectType) : Decidable (a = b) :=
  withPtrEqDecEq a b fun _ =>
    match a, b with
    | .scalar s, .scalar t =>
      if h : s = t then isTrue (congrArg ObjectType.scalar h)
      else isFalse fun e => h (ObjectType.scalar.inj e)
    | .aggregate j fs, .aggregate k gs =>
      if h : j = k then
        match fs.decEq gs with
        | isTrue g => isTrue (h ▸ g ▸ rfl)
        | isFalse g => isFalse fun e => g (ObjectType.aggregate.inj e).2
      else isFalse fun e => h (ObjectType.aggregate.inj e).1
    | .scalar _, .aggregate .. => isFalse nofun
    | .aggregate .., .scalar _ => isFalse nofun

def Fields.decEq (fs gs : Fields) : Decidable (fs = gs) :=
  withPtrEqDecEq fs gs fun _ =>
    match fs, gs with
    | .single s, .single t =>
      match s.decEq t with
      | isTrue h => isTrue (h ▸ rfl)
      | isFalse h => isFalse fun e => h (Fields.single.inj e)
    | .push fs s, .push gs t =>
      match fs.decEq gs, s.decEq t with
      | isTrue g, isTrue h => isTrue (g ▸ h ▸ rfl)
      | isFalse g, _ => isFalse fun e => g (Fields.push.inj e).1
      | _, isFalse h => isFalse fun e => h (Fields.push.inj e).2
    | .single _, .push .. => isFalse nofun
    | .push .., .single _ => isFalse nofun

end

instance : DecidableEq ObjectType := ObjectType.decEq

instance : DecidableEq Fields := Fields.decEq

/-! ## Types of results and parameters -/

/-- A type as a declaration names it: `void`, or an object type. -/
inductive CType where
  | void
  | object (type : ObjectType)
  deriving DecidableEq, Inhabited

namespace CType

abbrev scalar (s : Scalar) : CType := object (.scalar s)

/-- The size in bytes; `void` takes no room. -/
def size : CType → Nat
  | void => 0
  | object t => t.size

def align : CType → Nat
  | void => 1
  | object t => t.align

def isAggregate : CType → Bool
  | object (.aggregate ..) => true
  | void | object (.scalar _) => false

def isInteger : CType → Bool
  | object (.scalar (.int _)) => true
  | _ => false

def isSigned : CType → Bool
  | object (.scalar (.int t)) => t.isSigned
  | _ => false

/-- The canonical name of a primitive type; an aggregate has none. -/
def name? : CType → Option String
  | void => some "void"
  | object (.scalar s) => some s.name
  | object (.aggregate ..) => none

/-- The object types of the list, or the index of its first `void`. -/
def objects : List CType → Except Nat (List ObjectType)
  | [] => .ok []
  | void :: _ => .error 0
  | object t :: rest =>
    match objects rest with
    | .ok ts => .ok (t :: ts)
    | .error index => .error (index + 1)

theorem objects_eq_ok_iff {types : List CType} {ts : List ObjectType} :
    objects types = .ok ts ↔ types = ts.map object := by
  induction types generalizing ts with
  | nil => cases ts <;> simp [objects]
  | cons t rest ih =>
    cases t with
    | void => cases ts <;> simp [objects]
    | object t =>
      rw [objects]
      cases hr : objects rest with
      | ok us =>
        have := ih.1 hr
        cases ts with
        | nil => simp
        | cons u ts => simp [this, List.map_inj_right]
      | error index =>
        cases ts with
        | nil => simp
        | cons u ts => simp [← ih, hr]

/-- The words for the type in a message. -/
def describe (t : CType) : String := t.name?.getD "an aggregate"

end CType

end ForeignCall
