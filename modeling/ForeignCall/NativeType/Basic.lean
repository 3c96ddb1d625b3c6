/-!
# Types of the call interface

The call interface knows scalars and structs, but no unions (`NativeType`).  It lays a struct out
by itself: every member lies at the least multiple of its alignment that is not below the end of
the member before it, and the size is rounded up to the strictest alignment.
-/

namespace ForeignCall

/-- The scalars of the call interface. -/
inductive NativeScalar where
  | uint8 | sint8 | uint16 | sint16 | uint32 | sint32 | uint64 | sint64 | float | double | pointer
  deriving DecidableEq, Repr, Inhabited

namespace NativeScalar

def size : NativeScalar → Nat
  | uint8 | sint8 => 1
  | uint16 | sint16 => 2
  | uint32 | sint32 | float => 4
  | uint64 | sint64 | double | pointer => 8

def name : NativeScalar → String
  | uint8 => "uint8"
  | sint8 => "sint8"
  | uint16 => "uint16"
  | sint16 => "sint16"
  | uint32 => "uint32"
  | sint32 => "sint32"
  | uint64 => "uint64"
  | sint64 => "sint64"
  | float => "float"
  | double => "double"
  | pointer => "pointer"

/-- Whether the scalar travels in a vector register. -/
def isFloating : NativeScalar → Bool
  | float | double => true
  | _ => false

def isUnsigned : NativeScalar → Bool
  | uint8 | uint16 | uint32 | uint64 => true
  | _ => false

theorem size_pos (s : NativeScalar) : 0 < s.size := by
  cases s <;> decide

end NativeScalar

inductive NativeType where
  | scalar (scalar : NativeScalar)
  | struct (members : List NativeType)
  deriving Inhabited

/-! ## The layout of the call interface -/

/-- The least multiple of `m` that is not below `n`. -/
def leastMultiple (n m : Nat) : Nat := (n + m - 1) / m * m

namespace NativeType

mutual

def align : NativeType → Nat
  | scalar s => s.size
  | struct members => alignOfMembers members

/-- The strictest alignment of a member. -/
def alignOfMembers : List NativeType → Nat
  | [] => 1
  | t :: ts => max t.align (alignOfMembers ts)

end

mutual

/-- The size in bytes, trailing padding included. -/
def size : NativeType → Nat
  | scalar s => s.size
  | struct members => leastMultiple (endOfMembers 0 members) (alignOfMembers members)

/-- Where the members end, the first of which may start at `start`. -/
def endOfMembers (start : Nat) : List NativeType → Nat
  | [] => start
  | t :: ts => endOfMembers (leastMultiple start t.align + t.size) ts

end

/-- The offsets of the members, the first of which may start at `start`. -/
def offsetsOfMembers (start : Nat) : List NativeType → List Nat
  | [] => []
  | t :: ts =>
    leastMultiple start t.align :: offsetsOfMembers (leastMultiple start t.align + t.size) ts

mutual

/-- The scalars inside the type, each with its offset. -/
def leaves : NativeType → List (Nat × NativeScalar)
  | scalar s => [(0, s)]
  | struct members => leavesOfMembers 0 members

/-- The scalars inside the members, the first of which may start at `start`. -/
def leavesOfMembers (start : Nat) : List NativeType → List (Nat × NativeScalar)
  | [] => []
  | t :: ts =>
    t.leaves.map (fun l => (leastMultiple start t.align + l.1, l.2)) ++
      leavesOfMembers (leastMultiple start t.align + t.size) ts

end

end NativeType

end ForeignCall
