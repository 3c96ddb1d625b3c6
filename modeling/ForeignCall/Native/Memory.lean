import ForeignCall.Value.Basic

/-!
# Memory of native code

Memory is a set of regions that never touch each other.  An address that lies in no region reads as
no bytes, and a store to it changes nothing.
-/

namespace ForeignCall

/-- A region of memory. -/
structure Region where
  start : Nat
  bytes : Bytes

/-- Whether the address lies in the region. -/
def Region.contains (r : Region) (a : Address) : Bool :=
  r.start ≤ a.toNat && a.toNat < r.start + r.bytes.length

/-- Regions of memory, and where the next one will lie. -/
structure Memory where
  regions : List Region
  next : Nat

namespace Memory

/-- Memory without regions. -/
def empty : Memory := ⟨[], 0x10000⟩

/-- A new region with the given content, and its address. -/
def allocate (m : Memory) (bytes : Bytes) : Address × Memory :=
  (BitVec.ofNat 64 m.next,
    { regions := m.regions ++ [⟨m.next, bytes⟩]
      next := m.next + 16 * (bytes.length / 16 + 2) })

/-- The bytes from the address to the end of its region. -/
def readFrom (m : Memory) (a : Address) : Bytes :=
  match m.regions.find? (·.contains a) with
  | some r => r.bytes.drop (a.toNat - r.start)
  | none => []

/-- The `count` bytes at the address. -/
def read (m : Memory) (a : Address) (count : Nat) : Bytes := (m.readFrom a).take count

/-- The bytes at the address up to a zero byte. -/
def readCString (m : Memory) (a : Address) : Bytes := (m.readFrom a).takeWhile (· != 0)

/-- Memory after the bytes were stored at the address. -/
def write (m : Memory) (a : Address) (bytes : Bytes) : Memory where
  regions := m.regions.map fun r =>
    if r.contains a then
      { r with bytes := Bytes.overwriteAt r.bytes (a.toNat - r.start) bytes.length bytes }
    else r
  next := m.next

end Memory

end ForeignCall
