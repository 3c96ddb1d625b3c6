import ForeignCall.Value.Encoding

/-!
# The slot of a result

A call leaves its result in a slot of at least one register.  An integer narrower than a register
fills the whole of it, extended according to its sign; every other result lies at the front of the
slot as in memory.  `Value.storeResult` and `Value.loadResult` write and read such a slot.
-/

namespace ForeignCall

/-- Whether a result of the type is widened to a register. -/
def CType.isWidened : CType → Bool
  | .object (.scalar (.int t)) => t.size < wordSize
  | _ => false

namespace Value

/-- The slot `out` after the value was stored as a result of type `t`.  A value that is no integer
counts as zero where an integer is widened. -/
def storeResult (v : Value) (t : CType) (out : Bytes) : Bytes :=
  if t.isWidened then (ofInt .uintptr (v.asInteger.getD 0)).store out else v.store out

/-- The result of type `t` in the slot: a widened integer is cut down to its width. -/
def loadResult (t : CType) (slot : Bytes) : Value :=
  match t with
  | .object (.scalar (.int i)) =>
    if i.size < wordSize then
      int i (BitVec.ofNat i.bits (Bytes.ofLittleEndian (slot.take wordSize)))
    else load t slot
  | _ => load t slot

@[simp] theorem length_storeResult (v : Value) (t : CType) (out : Bytes) :
    (v.storeResult t out).length = out.length := by
  unfold storeResult
  split <;> exact length_store _ _

end Value

end ForeignCall
