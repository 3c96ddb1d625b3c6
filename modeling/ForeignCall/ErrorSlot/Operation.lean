import ForeignCall.ErrorSlot.SystemMessage
import ForeignCall.Error

/-!
# Histories of the error slot

The operations on a slot as data (`SlotOperation`), so that a history of them can be spoken of, and
the error that is made from a slot (`ErrorSlot.capture`).
-/

namespace ForeignCall

/-- An operation on an error slot. -/
inductive SlotOperation where
  | clear
  | setBytes (bytes : Bytes)
  | setText (text : String)
  | setPieces (pieces : List String)
  | setSystemMessage (context : String) (code : Nat) (units : Option (List UInt16))
  /-- The operations one after the other, after which the slot is restored. -/
  | preserve (operations : List SlotOperation)

mutual

/-- The slot after the operation. -/
def SlotOperation.run (s : ErrorSlot) : SlotOperation → ErrorSlot
  | .clear => s.clear
  | .setBytes bytes => s.setBytes bytes
  | .setText text => s.setText text
  | .setPieces pieces => s.setPieces pieces
  | .setSystemMessage context code units => s.setSystemMessage context code units
  | .preserve operations => (s.preserve fun t => ((), SlotOperation.runAll t operations)).2

/-- The slot after the operations. -/
def SlotOperation.runAll (s : ErrorSlot) : List SlotOperation → ErrorSlot
  | [] => s
  | operation :: rest => runAll (operation.run s) rest

end

/-- The message of an error of the given kind when no failure is pending. -/
def ErrorKind.fallback : ErrorKind → String
  | .load => "unknown dlopen error"
  | .resolve => "symbol lookup failed"
  | .release => "dlclose failed"
  | kind => kind.describe

/-- The message of an error of the given kind: the text of the slot, if a failure is pending. -/
def ErrorSlot.capture (s : ErrorSlot) (kind : ErrorKind) : String :=
  s.text?.getD kind.fallback

end ForeignCall
