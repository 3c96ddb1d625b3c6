import ForeignCall.ErrorSlot.Basic
import ForeignCall.Text.Utf16

/-!
# Messages with a system error code

A system error is recorded as its context and the system's text for its code, without the line
breaks at its end.  Code zero records the context alone, and a code without a text is recorded as a
number.
-/

namespace ForeignCall.ErrorSlot

/-- Whether the unit is a carriage return or a line feed. -/
def isLineBreak (u : UInt16) : Bool := u == 0x0d || u == 0x0a

/-- The units without the line breaks at their end. -/
def trimLineBreaks (units : List UInt16) : List UInt16 :=
  (units.reverse.dropWhile isLineBreak).reverse

/-- The pieces in which the message of a system error other than zero is appended: each character
of the system's text is a piece of its own. -/
def systemPieces (context : String) (code : Nat) (units : Option (List UInt16)) : List String :=
  let text := trimLineBreaks (units.getD [])
  if text.isEmpty then [context, " (error ", toString code, ")"]
  else [context, ": "] ++ (Utf16.decode text).map String.singleton

/-- The message of a system error in full. -/
def systemMessage (context : String) (code : Nat) (units : Option (List UInt16)) : String :=
  let text := trimLineBreaks (units.getD [])
  if code = 0 then context
  else if text.isEmpty then context ++ " (error " ++ toString code ++ ")"
  else context ++ ": " ++ String.ofList (Utf16.decode text)

theorem join_map_singleton (cs : List Char) :
    String.join (cs.map String.singleton) = String.ofList cs := by
  induction cs with
  | nil => rfl
  | cons c cs ih =>
    rw [List.map_cons, String.join_cons, ih, String.singleton_eq_ofList, ← String.ofList_append]
    rfl

/-- The pieces make up the message. -/
theorem join_systemPieces (context : String) {code : Nat} (units : Option (List UInt16))
    (h : code ≠ 0) :
    String.join (systemPieces context code units) = systemMessage context code units := by
  simp only [systemPieces, systemMessage, if_neg h]
  split
  · simp [String.join_cons, String.append_assoc]
  · simp [String.join_cons, join_map_singleton, String.append_assoc]

/-- Records a system error. -/
def setSystemMessage (s : ErrorSlot) (context : String) (code : Nat)
    (units : Option (List UInt16)) : ErrorSlot :=
  if code = 0 then s.setText context else s.setPieces (systemPieces context code units)

end ForeignCall.ErrorSlot
