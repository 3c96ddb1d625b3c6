import ForeignCall.ErrorSlot.Operation
import ForeignCall.Proofs.ErrorSlot.Pieces
import ForeignCall.Proofs.ErrorSlot.Reading

/-!
# Histories of the error slot

After every history of operations the slot is well formed, and with every index checked the history
takes the same course (`SlotOperation.runAll?`): no access lies outside the buffer and the room for
more text is never negative.  All readers agree on the text up to its first zero byte
(`ErrorSlot.ReadsContent`), and the text is that of the latest write alone, whatever the buffer held
before it.
-/

namespace ForeignCall

/-! ## Checked accesses -/

namespace ErrorSlot

/-- `putText` where the text and the zero byte behind it have to lie in the buffer. -/
def putText? (s : ErrorSlot) (start : Nat) (text : Bytes) : Option ErrorSlot :=
  if start + text.length < s.buffer.length then some (s.putText start text) else none

def clear? (s : ErrorSlot) : Option ErrorSlot := if 0 < s.buffer.length then some s.clear else none

def setBytes? (s : ErrorSlot) (bytes : Bytes) : Option ErrorSlot :=
  s.putText? 0 (bytes.take (capacity - 1))

/-- `append` where the text there is must not be longer than the room for text. -/
def append? (s : ErrorSlot) (text : String) : Option ErrorSlot :=
  if s.length ≤ capacity - 1 then
    s.putText? s.length (Utf8.encodeChars (Utf8.fitting s.room text.toList))
  else none

def setPieces? (s : ErrorSlot) (pieces : List String) : Option ErrorSlot :=
  s.clear?.bind fun s => pieces.foldlM append? s

end ErrorSlot

mutual

/-- The slot after the operation, if all its accesses lie in the buffer. -/
def SlotOperation.run? (s : ErrorSlot) : SlotOperation → Option ErrorSlot
  | .clear => s.clear?
  | .setBytes bytes => s.setBytes? bytes
  | .setText text => s.setBytes? (Utf8.encode text)
  | .setPieces pieces => s.setPieces? pieces
  | .setSystemMessage context code units =>
    if code = 0 then s.setBytes? (Utf8.encode context)
    else s.setPieces? (ErrorSlot.systemPieces context code units)
  | .preserve operations => (SlotOperation.runAll? s operations).map fun _ => s

/-- The slot after the operations, if all their accesses lie in the buffer. -/
def SlotOperation.runAll? (s : ErrorSlot) : List SlotOperation → Option ErrorSlot
  | [] => some s
  | operation :: rest => (operation.run? s).bind fun s => SlotOperation.runAll? s rest

end

namespace ErrorSlot

variable {s t : ErrorSlot}

theorem WellFormed.putText?_eq (h : s.WellFormed) {start : Nat} {text : Bytes}
    (fits : start + text.length < capacity) : s.putText? start text = some (s.putText start text) :=
  if_pos (h.length_buffer ▸ fits)

theorem WellFormed.clear?_eq (h : s.WellFormed) : s.clear? = some s.clear := by
  refine if_pos ?_
  rw [h.length_buffer]
  decide

theorem WellFormed.setBytes?_eq (h : s.WellFormed) (bytes : Bytes) :
    s.setBytes? bytes = some (s.setBytes bytes) := by
  apply h.putText?_eq
  rw [List.length_take, capacity]
  omega

theorem WellFormed.append?_eq (h : s.WellFormed) (text : String) :
    s.append? text = some (s.append text) := by
  have bound := h.length_lt
  have fits := Utf8.length_encodeChars_fitting_le s.room text.toList
  have room : s.length ≤ capacity - 1 := Nat.le_sub_one_of_lt bound
  rw [append?, if_pos room]
  apply h.putText?_eq
  rw [ErrorSlot.room] at fits ⊢
  omega

theorem WellFormed.foldlM_append?_eq (h : s.WellFormed) (pieces : List String) :
    pieces.foldlM append? s = some (pieces.foldl ErrorSlot.append s) := by
  induction pieces generalizing s with
  | nil => rfl
  | cons piece rest ih =>
    rw [List.foldlM_cons, h.append?_eq, List.foldl_cons, ← ih (h.append piece)]
    rfl

theorem WellFormed.setPieces?_eq (h : s.WellFormed) (pieces : List String) :
    s.setPieces? pieces = some (s.setPieces pieces) := by
  rw [setPieces?, h.clear?_eq, Option.bind_some, h.clear.foldlM_append?_eq, ErrorSlot.setPieces]

theorem WellFormed.setSystemMessage (h : s.WellFormed) (context : String) (code : Nat)
    (units : Option (List UInt16)) : (s.setSystemMessage context code units).WellFormed := by
  unfold ErrorSlot.setSystemMessage
  split
  · exact h.setText context
  · exact h.setPieces _

end ErrorSlot

/-! ## Histories keep a slot well formed -/

mutual

theorem SlotOperation.run?_eq {s : ErrorSlot} (h : s.WellFormed) :
    (operation : SlotOperation) → operation.run? s = some (operation.run s) ∧
      (operation.run s).WellFormed
  | .clear => ⟨h.clear?_eq, h.clear⟩
  | .setBytes bytes => ⟨h.setBytes?_eq bytes, h.setBytes bytes⟩
  | .setText text => ⟨h.setBytes?_eq _, h.setText text⟩
  | .setPieces pieces => ⟨h.setPieces?_eq pieces, h.setPieces pieces⟩
  | .setSystemMessage context code units => by
    refine ⟨?_, h.setSystemMessage context code units⟩
    rw [SlotOperation.run?, SlotOperation.run, ErrorSlot.setSystemMessage]
    split
    · exact h.setBytes?_eq _
    · exact h.setPieces?_eq _
  | .preserve operations => by
    have inner := SlotOperation.runAll?_eq h operations
    rw [SlotOperation.run?, inner.1]
    exact ⟨rfl, h⟩

theorem SlotOperation.runAll?_eq {s : ErrorSlot} (h : s.WellFormed) :
    (operations : List SlotOperation) →
      SlotOperation.runAll? s operations = some (SlotOperation.runAll s operations) ∧
        (SlotOperation.runAll s operations).WellFormed
  | [] => ⟨rfl, h⟩
  | operation :: rest => by
    have first := SlotOperation.run?_eq h operation
    rw [SlotOperation.runAll?, first.1]
    exact SlotOperation.runAll?_eq first.2 rest

end

/-! ## What readers see -/

/-- The readers of a slot agree: they find nothing if there is no text, and else the text up to its
first zero byte, with a zero byte behind it. -/
structure ErrorSlot.ReadsContent (s : ErrorSlot) : Prop where
  pointer?_eq_none_iff : s.pointer? = none ↔ s.length = 0
  cString_eq_none_iff : s.cString = none ↔ s.length = 0
  text?_eq_none_iff : s.text? = none ↔ s.length = 0
  pointer?_eq : s.length ≠ 0 →
    ∃ rest, s.pointer? = some (s.content.takeWhile (· != 0) ++ 0 :: rest)
  cString_eq : s.length ≠ 0 → s.cString = some (s.content.takeWhile (· != 0))
  text?_eq : s.length ≠ 0 → s.text? = some (Utf8.decodeLossy (s.content.takeWhile (· != 0)))

theorem takeWhile_zero_behind (front rest : Bytes) :
    (front ++ 0 :: rest).takeWhile (· != 0) = front.takeWhile (· != 0) := by
  induction front with
  | nil => rfl
  | cons b front ih =>
    by_cases zero : b = 0
    · simp [zero]
    · simp [zero, ih]

theorem exists_takeWhile_append (front rest : Bytes) :
    ∃ rest', front ++ 0 :: rest = front.takeWhile (· != 0) ++ 0 :: rest' := by
  induction front with
  | nil => exact ⟨rest, rfl⟩
  | cons b front ih =>
    by_cases zero : b = 0
    · exact ⟨front ++ 0 :: rest, by simp [zero]⟩
    · obtain ⟨rest', h⟩ := ih
      exact ⟨rest', by simp [zero, h]⟩

namespace ErrorSlot

variable {s t : ErrorSlot}

theorem readsContent (h : s.WellFormed) : s.ReadsContent := by
  obtain ⟨rest, buffer⟩ := h.buffer_eq
  have ends : s.buffer.contains 0 = true := by
    rw [buffer, List.contains_iff_mem]
    exact List.mem_append_right _ List.mem_cons_self
  by_cases empty : s.length = 0
  · have idle : s.isPending = false := by rw [isPending, empty]; rfl
    have cString : s.cString = none := by rw [ErrorSlot.cString, idle]; rfl
    have pointer : s.pointer? = none := by rw [pointer?, idle]; rfl
    have text : s.text? = none := by rw [text?, cString]; rfl
    exact ⟨iff_of_true pointer empty, iff_of_true cString empty, iff_of_true text empty,
      absurd empty, absurd empty, absurd empty⟩
  · have pending : s.isPending = true := bne_iff_ne.2 empty
    have cString : s.cString = some (s.content.takeWhile (· != 0)) := by
      rw [ErrorSlot.cString, pending, ends, buffer, takeWhile_zero_behind]
      rfl
    have text : s.text? = some (Utf8.decodeLossy (s.content.takeWhile (· != 0))) := by
      rw [text?, cString, Option.map_some]
    obtain ⟨rest', split⟩ := exists_takeWhile_append s.content rest
    have pointer : s.pointer? = some (s.content.takeWhile (· != 0) ++ 0 :: rest') := by
      rw [pointer?, if_pos pending, buffer, split]
    refine ⟨iff_of_false ?_ empty, iff_of_false ?_ empty, iff_of_false ?_ empty,
      fun _ => ⟨rest', pointer⟩, fun _ => cString, fun _ => text⟩
    · simp [pointer]
    · simp [cString]
    · simp [text]

theorem content_setText (h : s.WellFormed) (text : String) :
    (s.setText text).content = (Utf8.encode text).take (capacity - 1) :=
  content_setBytes h _

theorem isValidUTF8_content_setPieces (h : s.WellFormed) (pieces : List String) :
    (s.setPieces pieces).content.toByteArray.IsValidUTF8 := by
  rw [content_setPieces h]
  exact ⟨keptChars (capacity - 1) pieces, rfl⟩

/-- What an operation writes shows nothing of the slot it is written to. -/
theorem content_run_eq (hs : s.WellFormed) (ht : t.WellFormed) {operation : SlotOperation}
    (writes : ∀ operations, operation ≠ .preserve operations) :
    (operation.run s).content = (operation.run t).content := by
  cases operation with
  | clear => rfl
  | setBytes bytes =>
    rw [SlotOperation.run, SlotOperation.run, content_setBytes hs, content_setBytes ht]
  | setText text =>
    rw [SlotOperation.run, SlotOperation.run, content_setText hs, content_setText ht]
  | setPieces pieces =>
    rw [SlotOperation.run, SlotOperation.run, content_setPieces hs, content_setPieces ht]
  | setSystemMessage context code units =>
    rw [SlotOperation.run, SlotOperation.run]
    by_cases zero : code = 0
    · rw [setSystemMessage, setSystemMessage, if_pos zero, if_pos zero, content_setText hs,
        content_setText ht]
    · rw [setSystemMessage_of_ne zero, setSystemMessage_of_ne zero, content_setPieces hs,
        content_setPieces ht]
  | preserve operations => exact absurd rfl (writes operations)

end ErrorSlot

/-- After every history no access was out of bounds, the slot is well formed and its readers agree
on its text.  The next operation restores the slot, or writes a text that does not depend on it;
text that is written in pieces is well formed. -/
theorem SlotOperation.slot_after_history (history : List SlotOperation) :
    let s := runAll .empty history
    runAll? .empty history = some s ∧ s.WellFormed ∧ s.length + s.room = ErrorSlot.capacity - 1 ∧
      s.ReadsContent ∧
      (∀ operations, (preserve operations).run s = s) ∧
      (∀ pieces, ((setPieces pieces).run s).content.toByteArray.IsValidUTF8) ∧
      ∀ operation, (∀ operations, operation ≠ preserve operations) → ∀ t : ErrorSlot,
        t.WellFormed → (operation.run s).content = (operation.run t).content := by
  intro s
  have ⟨checked, wellFormed⟩ := SlotOperation.runAll?_eq .empty history
  have room : s.length + s.room = ErrorSlot.capacity - 1 :=
    Nat.add_sub_cancel' (Nat.le_sub_one_of_lt wellFormed.length_lt)
  exact ⟨checked, wellFormed, room, ErrorSlot.readsContent wellFormed, fun _ => rfl,
    ErrorSlot.isValidUTF8_content_setPieces wellFormed,
    fun _ writes _ ht => ErrorSlot.content_run_eq wellFormed ht writes⟩

end ForeignCall
