import ForeignCall.Bytes
import ForeignCall.Text.Utf8

/-!
# The error slot

A thread keeps the text of its latest failure in a buffer of fixed size (`ErrorSlot`).  The text is
followed by a zero byte, and what does not fit is cut off: bytes at the limit (`setBytes`), text
that is appended at the end of a character (`append`).  A text of no bytes means that no failure is
pending.

Readers see the buffer up to the first zero byte (`cString`), so a text with a zero byte in it is
read only up to there, and nothing of an earlier text is seen.
-/

namespace ForeignCall

/-- The text of a thread's latest failure. -/
structure ErrorSlot where
  buffer : Bytes
  length : Nat
  deriving DecidableEq

namespace ErrorSlot

/-- The size of the buffer, the zero byte behind the text included. -/
def capacity : Nat := 512

/-- The slot of a thread without a failure. -/
def empty : ErrorSlot := ⟨Bytes.zeros capacity, 0⟩

instance : Inhabited ErrorSlot := ⟨empty⟩

/-- The slot is a buffer of the right size with a zero byte behind its text. -/
structure WellFormed (s : ErrorSlot) : Prop where
  length_buffer : s.buffer.length = capacity
  length_lt : s.length < capacity
  buffer_length : s.buffer[s.length]? = some 0

/-! ## Writing -/

/-- Forgets the failure. -/
def clear (s : ErrorSlot) : ErrorSlot := ⟨s.buffer.set 0 0, 0⟩

/-- Puts `text` behind the first `start` bytes, then a zero byte; the bytes after it stay. -/
def putText (s : ErrorSlot) (start : Nat) (text : Bytes) : ErrorSlot where
  buffer := s.buffer.take start ++ text ++ 0 :: s.buffer.drop (start + text.length + 1)
  length := start + text.length

/-- Replaces the text by the bytes, cut to the room there is. -/
def setBytes (s : ErrorSlot) (bytes : Bytes) : ErrorSlot :=
  s.putText 0 (bytes.take (capacity - 1))

/-- Replaces the text, cut to the room there is even within a character. -/
def setText (s : ErrorSlot) (text : String) : ErrorSlot := s.setBytes (Utf8.encode text)

/-- The number of bytes that can still be appended. -/
def room (s : ErrorSlot) : Nat := capacity - 1 - s.length

/-- Appends the characters that fit, up to the first that does not. -/
def append (s : ErrorSlot) (text : String) : ErrorSlot :=
  s.putText s.length (Utf8.encodeChars (Utf8.fitting s.room text.toList))

/-- Replaces the text by pieces that are appended one after the other. -/
def setPieces (s : ErrorSlot) (pieces : List String) : ErrorSlot :=
  pieces.foldl append s.clear

/-- Runs `f` and then restores the slot. -/
def preserve {α : Type} (f : ErrorSlot → α × ErrorSlot) (s : ErrorSlot) : α × ErrorSlot :=
  ((f s).1, s)

/-! ## Reading -/

/-- The bytes of the text. -/
def content (s : ErrorSlot) : Bytes := s.buffer.take s.length

/-- Whether a failure is pending. -/
def isPending (s : ErrorSlot) : Bool := s.length != 0

/-- The bytes of the text up to the first zero byte, if a failure is pending. -/
def cString (s : ErrorSlot) : Option Bytes :=
  if s.isPending && s.buffer.contains 0 then some (s.buffer.takeWhile (· != 0)) else none

/-- The text, if a failure is pending. -/
def text? (s : ErrorSlot) : Option String := s.cString.map Utf8.decodeLossy

/-- The memory from the start of the buffer on, if a failure is pending. -/
def pointer? (s : ErrorSlot) : Option Bytes := if s.isPending then some s.buffer else none

/-! ## Every operation keeps a slot well formed -/

theorem WellFormed.empty : WellFormed empty where
  length_buffer := by simp [ErrorSlot.empty]
  length_lt := by decide
  buffer_length := by decide

theorem WellFormed.putText {s : ErrorSlot} (h : s.WellFormed) {start : Nat} {text : Bytes}
    (fits : start + text.length < capacity) : (s.putText start text).WellFormed := by
  have size := h.length_buffer
  have front : (s.buffer.take start).length = start := by
    rw [List.length_take]
    omega
  refine ⟨?_, fits, ?_⟩
  · simp only [ErrorSlot.putText, List.length_append, List.length_cons, List.length_drop, front]
    omega
  · have : (s.buffer.take start ++ text).length = start + text.length := by simp [front]
    rw [ErrorSlot.putText, List.getElem?_append_right (Nat.le_of_eq this), this, Nat.sub_self]
    rfl

theorem WellFormed.clear {s : ErrorSlot} (h : s.WellFormed) : s.clear.WellFormed := by
  have := h.length_buffer
  refine ⟨?_, (by decide : 0 < capacity), ?_⟩
  · simpa [ErrorSlot.clear] using this
  · simp [ErrorSlot.clear, this, capacity]

theorem WellFormed.setBytes {s : ErrorSlot} (h : s.WellFormed) (bytes : Bytes) :
    (s.setBytes bytes).WellFormed := by
  apply h.putText
  simp only [List.length_take, capacity]
  omega

theorem WellFormed.setText {s : ErrorSlot} (h : s.WellFormed) (text : String) :
    (s.setText text).WellFormed :=
  h.setBytes (Utf8.encode text)

theorem WellFormed.append {s : ErrorSlot} (h : s.WellFormed) (text : String) :
    (s.append text).WellFormed := by
  apply h.putText
  have := h.length_lt
  have := Utf8.length_encodeChars_fitting_le s.room text.toList
  simp only [room, capacity] at *
  omega

theorem WellFormed.setPieces {s : ErrorSlot} (h : s.WellFormed) (pieces : List String) :
    (s.setPieces pieces).WellFormed := by
  unfold ErrorSlot.setPieces
  generalize hs : s.clear = start
  have hstart : start.WellFormed := hs ▸ h.clear
  clear hs
  induction pieces generalizing start with
  | nil => exact hstart
  | cons piece rest ih => exact ih _ (hstart.append piece)

/-! ## What the text is after writing -/

theorem content_putText {s : ErrorSlot} (h : s.WellFormed) {start : Nat} (text : Bytes)
    (hstart : start ≤ s.length) :
    (s.putText start text).content = s.content.take start ++ text := by
  have size := h.length_buffer
  have bound := h.length_lt
  have front : (s.buffer.take start).length = start := by
    rw [List.length_take]
    omega
  rw [content, content, putText, List.take_take, Nat.min_eq_left hstart]
  have both : (s.buffer.take start ++ text).length = start + text.length := by simp [front]
  rw [List.take_append_of_le_length (Nat.le_of_eq both.symm), ← both, List.take_length]

@[simp] theorem content_clear (s : ErrorSlot) : s.clear.content = [] := rfl

theorem content_setBytes {s : ErrorSlot} (h : s.WellFormed) (bytes : Bytes) :
    (s.setBytes bytes).content = bytes.take (capacity - 1) := by
  rw [setBytes, content_putText h _ (Nat.zero_le _), List.take_zero, List.nil_append]

theorem content_append {s : ErrorSlot} (h : s.WellFormed) (text : String) :
    (s.append text).content =
      s.content ++ Utf8.encodeChars (Utf8.fitting s.room text.toList) := by
  have size := h.length_buffer
  have bound := h.length_lt
  have whole : s.content.length = s.length := by
    rw [content, List.length_take]
    omega
  rw [append, content_putText h _ (Nat.le_refl _), ← whole, List.take_length]

end ErrorSlot

end ForeignCall
