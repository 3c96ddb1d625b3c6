import ForeignCall.Proofs.ErrorSlot.History
import ForeignCall.Proofs.Text.Utf8Lossy

/-!
# How much the readers of the error slot see

Readers that borrow bytes of the slot get no more of them than there is room for.  Where these bytes
are no text, what is read from them may be longer: each part that is no character has up to three
bytes, and the replacement that is read for it has three (`ErrorSlot.Bounded`).  A text that was
recorded in pieces is always cut between characters, so what is read is what was borrowed
(`lendsText_setPieces`).
-/

namespace ForeignCall.ErrorSlot

open Utf8

/-- A reader is given the message: the text of the slot, or the message of an error that is made
from it. -/
def Shows (s : ErrorSlot) (message : String) : Prop :=
  s.text? = some message ∨ ∃ kind, s.capture kind = message

/-- The bytes that can be borrowed, if any, are those of a text. -/
def LendsText (s : ErrorSlot) : Prop :=
  ∀ bytes, s.cString = some bytes → ∃ text, bytes = encode text

/-- The bytes that can be borrowed are no more than there is room for.  A message is longer by what
the broken parts of the bytes were shorter than replacements, so never where the bytes are those of
a text, and never longer than three times the room. -/
structure Bounded (s : ErrorSlot) : Prop where
  content_le : s.content.length ≤ capacity - 1
  cString_le : ∀ bytes, s.cString = some bytes → bytes.length ≤ capacity - 1
  text?_reads : ∀ text, s.text? = some text → ∃ bytes broken, s.cString = some bytes ∧
    Reads bytes text.toList broken ∧ (∀ part ∈ broken, 0 < part.length ∧ part.length ≤ 3) ∧
    text.utf8ByteSize + broken.flatten.length = bytes.length + 3 * broken.length
  shows_le : ∀ message, s.Shows message → message.utf8ByteSize ≤ 3 * (capacity - 1)
  shows_le_of_lendsText : s.LendsText →
    ∀ message, s.Shows message → message.utf8ByteSize ≤ capacity - 1

/-! ## Slots that are well formed -/

variable {s : ErrorSlot}

theorem cString_eq_of_some (h : s.WellFormed) {bytes : Bytes} (lent : s.cString = some bytes) :
    bytes = s.content.takeWhile (· != 0) := by
  have reads := readsContent h
  have pending : s.length ≠ 0 := fun idle => by
    rw [reads.cString_eq_none_iff.2 idle] at lent
    exact nomatch lent
  exact Option.some.inj (lent.symm.trans (reads.cString_eq pending))

theorem length_cString_le (h : s.WellFormed) {bytes : Bytes} (lent : s.cString = some bytes) :
    bytes.length ≤ capacity - 1 := by
  rw [cString_eq_of_some h lent]
  refine Nat.le_trans (List.takeWhile_prefix _).length_le ?_
  rw [h.length_content]
  exact Nat.le_sub_one_of_lt h.length_lt

theorem text?_eq_some_iff {text : String} :
    s.text? = some text ↔ ∃ bytes, s.cString = some bytes ∧ decodeLossy bytes = text :=
  Option.map_eq_some_iff

/-- What is read from bytes, with the parts that replacements were read for. -/
theorem exists_reads_decodeLossy (bytes : Bytes) : ∃ broken,
    Reads bytes (decodeLossy bytes).toList broken ∧
    (decodeLossy bytes).utf8ByteSize + broken.flatten.length =
      bytes.length + 3 * broken.length := by
  obtain ⟨broken, reads⟩ := exists_reads bytes
  refine ⟨broken, ?_, ?_⟩
  · rwa [decodeLossy, String.toList_ofList]
  · rw [decodeLossy, utf8ByteSize_ofList]
    exact reads.length_encodeChars

theorem utf8ByteSize_decodeLossy_le (bytes : Bytes) :
    (decodeLossy bytes).utf8ByteSize ≤ 3 * bytes.length := by
  obtain ⟨broken, reads⟩ := exists_reads bytes
  rw [decodeLossy, utf8ByteSize_ofList]
  exact reads.length_encodeChars_le

theorem utf8ByteSize_fallback_le (kind : ErrorKind) :
    kind.fallback.utf8ByteSize ≤ capacity - 1 := by
  cases kind <;> decide

/-- A bound of the texts of a slot is one of all messages that it shows. -/
theorem Shows.utf8ByteSize_le {message : String} (shown : s.Shows message) {bound : Nat}
    (room : capacity - 1 ≤ bound)
    (texts : ∀ text, s.text? = some text → text.utf8ByteSize ≤ bound) :
    message.utf8ByteSize ≤ bound := by
  rcases shown with text | ⟨kind, rfl⟩
  · exact texts message text
  · rw [capture]
    cases text : s.text? with
    | none => exact Nat.le_trans (utf8ByteSize_fallback_le kind) room
    | some m => exact texts m text

theorem WellFormed.bounded (h : s.WellFormed) : s.Bounded where
  content_le := h.length_content ▸ Nat.le_sub_one_of_lt h.length_lt
  cString_le _ := length_cString_le h
  text?_reads text read := by
    obtain ⟨bytes, lent, rfl⟩ := text?_eq_some_iff.1 read
    obtain ⟨broken, reads, size⟩ := exists_reads_decodeLossy bytes
    exact ⟨bytes, broken, lent, reads, reads.length_of_mem, size⟩
  shows_le message shown := by
    refine shown.utf8ByteSize_le (by decide) fun text read => ?_
    obtain ⟨bytes, lent, rfl⟩ := text?_eq_some_iff.1 read
    exact Nat.le_trans (utf8ByteSize_decodeLossy_le bytes)
      (Nat.mul_le_mul_left 3 (length_cString_le h lent))
  shows_le_of_lendsText lends message shown := by
    refine shown.utf8ByteSize_le (Nat.le_refl _) fun text read => ?_
    obtain ⟨bytes, lent, rfl⟩ := text?_eq_some_iff.1 read
    obtain ⟨text, rfl⟩ := lends bytes lent
    rw [decodeLossy_encode, ← length_encode]
    exact length_cString_le h lent

/-! ## Texts that are cut between characters -/

theorem lendsText_of_content (h : s.WellFormed) {cs : List Char}
    (content_eq : s.content = encodeChars cs) : s.LendsText := by
  intro bytes lent
  refine ⟨String.ofList (cs.takeWhile (· != '\x00')), ?_⟩
  rw [cString_eq_of_some h lent, content_eq, takeWhile_encodeChars, encode_ofList]

theorem lendsText_setPieces (h : s.WellFormed) (pieces : List String) :
    (s.setPieces pieces).LendsText :=
  lendsText_of_content (h.setPieces pieces) (content_setPieces h pieces)

end ForeignCall.ErrorSlot
