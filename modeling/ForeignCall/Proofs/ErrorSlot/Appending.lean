import ForeignCall.Proofs.ErrorSlot.History
import ForeignCall.Proofs.Text.Utf8Boundary

/-!
# Appending as much as there is room for

Where a text is cut is searched for in its bytes, backwards from the room that is left
(`ErrorSlot.appendSearching?`).  The search always succeeds, and what it appends is what
`ErrorSlot.append` keeps: the longest start of the text that fits (`LongestFit`).  So a message in
pieces is recorded as one such start of every piece (`KeepsLongest`), and as soon as a piece was cut
there is no room for more than three bytes.
-/

namespace ForeignCall.ErrorSlot

open Utf8

/-! ## The longest start that fits -/

/-- `kept` is the longest start of the text that has at most `room` bytes. -/
structure LongestFit (room : Nat) (text kept : String) : Prop where
  isPrefix : kept.toList <+: text.toList
  fits : kept.utf8ByteSize ≤ room
  longest : ∀ front : String, front.toList <+: text.toList → front.utf8ByteSize ≤ room →
    front.toList <+: kept.toList

/-- Of every piece the longest start is kept that fits into what the pieces before it left. -/
inductive KeepsLongest : Nat → List String → List String → Prop
  | nil (room : Nat) : KeepsLongest room [] []
  | cons {room : Nat} {piece kept : String} {pieces keeps : List String}
      (first : LongestFit room piece kept)
      (rest : KeepsLongest (room - kept.utf8ByteSize) pieces keeps) :
      KeepsLongest room (piece :: pieces) (kept :: keeps)

theorem longestFit_fitting (room : Nat) (text : String) :
    LongestFit room text (String.ofList (fitting room text.toList)) where
  isPrefix := by
    rw [String.toList_ofList]
    exact fitting_prefix room text.toList
  fits := by
    rw [utf8ByteSize_ofList]
    exact length_encodeChars_fitting_le room text.toList
  longest front isPrefix fits := by
    rw [String.toList_ofList]
    exact isPrefix_fitting isPrefix (length_encode front ▸ fits)

/-! ## The search for the cut -/

/-- `append` as a search in the bytes of the text: the room must not be negative, the search must
not go on before the start of the text, and what is stored has to lie in the buffer. -/
def appendSearching? (s : ErrorSlot) (text : String) : Option ErrorSlot :=
  if s.length ≤ capacity - 1 then
    let bytes := encode text
    (boundaryBefore? bytes (min bytes.length s.room)).bind fun count =>
      s.putText? s.length (bytes.take count)
  else none

variable {s : ErrorSlot}

theorem WellFormed.appendSearching?_eq (h : s.WellFormed) (text : String) :
    s.appendSearching? text = some (s.append text) := by
  have room : s.length ≤ capacity - 1 := Nat.le_sub_one_of_lt h.length_lt
  rw [← h.append?_eq, append?, appendSearching?, if_pos room, if_pos room]
  simp only [encode]
  rw [boundaryBefore?_encodeChars, Option.bind_some, take_length_fitting]

/-! ## One piece -/

theorem append_length (s : ErrorSlot) (text : String) :
    (s.append text).length =
      s.length + (String.ofList (fitting s.room text.toList)).utf8ByteSize := by
  rw [utf8ByteSize_ofList]
  rfl

theorem WellFormed.take_buffer_append (h : s.WellFormed) (text : String) :
    (s.append text).buffer.take s.length = s.buffer.take s.length := by
  have front : (s.buffer.take s.length).length = s.length := h.length_content
  rw [ErrorSlot.append, ErrorSlot.putText, List.append_assoc]
  exact List.take_left' front

/-- The search for the cut of a piece leaves no room for a character of four bytes. -/
theorem room_append_le {piece : String}
    (cut : String.ofList (fitting s.room piece.toList) ≠ piece) : (s.append piece).room ≤ 3 := by
  have large : s.room < (encodeChars piece.toList).length := by
    by_contra small
    rw [fitting_eq_self (Nat.not_lt.1 small), String.ofList_toList] at cut
    exact cut rfl
  have search := min_length_le_fitting s.room piece.toList
  rw [Nat.min_eq_right (Nat.le_of_lt large)] at search
  rw [room_append]
  omega

/-! ## Messages in pieces -/

theorem room_foldl_append_le (pieces : List String) :
    (pieces.foldl append s).room ≤ s.room := by
  induction pieces generalizing s with
  | nil => exact Nat.le_refl _
  | cons piece rest ih =>
    refine Nat.le_trans ih ?_
    rw [room_append]
    exact Nat.sub_le _ _

/-- Pieces that are appended to a slot leave one longest start of each there. -/
theorem keepsLongest_foldl_append (h : s.WellFormed) (pieces : List String) :
    ∃ keeps, KeepsLongest s.room pieces keeps ∧
      (pieces.foldl append s).content = s.content ++ encode (String.join keeps) ∧
      (keeps ≠ pieces → (pieces.foldl append s).room ≤ 3) := by
  induction pieces generalizing s with
  | nil => exact ⟨[], .nil _, (List.append_nil _).symm, absurd rfl⟩
  | cons piece rest ih =>
    obtain ⟨keeps, longest, content, short⟩ := ih (h.append piece)
    have first := longestFit_fitting s.room piece
    generalize hkept : String.ofList (fitting s.room piece.toList) = kept at first
    have bytes : encodeChars (fitting s.room piece.toList) = encodeChars kept.toList := by
      rw [← hkept, String.toList_ofList]
    refine ⟨kept :: keeps, .cons first ?_, ?_, fun cut => ?_⟩
    · rwa [room_append, bytes, ← encode, length_encode] at longest
    · rw [List.foldl_cons, content, content_append h, bytes, encode_join_cons, List.append_assoc]
    · by_cases whole : kept = piece
      · exact short fun same => cut (by rw [whole, same])
      · exact Nat.le_trans (room_foldl_append_le rest) (room_append_le (hkept ▸ whole))

/-- Appending a text succeeds with every index checked, leaves the text there alone and puts the
longest start that fits behind it, with a zero byte at its end.  Of pieces that are appended to a
cleared slot one such start of each is recorded, and at most three bytes stay unused once one of
them was cut. -/
theorem append_keeps_longest (h : s.WellFormed) :
    (∀ text, s.appendSearching? text = some (s.append text) ∧
      (s.append text).buffer.take s.length = s.buffer.take s.length ∧
      (∃ kept, LongestFit s.room text kept ∧
        (s.append text).length = s.length + kept.utf8ByteSize ∧
        (s.append text).content = s.content ++ encode kept) ∧
      (s.append text).buffer[(s.append text).length]? = some 0) ∧
    ∀ pieces, ∃ keeps, KeepsLongest (capacity - 1) pieces keeps ∧
      (pieces.foldl append s.clear).content = encode (String.join keeps) ∧
      (keeps ≠ pieces → (pieces.foldl append s.clear).room ≤ 3) := by
  refine ⟨fun text => ⟨h.appendSearching?_eq text, h.take_buffer_append text, ?_, ?_⟩,
    fun pieces => keepsLongest_foldl_append h.clear pieces⟩
  · refine ⟨_, longestFit_fitting s.room text, append_length s text, ?_⟩
    rw [encode_ofList]
    exact content_append h text
  · exact (h.append text).buffer_length

/-- A slot with room for four bytes, in which the second of two characters of three bytes is cut. -/
theorem append_keeps_longest_nearly_full :
    (empty.setText longContext).WellFormed ∧
      (empty.setText longContext).appendSearching? "€€" =
        some ((empty.setText longContext).append "€€") ∧
      ∃ keeps, KeepsLongest (capacity - 1) [longContext, "€€", "é"] keeps ∧
        ([longContext, "€€", "é"].foldl append (empty.setText longContext).clear).content =
          encode (String.join keeps) := by
  have slot : (empty.setText longContext).WellFormed := .setText .empty _
  have ⟨one, pieces⟩ := append_keeps_longest slot
  obtain ⟨keeps, longest, content, -⟩ := pieces [longContext, "€€", "é"]
  exact ⟨slot, (one "€€").1, keeps, longest, content⟩

end ForeignCall.ErrorSlot
