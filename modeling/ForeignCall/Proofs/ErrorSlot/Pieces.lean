import ForeignCall.ErrorSlot.SystemMessage
import ForeignCall.Proofs.Text.Utf8

/-!
# Messages that are appended in pieces

A message that is recorded in pieces is cut piece by piece: of every piece the characters are kept
that fit into what the pieces before it left (`keptChars`).  So a character that does not fit is
left out and a smaller one behind it may still be kept.  What is recorded is a prefix of the message
exactly if nothing behind the first cut fits (`CutAtEnd`, `isPrefix_keptChars_iff`), and at most its
last three bytes are not (`keptChars_eq_append`).
-/

namespace ForeignCall.ErrorSlot

open Utf8

/-! ## What is kept -/

/-- The characters that are kept of the pieces where there is room for so many bytes. -/
def keptChars (room : Nat) : List String → List Char
  | [] => []
  | piece :: rest =>
    let kept := fitting room piece.toList
    kept ++ keptChars (room - (encodeChars kept).length) rest

/-- Every piece is empty or starts with a character that is too large for the room. -/
def NothingFits (room : Nat) (pieces : List String) : Prop :=
  ∀ piece ∈ pieces, ∀ c ∈ piece.toList.head?, room < c.utf8Size

instance (room : Nat) (pieces : List String) : Decidable (NothingFits room pieces) :=
  -- An instance that is searched for may try all characters there are.
  have (piece : String) : Decidable (∀ c ∈ piece.toList.head?, room < c.utf8Size) :=
    Option.decidableForallMem _
  inferInstanceAs (Decidable (∀ piece ∈ pieces, ∀ c ∈ piece.toList.head?, room < c.utf8Size))

/-- Of the pieces behind the first that is cut nothing is kept. -/
def CutAtEnd (room : Nat) : List String → Prop
  | [] => True
  | piece :: rest =>
    let kept := fitting room piece.toList
    let left := room - (encodeChars kept).length
    if kept = piece.toList then CutAtEnd left rest else NothingFits left rest

instance decidableCutAtEnd : (room : Nat) → (pieces : List String) →
    Decidable (CutAtEnd room pieces)
  | _, [] => .isTrue trivial
  | room, piece :: rest =>
    have := decidableCutAtEnd (room - (encodeChars (fitting room piece.toList)).length) rest
    inferInstanceAs (Decidable
      (if fitting room piece.toList = piece.toList then CutAtEnd _ rest else NothingFits _ rest))

theorem length_encodeChars_keptChars_le (room : Nat) (pieces : List String) :
    (encodeChars (keptChars room pieces)).length ≤ room := by
  induction pieces generalizing room with
  | nil => exact Nat.zero_le _
  | cons piece rest ih =>
    have first := length_encodeChars_fitting_le room piece.toList
    have later := ih (room - (encodeChars (fitting room piece.toList)).length)
    rw [keptChars, encodeChars_append, List.length_append]
    omega

theorem keptChars_eq_nil_iff {room : Nat} {pieces : List String} :
    keptChars room pieces = [] ↔ NothingFits room pieces := by
  unfold NothingFits
  induction pieces with
  | nil => simp [keptChars]
  | cons piece rest ih =>
    rw [keptChars, List.append_eq_nil_iff, List.forall_mem_cons, ← fitting_eq_nil_iff, ← ih]
    refine and_congr_right fun none => ?_
    rw [none, encodeChars_nil, List.length_nil, Nat.sub_zero]

theorem encode_join_cons (piece : String) (rest : List String) :
    encode (String.join (piece :: rest)) =
      encodeChars piece.toList ++ encode (String.join rest) := by
  rw [encode, String.join_cons, String.toList_append, encodeChars_append, encode]

/-- Characters that fit where `c` does not are no part of `c`. -/
theorem isPrefix_cut_iff {room : Nat} {c : Char} (large : room < c.utf8Size) {cs : List Char}
    (fits : (encodeChars cs).length ≤ room) (bs : List UInt8) :
    encodeChars cs <+: String.utf8EncodeChar c ++ bs ↔ cs = [] := by
  constructor
  · intro h
    cases cs with
    | nil => rfl
    | cons d ds =>
      rw [encodeChars_cons] at h fits
      have same := eq_of_encodeChar_prefix ((List.prefix_append _ _).trans h)
      rw [List.length_append, String.length_utf8EncodeChar, same] at fits
      omega
  · rintro rfl
    exact List.nil_prefix

/-- A piece is kept whole, or its bytes go on with a character that is too large. -/
theorem fitting_whole_or_cut (room : Nat) (piece : String) :
    fitting room piece.toList = piece.toList ∨
      fitting room piece.toList ≠ piece.toList ∧ ∃ c bs,
        encodeChars piece.toList =
          encodeChars (fitting room piece.toList) ++ (String.utf8EncodeChar c ++ bs) ∧
        room - (encodeChars (fitting room piece.toList)).length < c.utf8Size := by
  rcases fitting_eq_self_or_cut room piece.toList with whole | ⟨c, dropped, split, large⟩
  · exact Or.inl whole
  · refine Or.inr ⟨fun whole => ?_, c, encodeChars dropped, ?_, large⟩
    · rw [whole] at split
      exact List.cons_ne_nil c dropped (List.self_eq_append_right.1 split)
    · conv_lhs => rw [split]
      rw [encodeChars_append, encodeChars_cons]

/-- What is kept is a prefix of the message exactly if nothing is kept behind the first cut. -/
theorem isPrefix_keptChars_iff (room : Nat) (pieces : List String) :
    encodeChars (keptChars room pieces) <+: encode (String.join pieces) ↔ CutAtEnd room pieces := by
  induction pieces generalizing room with
  | nil => simp [keptChars, CutAtEnd]
  | cons piece rest ih =>
    rw [keptChars, CutAtEnd, encode_join_cons, encodeChars_append]
    rcases fitting_whole_or_cut room piece with whole | ⟨cut, c, bs, bytes, large⟩
    · rw [if_pos whole, whole, List.prefix_append_right_inj]
      exact ih _
    · have fits := length_encodeChars_keptChars_le
        (room - (encodeChars (fitting room piece.toList)).length) rest
      rw [if_neg cut, ← keptChars_eq_nil_iff, bytes, List.append_assoc, List.append_assoc,
        List.prefix_append_right_inj]
      exact isPrefix_cut_iff large fits _

/-- What is kept behind the first cut is shorter than a character. -/
theorem keptChars_eq_append (room : Nat) (pieces : List String) :
    ∃ front back, encodeChars (keptChars room pieces) = front ++ back ∧
      front <+: encode (String.join pieces) ∧ back.length ≤ 3 := by
  induction pieces generalizing room with
  | nil => exact ⟨[], [], rfl, List.nil_prefix, Nat.zero_le 3⟩
  | cons piece rest ih =>
    rw [keptChars, encode_join_cons, encodeChars_append]
    rcases fitting_whole_or_cut room piece with whole | ⟨-, c, bs, bytes, large⟩
    · rw [whole]
      obtain ⟨front, back, split, isPrefix, short⟩ :=
        ih (room - (encodeChars piece.toList).length)
      refine ⟨encodeChars piece.toList ++ front, back, ?_, ?_, short⟩
      · rw [split, List.append_assoc]
      · exact (List.prefix_append_right_inj _).2 isPrefix
    · refine ⟨_, _, rfl, ?_, ?_⟩
      · rw [bytes, List.append_assoc]
        exact List.prefix_append _ _
      · have fits := length_encodeChars_keptChars_le
          (room - (encodeChars (fitting room piece.toList)).length) rest
        have := c.utf8Size_le_four
        omega

/-- A message that fits is kept whole. -/
theorem keptChars_eq_of_length_le {room : Nat} {pieces : List String}
    (h : (encode (String.join pieces)).length ≤ room) :
    keptChars room pieces = (String.join pieces).toList := by
  induction pieces generalizing room with
  | nil => rfl
  | cons piece rest ih =>
    rw [encode_join_cons, List.length_append] at h
    have whole : fitting room piece.toList = piece.toList := fitting_eq_self (by omega)
    rw [keptChars, whole, ih (by omega), String.join_cons, String.toList_append]

theorem cutAtEnd_of_length_le {room : Nat} {pieces : List String}
    (h : (encode (String.join pieces)).length ≤ room) : CutAtEnd room pieces := by
  rw [← isPrefix_keptChars_iff, keptChars_eq_of_length_le h]
  exact List.prefix_rfl

/-! ## What is recorded -/

variable {s : ErrorSlot}

theorem room_append (s : ErrorSlot) (piece : String) :
    (s.append piece).room = s.room - (encodeChars (fitting s.room piece.toList)).length := by
  show capacity - 1 - (s.length + _) = capacity - 1 - s.length - _
  exact Nat.sub_add_eq _ _ _

theorem content_foldl_append (h : s.WellFormed) (pieces : List String) :
    (pieces.foldl append s).content = s.content ++ encodeChars (keptChars s.room pieces) := by
  induction pieces generalizing s with
  | nil => exact (List.append_nil _).symm
  | cons piece rest ih =>
    rw [List.foldl_cons, ih (h.append piece), content_append h, room_append, keptChars,
      encodeChars_append, List.append_assoc]

theorem content_setPieces (h : s.WellFormed) (pieces : List String) :
    (s.setPieces pieces).content = encodeChars (keptChars (capacity - 1) pieces) := by
  rw [setPieces, content_foldl_append h.clear, content_clear, List.nil_append]
  rfl

theorem setSystemMessage_of_ne {code : Nat} (h : code ≠ 0) (context : String)
    (units : Option (List UInt16)) :
    s.setSystemMessage context code units = s.setPieces (systemPieces context code units) :=
  if_neg h

/-- What is recorded of a message is a prefix of it exactly if nothing behind the first cut is
small enough for the rest of the room, and always so up to its last three bytes. -/
theorem content_isPrefix_iff (h : s.WellFormed) :
    (∀ pieces : List String,
      (s.setPieces pieces).content <+: encode (String.join pieces) ↔
        CutAtEnd (capacity - 1) pieces) ∧
    (∀ (context : String) (code : Nat) (units : Option (List UInt16)), code ≠ 0 →
      ((s.setSystemMessage context code units).content <+:
          encode (systemMessage context code units) ↔
        CutAtEnd (capacity - 1) (systemPieces context code units))) ∧
    ∀ pieces : List String, ∃ front back, (s.setPieces pieces).content = front ++ back ∧
      front <+: encode (String.join pieces) ∧ back.length ≤ 3 := by
  refine ⟨fun pieces => ?_, fun context code units hcode => ?_, fun pieces => ?_⟩
  · rw [content_setPieces h]
    exact isPrefix_keptChars_iff _ _
  · rw [setSystemMessage_of_ne hcode, content_setPieces h, ← join_systemPieces context units hcode]
    exact isPrefix_keptChars_iff _ _
  · rw [content_setPieces h]
    exact keptChars_eq_append _ _

theorem content_isPrefix_iff_short :
    empty.WellFormed ∧ (5 : Nat) ≠ 0 ∧
      (empty.setSystemMessage "open" 5 (some [0x6e, 0x6f, 0x0d, 0x0a])).content <+:
        encode (systemMessage "open" 5 (some [0x6e, 0x6f, 0x0d, 0x0a])) :=
  ⟨.empty, by decide, ((content_isPrefix_iff .empty).2.1 "open" 5 _ (by decide)).2
    (cutAtEnd_of_length_le (by decide))⟩

/-- A context that leaves room for two bytes of the text. -/
def longContext : String := String.ofList (List.replicate 507 'a')

theorem length_encode_longContext : (encodeChars longContext.toList).length = 507 := by
  unfold longContext
  have one : 'a'.utf8Size = 1 := rfl
  rw [String.toList_ofList, length_encodeChars_replicate, one]

/-- The first character of the text needs three bytes and is left out; the second one needs one byte
and is kept. -/
theorem middle_character_left_out :
    ¬ (empty.setSystemMessage longContext 1 (some [0x20ac, 0x41])).content <+:
      encode (systemMessage longContext 1 (some [0x20ac, 0x41])) := by
  have bytes := length_encode_longContext
  have context : fitting 511 longContext.toList = longContext.toList :=
    fitting_eq_self (by rw [bytes]; decide)
  have pieces : systemPieces longContext 1 (some [0x20ac, 0x41]) =
      [longContext, ": ", "€", "A"] := rfl
  rw [setSystemMessage_of_ne (by decide), content_setPieces .empty,
    ← join_systemPieces _ _ (by decide), isPrefix_keptChars_iff, pieces]
  show ¬ CutAtEnd 511 [longContext, ": ", "€", "A"]
  rw [CutAtEnd]
  simp only [context, bytes, if_true]
  decide

end ForeignCall.ErrorSlot
