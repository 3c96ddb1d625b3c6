import ForeignCall.Text.Utf8
import Mathlib.Data.List.Basic

/-!
# Characters that fit

`Utf8.fitting` keeps all characters if there is room for them, and else it stops before one that is
too large (`fitting_eq_self_or_cut`).  No character's bytes begin with those of another
(`eq_of_encodeChar_prefix`), so a text cannot go on with one character where another was left out.
-/

namespace ForeignCall.Utf8

theorem length_encodeChars_replicate (n : Nat) (c : Char) :
    (encodeChars (List.replicate n c)).length = n * c.utf8Size := by
  induction n with
  | zero => rw [Nat.zero_mul]; rfl
  | succ n ih =>
    rw [List.replicate_succ, encodeChars_cons, List.length_append, String.length_utf8EncodeChar,
      ih, Nat.succ_mul, Nat.add_comm]

theorem fitting_eq_self {room : Nat} {cs : List Char} (h : (encodeChars cs).length ≤ room) :
    fitting room cs = cs := by
  induction cs generalizing room with
  | nil => rfl
  | cons c cs ih =>
    rw [encodeChars_cons, List.length_append, String.length_utf8EncodeChar] at h
    rw [fitting, if_pos (by omega), ih (by omega)]

/-- What is left out starts with a character that is larger than what is left of the room. -/
theorem fitting_eq_self_or_cut (room : Nat) (cs : List Char) :
    fitting room cs = cs ∨ ∃ c rest, cs = fitting room cs ++ c :: rest ∧
      room - (encodeChars (fitting room cs)).length < c.utf8Size := by
  induction cs generalizing room with
  | nil => exact Or.inl rfl
  | cons c cs ih =>
    rw [fitting]
    split
    · rcases ih (room - c.utf8Size) with whole | ⟨d, rest, split, large⟩
      · exact Or.inl (congrArg (c :: ·) whole)
      · refine Or.inr ⟨d, rest, congrArg (c :: ·) split, ?_⟩
        rw [encodeChars_cons, List.length_append, String.length_utf8EncodeChar]
        omega
    · refine Or.inr ⟨c, cs, rfl, ?_⟩
      show room - 0 < c.utf8Size
      omega

theorem fitting_eq_nil_iff {room : Nat} {cs : List Char} :
    fitting room cs = [] ↔ ∀ c ∈ cs.head?, room < c.utf8Size := by
  cases cs with
  | nil => simp [fitting]
  | cons c cs => simp [fitting]

/-- The bytes of a character tell which one it is, whatever follows them. -/
theorem eq_of_encodeChar_prefix {c d : Char} {bs : List UInt8}
    (h : String.utf8EncodeChar d <+: String.utf8EncodeChar c ++ bs) : d = c := by
  obtain ⟨rest, h⟩ := h
  have bytes := congrArg List.toByteArray h
  rw [List.toByteArray_append, List.toByteArray_append] at bytes
  have first := congrArg (ByteArray.utf8DecodeChar? · 0) bytes
  simp only [ByteArray.utf8DecodeChar?_utf8EncodeChar_append, Option.some.injEq] at first
  exact first

end ForeignCall.Utf8
