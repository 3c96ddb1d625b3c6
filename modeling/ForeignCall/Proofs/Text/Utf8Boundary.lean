import ForeignCall.Proofs.Text.Utf8Reading
import Mathlib.Data.Nat.Find

/-!
# Where a text can be cut

Bytes that begin a character are told apart from bytes that continue one, so the places between the
characters of a text are seen from its bytes (`isBoundary_encodeChars_iff`).  The last such place
before an index is found by stepping back from there (`boundaryBefore?`).  The search never leaves
the text, takes at most three steps, and ends behind the characters that fit
(`boundaryBefore?_encodeChars`, `min_length_le_fitting`).
-/

namespace ForeignCall.Utf8

/-! ## Characters that fit -/

theorem length_encodeChars_le_of_isPrefix {front cs : List Char} (h : front <+: cs) :
    (encodeChars front).length ≤ (encodeChars cs).length := by
  obtain ⟨back, rfl⟩ := h
  rw [encodeChars_append, List.length_append]
  exact Nat.le_add_right _ _

/-- No more characters fit than those that are kept. -/
theorem isPrefix_fitting {room : Nat} {front cs : List Char} (h : front <+: cs)
    (fits : (encodeChars front).length ≤ room) : front <+: fitting room cs := by
  induction cs generalizing room front with
  | nil => exact h
  | cons c cs ih =>
    cases front with
    | nil => exact List.nil_prefix
    | cons d front =>
      obtain ⟨rfl, later⟩ := List.cons_prefix_cons.1 h
      rw [encodeChars_cons, List.length_append, String.length_utf8EncodeChar] at fits
      rw [fitting, if_pos (by omega)]
      exact List.cons_prefix_cons.2 ⟨rfl, ih later (by omega)⟩

theorem take_length_fitting (room : Nat) (cs : List Char) :
    (encodeChars cs).take (encodeChars (fitting room cs)).length =
      encodeChars (fitting room cs) := by
  obtain ⟨back, split⟩ := fitting_prefix room cs
  have bytes := encodeChars_append (fitting room cs) back
  rw [split] at bytes
  rw [bytes, List.take_left]

/-! ## Boundaries -/

/-- Whether the index is the start or the end of the bytes, or that of a byte that does not continue
a character. -/
def isBoundary (bytes : List UInt8) (i : Nat) : Bool :=
  i = 0 ||
    match bytes[i]? with
    | some b => !isTail b
    | none => i = bytes.length

/-- The last boundary at or before the index, searched for backwards; none if the search would have
to go on before the start. -/
def boundaryBefore? (bytes : List UInt8) : Nat → Option Nat
  | 0 => if isBoundary bytes 0 then some 0 else none
  | i + 1 => if isBoundary bytes (i + 1) then some (i + 1) else boundaryBefore? bytes i

/-- Of the bytes of a character all but the first continue it. -/
theorem exists_encodeChar_eq_cons (c : Char) : ∃ first rest,
    String.utf8EncodeChar c = first :: rest ∧ ¬ isTail first ∧ ∀ b ∈ rest, isTail b := by
  have spells := spellsChar_encodeChar c
  generalize String.utf8EncodeChar c = bytes, c.toNat = n at spells ⊢
  cases spells with
  | @one a low =>
    have low : a.toNat < 0x80 := UInt8.lt_iff_toNat_lt.1 low
    refine ⟨a, [], rfl, ?_, List.forall_mem_nil _⟩
    rw [isTail_iff]
    omega
  | @two a b starts _ second =>
    exact ⟨a, [b], rfl, starts.not_isTail, by simp [isTail_of_isSecond second]⟩
  | @three a b c starts _ _ second third =>
    exact ⟨a, [b, c], rfl, starts.not_isTail, by simp [isTail_of_isSecond second, third]⟩
  | @four a b c d starts _ second third fourth =>
    exact ⟨a, [b, c, d], rfl, starts.not_isTail,
      by simp [isTail_of_isSecond second, third, fourth]⟩

theorem isBoundary_zero (bytes : List UInt8) : isBoundary bytes 0 = true := rfl

theorem not_isTail_head_encodeChars (cs : List Char) :
    ∀ b ∈ (encodeChars cs).head?, ¬ isTail b := by
  cases cs with
  | nil => exact fun b hb => nomatch hb
  | cons c cs =>
    obtain ⟨first, rest, bytes, start, -⟩ := exists_encodeChar_eq_cons c
    rw [encodeChars_cons, bytes]
    rintro b ⟨⟩
    exact start

/-- Behind whole characters the boundaries are those of the bytes that follow. -/
theorem isBoundary_append {bs cs : List UInt8} (starts : ∀ b ∈ cs.head?, ¬ isTail b) {i : Nat}
    (h : bs.length ≤ i) : isBoundary (bs ++ cs) i = isBoundary cs (i - bs.length) := by
  obtain ⟨k, rfl⟩ := Nat.exists_eq_add_of_le h
  have index : bs.length + k - bs.length = k := Nat.add_sub_cancel_left _ _
  rw [isBoundary, isBoundary, List.getElem?_append_right h, index]
  cases k with
  | zero =>
    cases cs with
    | nil => simp
    | cons b cs => simp [starts b rfl]
  | succ k => simp

/-- A character has no boundary within. -/
theorem not_isBoundary_encodeChar {c : Char} {i : Nat} (pos : 0 < i) (h : i < c.utf8Size)
    (bs : List UInt8) : ¬ isBoundary (String.utf8EncodeChar c ++ bs) i := by
  obtain ⟨first, rest, bytes, -, tails⟩ := exists_encodeChar_eq_cons c
  have size := String.length_utf8EncodeChar c
  obtain ⟨k, rfl⟩ := Nat.exists_eq_add_of_lt pos
  rw [bytes, List.length_cons] at size
  have inside : 0 + k < rest.length := by omega
  have byte : (String.utf8EncodeChar c ++ bs)[0 + k + 1]? = some rest[0 + k] := by
    rw [bytes, List.cons_append, List.getElem?_cons_succ, List.getElem?_append_left inside,
      List.getElem?_eq_getElem inside]
  have tail : isTail rest[0 + k] = true := tails _ (List.getElem_mem inside)
  rw [isBoundary, byte]
  simpa using tail

/-- The places behind the first characters of a text, by its first character. -/
theorem exists_isPrefix_cons_iff {c : Char} {cs : List Char} {i : Nat} :
    (∃ front, front <+: c :: cs ∧ (encodeChars front).length = i) ↔
      i = 0 ∨ c.utf8Size ≤ i ∧
        ∃ front, front <+: cs ∧ (encodeChars front).length = i - c.utf8Size := by
  have size := String.length_utf8EncodeChar c
  constructor
  · rintro ⟨front, isPrefix, rfl⟩
    rcases List.prefix_cons_iff.1 isPrefix with rfl | ⟨front, rfl, later⟩
    · exact Or.inl rfl
    · rw [encodeChars_cons, List.length_append, size]
      exact Or.inr ⟨Nat.le_add_right _ _, front, later, (Nat.add_sub_cancel_left _ _).symm⟩
  · rintro (rfl | ⟨enough, front, later, length⟩)
    · exact ⟨[], List.nil_prefix, rfl⟩
    · refine ⟨c :: front, List.cons_prefix_cons.2 ⟨rfl, later⟩, ?_⟩
      rw [encodeChars_cons, List.length_append, size, length, Nat.add_sub_cancel' enough]

/-- The boundaries of a text are the places behind its first characters. -/
theorem isBoundary_encodeChars_iff {cs : List Char} {i : Nat} :
    isBoundary (encodeChars cs) i = true ↔
      ∃ front, front <+: cs ∧ (encodeChars front).length = i := by
  induction cs generalizing i with
  | nil =>
    cases i with
    | zero => exact iff_of_true rfl ⟨[], List.prefix_rfl, rfl⟩
    | succ i => simp [isBoundary]
  | cons c cs ih =>
    have size := String.length_utf8EncodeChar c
    rw [exists_isPrefix_cons_iff]
    rcases Nat.eq_zero_or_pos i with rfl | pos
    · exact iff_of_true (isBoundary_zero _) (Or.inl rfl)
    rcases Nat.lt_or_ge i c.utf8Size with inside | behind
    · exact iff_of_false (not_isBoundary_encodeChar pos inside _) (by omega)
    · rw [encodeChars_cons,
        isBoundary_append (not_isTail_head_encodeChars cs) (size.symm ▸ behind), ih, size]
      simp only [Nat.ne_of_gt pos, behind, false_or, true_and]

/-! ## The search -/

/-- The search ends at the start of the bytes if not before. -/
theorem boundaryBefore?_eq (bytes : List UInt8) (i : Nat) :
    boundaryBefore? bytes i = some (Nat.findGreatest (isBoundary bytes · = true) i) := by
  induction i with
  | zero => rfl
  | succ i ih =>
    rw [boundaryBefore?, Nat.findGreatest_succ, ih]
    split <;> rfl

/-- From the room or the end of the text the search goes back to the end of the characters that
fit. -/
theorem boundaryBefore?_encodeChars (room : Nat) (cs : List Char) :
    boundaryBefore? (encodeChars cs) (min (encodeChars cs).length room) =
      some (encodeChars (fitting room cs)).length := by
  have starts : fitting room cs <+: cs := fitting_prefix room cs
  rw [boundaryBefore?_eq, Option.some_inj, Nat.findGreatest_eq_iff]
  refine ⟨?_, fun _ => isBoundary_encodeChars_iff.2 ⟨_, starts, rfl⟩, ?_⟩
  · exact Nat.le_min.2 ⟨length_encodeChars_le_of_isPrefix starts,
      length_encodeChars_fitting_le room cs⟩
  · intro n larger bound boundary
    obtain ⟨front, isPrefix, rfl⟩ := isBoundary_encodeChars_iff.1 boundary
    have kept := isPrefix_fitting isPrefix (Nat.le_min.1 bound).2
    exact Nat.not_lt.2 (length_encodeChars_le_of_isPrefix kept) larger

/-- The search takes at most three steps. -/
theorem min_length_le_fitting (room : Nat) (cs : List Char) :
    min (encodeChars cs).length room ≤ (encodeChars (fitting room cs)).length + 3 := by
  rcases fitting_eq_self_or_cut room cs with whole | ⟨c, rest, -, large⟩
  · rw [whole]
    omega
  · have := c.utf8Size_le_four
    omega

end ForeignCall.Utf8
