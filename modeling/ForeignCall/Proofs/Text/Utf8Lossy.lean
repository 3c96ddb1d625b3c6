import ForeignCall.Proofs.Text.Utf8Reading
import Mathlib.Algebra.BigOperators.Group.List.Basic

/-!
# Reading bytes that are no text

Bytes that are no text are read all the same: what spells a character is read as this character, and
each longest part of which no character can be made is read as a replacement (`Reads`).  Such a part
is the start of a character that does not go on, or a byte that starts none (`IsBroken`), and has at
most three bytes.  A replacement has three bytes itself, so a text is longer than the bytes it was
read from by what the broken parts were shorter than that (`Reads.length_encodeChars`).
-/

namespace ForeignCall.Utf8

/-! ## Broken parts -/

/-- The bytes are the first ones of a character, or all of them. -/
def Begins (bs : List UInt8) (c : Char) : Prop := bs <+: String.utf8EncodeChar c

/-- Where `rest` follows it, `part` is a byte that begins no character, or the longest start of a
character that does not go on. -/
inductive IsBroken : (part rest : List UInt8) → Prop
  | stray {a : UInt8} {rest : List UInt8} (none : ∀ c, ¬ Begins [a] c) : IsBroken [a] rest
  | unfinished {part rest : List UInt8} {c : Char} (nonempty : part ≠ []) (begins : Begins part c)
      (short : part ≠ String.utf8EncodeChar c)
      (stops : ∀ b ∈ rest.head?, ∀ c, ¬ Begins (part ++ [b]) c) : IsBroken part rest

/-- The bytes are read as the characters; the parts in `broken` are read as replacements. -/
inductive Reads : List UInt8 → List Char → (broken : List (List UInt8)) → Prop
  | nil : Reads [] [] []
  | char (c : Char) {bs : List UInt8} {cs : List Char} {broken : List (List UInt8)}
      (rest : Reads bs cs broken) : Reads (String.utf8EncodeChar c ++ bs) (c :: cs) broken
  | broken {part bs : List UInt8} {cs : List Char} {broken : List (List UInt8)}
      (isBroken : IsBroken part bs) (rest : Reads bs cs broken) :
      Reads (part ++ bs) (replacement :: cs) (part :: broken)

theorem IsBroken.length_pos {part rest : List UInt8} (h : IsBroken part rest) :
    0 < part.length := by
  cases h with
  | stray _ => exact Nat.one_pos
  | unfinished nonempty _ _ _ => exact List.length_pos_of_ne_nil nonempty

theorem IsBroken.length_le {part rest : List UInt8} (h : IsBroken part rest) :
    part.length ≤ 3 := by
  cases h with
  | stray _ => exact Nat.le_of_ble_eq_true rfl
  | @unfinished _ _ c _ begins short _ =>
    have size := String.length_utf8EncodeChar c
    have := c.utf8Size_le_four
    have fewer := mt begins.eq_of_length short
    have := begins.length_le
    omega

/-! ## What is read is longer -/

variable {bs : List UInt8} {cs : List Char} {broken : List (List UInt8)}

/-- Every broken part is exchanged for three bytes. -/
theorem Reads.length_encodeChars (h : Reads bs cs broken) :
    (encodeChars cs).length + broken.flatten.length = bs.length + 3 * broken.length := by
  induction h with
  | nil => rfl
  | char c _ ih =>
    rw [encodeChars_cons, List.length_append, List.length_append]
    omega
  | broken _ _ ih =>
    have three : (String.utf8EncodeChar replacement).length = 3 := by decide
    rw [encodeChars_cons, List.length_append, List.length_append, List.flatten_cons,
      List.length_append, List.length_cons, three]
    omega

theorem Reads.length_of_mem (h : Reads bs cs broken) :
    ∀ part ∈ broken, 0 < part.length ∧ part.length ≤ 3 := by
  induction h with
  | nil => exact List.forall_mem_nil _
  | char _ _ ih => exact ih
  | broken isBroken _ ih =>
    exact List.forall_mem_cons.2 ⟨⟨isBroken.length_pos, isBroken.length_le⟩, ih⟩

theorem Reads.length_broken_le (h : Reads bs cs broken) :
    broken.length ≤ broken.flatten.length := by
  rw [List.length_flatten, ← List.length_map List.length]
  refine List.length_le_sum_of_one_le _ fun n hn => ?_
  obtain ⟨part, member, rfl⟩ := List.mem_map.1 hn
  exact (h.length_of_mem part member).1

theorem Reads.length_flatten_le (h : Reads bs cs broken) :
    broken.flatten.length ≤ bs.length := by
  induction h with
  | nil => exact Nat.le_refl 0
  | char _ _ ih =>
    rw [List.length_append]
    omega
  | broken _ _ ih =>
    rw [List.flatten_cons, List.length_append, List.length_append]
    omega

/-- What is read has at most three bytes for each byte there was. -/
theorem Reads.length_encodeChars_le (h : Reads bs cs broken) :
    (encodeChars cs).length ≤ 3 * bs.length := by
  have := h.length_encodeChars
  have := h.length_broken_le
  have := h.length_flatten_le
  omega

/-! ## Which bytes are part of a character -/

theorem lead_eq {a : UInt8} {n mark : Nat} (h : n + mark = a.toNat) : lead n mark = a := by
  rw [lead, h, UInt8.ofNat_toNat]

theorem tail_eq {b : UInt8} (hb : isTail b) {n : Nat} (h : n % 64 = tailBits b) : tail n = b := by
  have bounds := (isTail_iff b).1 hb
  have digits : n % 64 + 0x80 = b.toNat := by
    rw [h, tailBits]
    omega
  rw [tail, digits, UInt8.ofNat_toNat]

theorem encodeChar_ofNat_cases {n : Nat} (valid : n.isValidChar) :
    n < 0x80 ∧ String.utf8EncodeChar (Char.ofNat n) = [UInt8.ofNat n] ∨
    (0x80 ≤ n ∧ n < 0x800) ∧
      String.utf8EncodeChar (Char.ofNat n) = [lead (n / 64) 0xc0, tail n] ∨
    (0x800 ≤ n ∧ n < 0x10000 ∧ ¬ (0xd800 ≤ n ∧ n < 0xe000)) ∧
      String.utf8EncodeChar (Char.ofNat n) = [lead (n / 4096) 0xe0, tail (n / 64), tail n] ∨
    (0x10000 ≤ n ∧ n < 0x110000) ∧
      String.utf8EncodeChar (Char.ofNat n) =
        [lead (n / 262144) 0xf0, tail (n / 4096), tail (n / 64), tail n] := by
  have cases := encodeChar_cases (Char.ofNat n)
  rwa [toNat_ofNat valid] at cases

section Numbers

variable {a b c d : UInt8}

theorem encodeChar_ofNat_one (low : a < 0x80) :
    String.utf8EncodeChar (Char.ofNat a.toNat) = [a] := by
  have low : a.toNat < 0x80 := UInt8.lt_iff_toNat_lt.1 low
  have cases := encodeChar_ofNat_cases (n := a.toNat) (Or.inl (by omega))
  obtain ⟨-, bytes⟩ := cases.resolve_right (by omega)
  rw [bytes, UInt8.ofNat_toNat]

theorem encodeChar_ofNat_two (starts : Starts a) (short : a < 0xe0) (second : isSecond a b) :
    String.utf8EncodeChar (Char.ofNat (a.toNat % 32 * 64 + tailBits b)) = [a, b] := by
  have first := starts.toNat_bounds
  have short : a.toNat < 0xe0 := UInt8.lt_iff_toNat_lt.1 short
  have digit : tailBits b < 64 := Nat.mod_lt _ (by decide)
  generalize number : a.toNat % 32 * 64 + tailBits b = n
  have cases := encodeChar_ofNat_cases (n := n) (Or.inl (by omega))
  obtain ⟨-, bytes⟩ := (cases.resolve_left (by omega)).resolve_right (by omega)
  rw [bytes, lead_eq (a := a) (by omega), tail_eq (isTail_of_isSecond second) (by omega)]

theorem encodeChar_ofNat_three (long : ¬ a < 0xe0) (short : a < 0xf0) (second : isSecond a b)
    (third : isTail c) :
    String.utf8EncodeChar
        (Char.ofNat (a.toNat % 16 * 4096 + tailBits b * 64 + tailBits c)) = [a, b, c] := by
  have long : ¬ a.toNat < 0xe0 := fun short => long (UInt8.lt_iff_toNat_lt.2 short)
  have short : a.toNat < 0xf0 := UInt8.lt_iff_toNat_lt.1 short
  have bounds := (isSecond_iff a b).1 second
  have digit : tailBits b = b.toNat % 64 := rfl
  have digit' : tailBits c < 64 := Nat.mod_lt _ (by decide)
  generalize number : a.toNat % 16 * 4096 + tailBits b * 64 + tailBits c = n
  have range : 0x800 ≤ n ∧ n < 0x10000 ∧ ¬ (0xd800 ≤ n ∧ n < 0xe000) := by
    split_ifs at bounds <;> omega
  have valid : n.isValidChar := by
    show n < 0xd800 ∨ 0xdfff < n ∧ n < 0x110000
    omega
  obtain ⟨-, bytes⟩ := (((encodeChar_ofNat_cases valid).resolve_left (by omega)).resolve_left
    (by omega)).resolve_right (by omega)
  rw [bytes, lead_eq (a := a) (by omega), tail_eq (isTail_of_isSecond second) (by omega),
    tail_eq third (by omega)]

theorem encodeChar_ofNat_four (starts : Starts a) (long : ¬ a < 0xf0) (second : isSecond a b)
    (third : isTail c) (fourth : isTail d) :
    String.utf8EncodeChar
        (Char.ofNat (a.toNat % 8 * 262144 + tailBits b * 4096 + tailBits c * 64 + tailBits d)) =
      [a, b, c, d] := by
  have first := starts.toNat_bounds
  have long : ¬ a.toNat < 0xf0 := fun short => long (UInt8.lt_iff_toNat_lt.2 short)
  have bounds := (isSecond_iff a b).1 second
  have digit : tailBits b = b.toNat % 64 := rfl
  have digit' : tailBits c < 64 := Nat.mod_lt _ (by decide)
  have digit'' : tailBits d < 64 := Nat.mod_lt _ (by decide)
  generalize number :
    a.toNat % 8 * 262144 + tailBits b * 4096 + tailBits c * 64 + tailBits d = n
  have range : 0x10000 ≤ n ∧ n < 0x110000 := by
    split_ifs at bounds <;> omega
  have cases := encodeChar_ofNat_cases (n := n) (Or.inr ⟨by omega, range.2⟩)
  obtain ⟨-, bytes⟩ :=
    ((cases.resolve_left (by omega)).resolve_left (by omega)).resolve_left (by omega)
  rw [bytes, lead_eq (a := a) (by omega), tail_eq (isTail_of_isSecond second) (by omega),
    tail_eq third (by omega), tail_eq fourth (by omega)]

end Numbers

/-- The bytes that spell a character are those of the character. -/
theorem SpellsChar.encodeChar_ofNat {n : Nat} (h : SpellsChar bs n) :
    String.utf8EncodeChar (Char.ofNat n) = bs := by
  cases h with
  | one low => exact encodeChar_ofNat_one low
  | two starts short second => exact encodeChar_ofNat_two starts short second
  | three _ long short second third => exact encodeChar_ofNat_three long short second third
  | four starts long second third fourth =>
    exact encodeChar_ofNat_four starts long second third fourth

/-! ## Which parts are broken -/

theorem Begins.exists_spells {bs : List UInt8} {c : Char} (h : Begins bs c) :
    ∃ more, SpellsChar (bs ++ more) c.toNat := by
  obtain ⟨more, bytes⟩ := h
  exact ⟨more, bytes ▸ spellsChar_encodeChar c⟩

section Begins

variable {a b c d : UInt8} {char : Char}

theorem Begins.first (h : Begins [a] char) : a < 0x80 ∨ Starts a := by
  obtain ⟨more, spells⟩ := h.exists_spells
  generalize char.toNat = n at spells
  cases spells with
  | one low => exact Or.inl low
  | two starts => exact Or.inr starts
  | three starts => exact Or.inr starts
  | four starts => exact Or.inr starts

theorem Begins.second (h : Begins [a, b] char) : isSecond a b := by
  obtain ⟨more, spells⟩ := h.exists_spells
  generalize char.toNat = n at spells
  cases spells with
  | two _ _ second => exact second
  | three _ _ _ second => exact second
  | four _ _ second => exact second

theorem Begins.third (h : Begins [a, b, c] char) : isTail c := by
  obtain ⟨more, spells⟩ := h.exists_spells
  generalize char.toNat = n at spells
  cases spells with
  | three _ _ _ _ third => exact third
  | four _ _ _ third => exact third

theorem Begins.fourth (h : Begins [a, b, c, d] char) : isTail d := by
  obtain ⟨more, spells⟩ := h.exists_spells
  generalize char.toNat = n at spells
  cases spells with
  | four _ _ _ _ fourth => exact fourth

theorem exists_isSecond (a : UInt8) : ∃ b, isSecond a b := by
  refine ⟨if a = 0xe0 then 0xa0 else if a = 0xf0 then 0x90 else 0x80, ?_⟩
  unfold isSecond
  split_ifs <;> decide

end Begins

/-- Bytes that could go on to spell a character are broken if they do not. -/
theorem isBroken_of_spells {part rest : List UInt8} {n : Nat} (more : List UInt8)
    (spells : SpellsChar (part ++ more) n) (nonempty : part ≠ []) (unfinished : more ≠ [])
    (stops : ∀ b ∈ rest.head?, ∀ c, ¬ Begins (part ++ [b]) c) : IsBroken part rest := by
  have bytes := spells.encodeChar_ofNat
  refine .unfinished nonempty ⟨more, bytes.symm⟩ (fun whole => unfinished ?_) stops
  rw [← whole] at bytes
  exact List.self_eq_append_right.1 bytes

section Parts

variable {a b c : UInt8} {rest : List UInt8}

theorem isBroken_three (starts : Starts a) (long : ¬ a < 0xf0) (second : isSecond a b)
    (third : isTail c) (stops : ∀ d ∈ rest.head?, ¬ isTail d) : IsBroken [a, b, c] rest :=
  isBroken_of_spells [0x80] (.four starts long second third (by decide)) (by simp) (by simp)
    fun d hd _ begins => stops d hd begins.fourth

theorem isBroken_two (starts : Starts a) (long : ¬ a < 0xe0) (second : isSecond a b)
    (stops : ∀ c ∈ rest.head?, ¬ isTail c) : IsBroken [a, b] rest := by
  have stops : ∀ c ∈ rest.head?, ∀ char, ¬ Begins ([a, b] ++ [c]) char :=
    fun c hc _ begins => stops c hc begins.third
  by_cases short : a < 0xf0
  · exact isBroken_of_spells [0x80] (.three starts long short second (by decide)) (by simp)
      (by simp) stops
  · exact isBroken_of_spells [0x80, 0x80] (.four starts short second (by decide) (by decide))
      (by simp) (by simp) stops

theorem isBroken_one (starts : Starts a) (stops : ∀ b ∈ rest.head?, ¬ isSecond a b) :
    IsBroken [a] rest := by
  have stops : ∀ b ∈ rest.head?, ∀ char, ¬ Begins ([a] ++ [b]) char :=
    fun b hb _ begins => stops b hb begins.second
  obtain ⟨b, second⟩ := exists_isSecond a
  by_cases two : a < 0xe0
  · exact isBroken_of_spells [b] (.two starts two second) (by simp) (by simp) stops
  by_cases three : a < 0xf0
  · exact isBroken_of_spells [b, 0x80] (.three starts two three second (by decide)) (by simp)
      (by simp) stops
  · exact isBroken_of_spells [b, 0x80, 0x80] (.four starts three second (by decide) (by decide))
      (by simp) (by simp) stops

end Parts

/-! ## What is read -/

section Steps

variable {part bs : List UInt8} {cs : List Char}

theorem exists_reads_char {n : Nat} (h : SpellsChar part n) :
    (∃ broken, Reads bs cs broken) → ∃ broken, Reads (part ++ bs) (Char.ofNat n :: cs) broken := by
  rintro ⟨broken, rest⟩
  have reads := Reads.char (Char.ofNat n) rest
  rw [h.encodeChar_ofNat] at reads
  exact ⟨broken, reads⟩

theorem exists_reads_broken (h : IsBroken part bs) :
    (∃ broken, Reads bs cs broken) →
      ∃ broken, Reads (part ++ bs) (replacement :: cs) broken :=
  fun ⟨broken, rest⟩ => ⟨part :: broken, .broken h rest⟩

end Steps

/-- Bytes are read as `decodeChars` says. -/
theorem exists_reads (bs : List UInt8) : ∃ broken, Reads bs (decodeChars bs) broken := by
  fun_induction decodeChars bs with
  | case1 => exact ⟨[], .nil⟩
  | case2 a bs low ih => exact exists_reads_char (.one low) ih
  | case3 a low inRange =>
    exact exists_reads_broken (isBroken_one ⟨low, inRange⟩ (by simp)) ⟨[], .nil⟩
  | case4 a low inRange b bs notSecond ih =>
    exact exists_reads_broken (isBroken_one ⟨low, inRange⟩ (by simpa using notSecond)) ih
  | case5 a low inRange b bs second short ih =>
    exact exists_reads_char (.two ⟨low, inRange⟩ short (by simpa using second)) ih
  | case6 a low inRange b second long =>
    exact exists_reads_broken (isBroken_two ⟨low, inRange⟩ long (by simpa using second) (by simp))
      ⟨[], .nil⟩
  | case7 a low inRange b second long c bs notTail ih =>
    exact exists_reads_broken
      (isBroken_two ⟨low, inRange⟩ long (by simpa using second) (by simpa using notTail)) ih
  | case8 a low inRange b second long c bs third short ih =>
    exact exists_reads_char
      (.three ⟨low, inRange⟩ long short (by simpa using second) (by simpa using third)) ih
  | case9 a low inRange b second _ c third long =>
    exact exists_reads_broken
      (isBroken_three ⟨low, inRange⟩ long (by simpa using second) (by simpa using third) (by simp))
      ⟨[], .nil⟩
  | case10 a low inRange b second _ c third long d bs notTail ih =>
    exact exists_reads_broken
      (isBroken_three ⟨low, inRange⟩ long (by simpa using second) (by simpa using third)
        (by simpa using notTail)) ih
  | case11 a low inRange b second _ c third long d bs fourth ih =>
    exact exists_reads_char
      (.four ⟨low, inRange⟩ long (by simpa using second) (by simpa using third)
        (by simpa using fourth)) ih
  | case12 a bs low outside ih =>
    refine exists_reads_broken (.stray fun char begins => ?_) ih
    rcases begins.first with isLow | starts
    · exact low isLow
    · exact outside starts.inRange

end ForeignCall.Utf8
