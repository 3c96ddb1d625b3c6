import ForeignCall.Proofs.Text.Utf8

/-!
# Reading UTF-8 back

Reading the bytes of a text gives the text (`decodeLossy_encode`): the bytes of a character spell it
(`SpellsChar`), so they are read as this character and nothing of what follows them is looked at
(`decodeChars_encodeChar_append`).  The only character with a zero byte is the character zero
(`zero_mem_encodeChar_iff`).
-/

namespace ForeignCall.Utf8

/-! ## The bytes of a character -/

/-- The first byte of a character that has more than one: the digits and a mark for the length. -/
def lead (n mark : Nat) : UInt8 := UInt8.ofNat (n + mark)

/-- The byte that continues a character with these digits. -/
def tail (n : Nat) : UInt8 := UInt8.ofNat (n % 64 + 0x80)

theorem toNat_lead {n mark : Nat} (h : n + mark < 256) : (lead n mark).toNat = n + mark :=
  Nat.mod_eq_of_lt h

theorem toNat_tail (n : Nat) : (tail n).toNat = n % 64 + 0x80 := by
  have := Nat.mod_lt n (by decide : 0 < 64)
  exact Nat.mod_eq_of_lt (by omega)

theorem isTail_iff (b : UInt8) : isTail b = true ↔ 0x80 ≤ b.toNat ∧ b.toNat ≤ 0xbf := by
  simp [isTail, UInt8.le_iff_toNat_le]

theorem isTail_tail (n : Nat) : isTail (tail n) = true := by
  have := Nat.mod_lt n (by decide : 0 < 64)
  rw [isTail_iff, toNat_tail]
  omega

theorem tailBits_tail (n : Nat) : tailBits (tail n) = n % 64 := by
  rw [tailBits, toNat_tail]
  omega

/-- The bounds of the second byte depend on the first. -/
theorem isSecond_iff (a b : UInt8) : isSecond a b = true ↔
    (if a.toNat = 0xe0 then 0xa0 else if a.toNat = 0xf0 then 0x90 else 0x80) ≤ b.toNat ∧
      b.toNat ≤ if a.toNat = 0xed then 0x9f else if a.toNat = 0xf4 then 0x8f else 0xbf := by
  simp only [isSecond, isTail, ← UInt8.toNat_inj, UInt8.le_iff_toNat_le, UInt8.reduceToNat]
  split_ifs <;> simp_all

theorem isTail_of_isSecond {a b : UInt8} (h : isSecond a b) : isTail b := by
  rw [isSecond_iff] at h
  rw [isTail_iff]
  split_ifs at h <;> omega

/-- The bytes of a character by the range its number lies in; the numbers of surrogates are those of
no character. -/
theorem encodeChar_cases (c : Char) :
    c.toNat < 0x80 ∧ String.utf8EncodeChar c = [UInt8.ofNat c.toNat] ∨
    (0x80 ≤ c.toNat ∧ c.toNat < 0x800) ∧
      String.utf8EncodeChar c = [lead (c.toNat / 64) 0xc0, tail c.toNat] ∨
    (0x800 ≤ c.toNat ∧ c.toNat < 0x10000 ∧ ¬ (0xd800 ≤ c.toNat ∧ c.toNat < 0xe000)) ∧
      String.utf8EncodeChar c =
        [lead (c.toNat / 4096) 0xe0, tail (c.toNat / 64), tail c.toNat] ∨
    (0x10000 ≤ c.toNat ∧ c.toNat < 0x110000) ∧
      String.utf8EncodeChar c =
        [lead (c.toNat / 262144) 0xf0, tail (c.toNat / 4096), tail (c.toNat / 64),
          tail c.toNat] := by
  have valid : c.toNat < 0xd800 ∨ 0xdfff < c.toNat ∧ c.toNat < 0x110000 := c.valid
  have number : c.val.toNat = c.toNat := rfl
  unfold String.utf8EncodeChar lead tail
  simp only [number]
  split_ifs with one two three
  · exact Or.inl ⟨by omega, rfl⟩
  · refine Or.inr (Or.inl ⟨by omega, ?_⟩)
    rw [Nat.mod_eq_of_lt (by omega : c.toNat / 64 < 0x20)]
  · refine Or.inr (Or.inr (Or.inl ⟨by omega, ?_⟩))
    rw [Nat.mod_eq_of_lt (by omega : c.toNat / 4096 < 0x10)]
  · refine Or.inr (Or.inr (Or.inr ⟨by omega, ?_⟩))
    rw [Nat.mod_eq_of_lt (by omega : c.toNat / 262144 < 0x08)]

/-! ## Reading one character -/

/-- The byte starts a character that has more than one. -/
structure Starts (a : UInt8) : Prop where
  not_low : ¬ a < 0x80
  inRange : (0xc2 ≤ a && a ≤ 0xf4) = true

theorem starts_of_toNat {a : UInt8} (h : 0xc2 ≤ a.toNat) (h' : a.toNat ≤ 0xf4) : Starts a := by
  constructor
  · intro low
    have : a.toNat < 0x80 := UInt8.lt_iff_toNat_lt.1 low
    omega
  · simp [UInt8.le_iff_toNat_le, h, h']

theorem Starts.toNat_bounds {a : UInt8} (h : Starts a) : 0xc2 ≤ a.toNat ∧ a.toNat ≤ 0xf4 := by
  simpa [UInt8.le_iff_toNat_le] using h.inRange

theorem Starts.not_isTail {a : UInt8} (h : Starts a) : ¬ isTail a := by
  have := h.toNat_bounds
  rw [isTail_iff]
  omega

/-- The bytes spell the character with the number. -/
inductive SpellsChar : List UInt8 → Nat → Prop
  | one {a : UInt8} (low : a < 0x80) : SpellsChar [a] a.toNat
  | two {a b : UInt8} (starts : Starts a) (short : a < 0xe0) (second : isSecond a b) :
      SpellsChar [a, b] (a.toNat % 32 * 64 + tailBits b)
  | three {a b c : UInt8} (starts : Starts a) (long : ¬ a < 0xe0) (short : a < 0xf0)
      (second : isSecond a b) (third : isTail c) :
      SpellsChar [a, b, c] (a.toNat % 16 * 4096 + tailBits b * 64 + tailBits c)
  | four {a b c d : UInt8} (starts : Starts a) (long : ¬ a < 0xf0) (second : isSecond a b)
      (third : isTail c) (fourth : isTail d) :
      SpellsChar [a, b, c, d]
        (a.toNat % 8 * 262144 + tailBits b * 4096 + tailBits c * 64 + tailBits d)

/-- A character is read from the bytes that spell it, whatever follows them. -/
theorem SpellsChar.decodeChars_append {bs : List UInt8} {n : Nat} (h : SpellsChar bs n)
    (rest : List UInt8) : decodeChars (bs ++ rest) = Char.ofNat n :: decodeChars rest := by
  rw [decodeChars.eq_def]
  cases h with
  | one low => simp only [List.cons_append, List.nil_append, low, if_true]
  | two starts short second =>
    simp only [List.cons_append, List.nil_append, starts.not_low, starts.inRange, second, short,
      if_true, if_false, Bool.not_true, Bool.false_eq_true]
  | three starts long short second third =>
    simp only [List.cons_append, List.nil_append, starts.not_low, starts.inRange, second, third,
      long, short, if_true, if_false, Bool.not_true, Bool.false_eq_true]
  | @four a _ _ _ starts long second third fourth =>
    have long' : ¬ a < 0xe0 := fun short => long (UInt8.lt_trans short (by decide))
    simp only [List.cons_append, List.nil_append, starts.not_low, starts.inRange, second, third,
      fourth, long, long', if_true, if_false, Bool.not_true, Bool.false_eq_true]

variable {n : Nat}

theorem spellsChar_one (h : n < 0x80) : SpellsChar [UInt8.ofNat n] n := by
  have first : (UInt8.ofNat n).toNat = n := Nat.mod_eq_of_lt (by omega)
  have spells := SpellsChar.one (UInt8.lt_iff_toNat_lt.2 (first.symm ▸ h))
  rwa [first] at spells

theorem spellsChar_two (h : 0x80 ≤ n) (h' : n < 0x800) :
    SpellsChar [lead (n / 64) 0xc0, tail n] n := by
  have first : (lead (n / 64) 0xc0).toNat = n / 64 + 0xc0 := toNat_lead (by omega)
  have starts : Starts (lead (n / 64) 0xc0) := starts_of_toNat (by omega) (by omega)
  have second : isSecond (lead (n / 64) 0xc0) (tail n) = true := by
    rw [isSecond_iff, first, toNat_tail]
    split_ifs <;> omega
  have short : lead (n / 64) 0xc0 < 0xe0 := by
    rw [UInt8.lt_iff_toNat_lt, first]
    show _ < 0xe0
    omega
  have digits : (n / 64 + 0xc0) % 32 * 64 + n % 64 = n := by omega
  have spells := SpellsChar.two starts short second
  rwa [first, tailBits_tail, digits] at spells

theorem spellsChar_three (h : 0x800 ≤ n) (h' : n < 0x10000)
    (noSurrogate : ¬ (0xd800 ≤ n ∧ n < 0xe000)) :
    SpellsChar [lead (n / 4096) 0xe0, tail (n / 64), tail n] n := by
  have first : (lead (n / 4096) 0xe0).toNat = n / 4096 + 0xe0 := toNat_lead (by omega)
  have starts : Starts (lead (n / 4096) 0xe0) := starts_of_toNat (by omega) (by omega)
  have second : isSecond (lead (n / 4096) 0xe0) (tail (n / 64)) = true := by
    rw [isSecond_iff, first, toNat_tail]
    split_ifs <;> omega
  have long : ¬ lead (n / 4096) 0xe0 < 0xe0 := by
    rw [UInt8.lt_iff_toNat_lt, first]
    show ¬ _ < 0xe0
    omega
  have short : lead (n / 4096) 0xe0 < 0xf0 := by
    rw [UInt8.lt_iff_toNat_lt, first]
    show _ < 0xf0
    omega
  have digits : (n / 4096 + 0xe0) % 16 * 4096 + n / 64 % 64 * 64 + n % 64 = n := by omega
  have spells := SpellsChar.three starts long short second (isTail_tail n)
  rwa [first, tailBits_tail, tailBits_tail, digits] at spells

theorem spellsChar_four (h : 0x10000 ≤ n) (h' : n < 0x110000) :
    SpellsChar [lead (n / 262144) 0xf0, tail (n / 4096), tail (n / 64), tail n] n := by
  have first : (lead (n / 262144) 0xf0).toNat = n / 262144 + 0xf0 := toNat_lead (by omega)
  have starts : Starts (lead (n / 262144) 0xf0) := starts_of_toNat (by omega) (by omega)
  have second : isSecond (lead (n / 262144) 0xf0) (tail (n / 4096)) = true := by
    rw [isSecond_iff, first, toNat_tail]
    split_ifs <;> omega
  have long : ¬ lead (n / 262144) 0xf0 < 0xf0 := by
    rw [UInt8.lt_iff_toNat_lt, first]
    show ¬ _ < 0xf0
    omega
  have digits : (n / 262144 + 0xf0) % 8 * 262144 + n / 4096 % 64 * 4096 + n / 64 % 64 * 64 +
      n % 64 = n := by omega
  have spells := SpellsChar.four starts long second (isTail_tail (n / 64)) (isTail_tail n)
  rwa [first, tailBits_tail, tailBits_tail, tailBits_tail, digits] at spells

theorem spellsChar_encodeChar (c : Char) : SpellsChar (String.utf8EncodeChar c) c.toNat := by
  rcases encodeChar_cases c with ⟨h, bytes⟩ | ⟨⟨h, h'⟩, bytes⟩ | ⟨⟨h, h', h''⟩, bytes⟩ |
    ⟨⟨h, h'⟩, bytes⟩ <;> rw [bytes]
  · exact spellsChar_one h
  · exact spellsChar_two h h'
  · exact spellsChar_three h h' h''
  · exact spellsChar_four h h'

/-- The bytes of a character are read as this character, whatever follows them. -/
theorem decodeChars_encodeChar_append (c : Char) (rest : List UInt8) :
    decodeChars (String.utf8EncodeChar c ++ rest) = c :: decodeChars rest := by
  rw [(spellsChar_encodeChar c).decodeChars_append, Char.ofNat_toNat]

/-! ## Reading a text -/

theorem decodeChars_encodeChars_append (cs : List Char) (rest : List UInt8) :
    decodeChars (encodeChars cs ++ rest) = cs ++ decodeChars rest := by
  induction cs with
  | nil => rfl
  | cons c cs ih =>
    rw [encodeChars_cons, List.append_assoc, decodeChars_encodeChar_append, ih, List.cons_append]

theorem decodeChars_encodeChars (cs : List Char) : decodeChars (encodeChars cs) = cs := by
  have read := decodeChars_encodeChars_append cs []
  rwa [List.append_nil, decodeChars, List.append_nil] at read

/-- The bytes of a text are read as the text. -/
theorem decodeLossy_encode (s : String) : decodeLossy (encode s) = s := by
  rw [decodeLossy, encode, decodeChars_encodeChars, String.ofList_toList]

/-! ## Zero bytes and size -/

theorem zero_ne_lead {n mark : Nat} (h : n + mark < 256) (pos : 0 < mark) : 0 ≠ lead n mark := by
  intro zero
  have : 0 = n + mark := (congrArg UInt8.toNat zero).trans (toNat_lead h)
  omega

theorem zero_ne_tail (n : Nat) : 0 ≠ tail n := by
  intro zero
  have : 0 = n % 64 + 0x80 := (congrArg UInt8.toNat zero).trans (toNat_tail n)
  omega

/-- Only the character zero has a zero byte. -/
theorem zero_mem_encodeChar_iff (c : Char) : 0 ∈ String.utf8EncodeChar c ↔ c = '\x00' := by
  have number : c = '\x00' ↔ c.toNat = 0 := Char.toNat_inj.symm
  rw [number]
  rcases encodeChar_cases c with ⟨range, bytes⟩ | ⟨range, bytes⟩ | ⟨range, bytes⟩ | ⟨range, bytes⟩
  · have first : (UInt8.ofNat c.toNat).toNat = c.toNat := Nat.mod_eq_of_lt (by omega)
    rw [bytes, List.mem_singleton, ← UInt8.toNat_inj, first]
    exact eq_comm
  all_goals
    refine iff_of_false ?_ (by omega)
    rw [bytes]
  · have first := zero_ne_lead (by omega : c.toNat / 64 + 0xc0 < 256) (by decide)
    simp [first, zero_ne_tail]
  · have first := zero_ne_lead (by omega : c.toNat / 4096 + 0xe0 < 256) (by decide)
    simp [first, zero_ne_tail]
  · have first := zero_ne_lead (by omega : c.toNat / 262144 + 0xf0 < 256) (by decide)
    simp [first, zero_ne_tail]

theorem zero_mem_encodeChars_iff (cs : List Char) : 0 ∈ encodeChars cs ↔ '\x00' ∈ cs := by
  simp [encodeChars, zero_mem_encodeChar_iff]

theorem zero_mem_encode_iff (s : String) : 0 ∈ encode s ↔ '\x00' ∈ s.toList :=
  zero_mem_encodeChars_iff s.toList

/-- The bytes up to the first zero byte are the characters up to the first character zero. -/
theorem takeWhile_encodeChars (cs : List Char) :
    (encodeChars cs).takeWhile (· != 0) = encodeChars (cs.takeWhile (· != '\x00')) := by
  induction cs with
  | nil => rfl
  | cons c cs ih =>
    rw [encodeChars_cons]
    by_cases zero : c = '\x00'
    · subst zero
      rfl
    · have noZero : ∀ b ∈ String.utf8EncodeChar c, (b != 0) = true := by
        intro b hb
        refine bne_iff_ne.2 ?_
        rintro rfl
        exact zero ((zero_mem_encodeChar_iff c).1 hb)
      have kept : (c != '\x00') = true := bne_iff_ne.2 zero
      rw [List.takeWhile_append_of_pos noZero, ih, List.takeWhile_cons, if_pos kept,
        encodeChars_cons]

theorem length_encode (s : String) : (encode s).length = s.utf8ByteSize := by
  rw [← String.size_toByteArray, ← String.utf8Encode_toList]
  exact (List.size_toByteArray).symm

theorem encode_ofList (cs : List Char) : encode (String.ofList cs) = encodeChars cs := by
  rw [encode, String.toList_ofList]

theorem utf8ByteSize_ofList (cs : List Char) :
    (String.ofList cs).utf8ByteSize = (encodeChars cs).length := by
  rw [← length_encode, encode_ofList]

end ForeignCall.Utf8
