import ForeignCall.Text.Utf16
import Mathlib.Data.List.Basic

/-!
# Which text units spell

Units spell characters where they are the units of a character, be it one unit or a pair of
surrogates, and a replacement where they are a surrogate without its partner (`Utf16.Spells`).
Every sequence of units spells exactly one text, which `Utf16.decode` finds (`spells_iff`), and the
units of a text spell it (`spells_encode`).
-/

namespace ForeignCall.Utf16

/-- The surrogate `u` has no partner where `us` follow it and no first of a pair stands before
it. -/
def Unpaired (u : UInt16) (us : List UInt16) : Prop :=
  isTrailing u ∨ isLeading u ∧ ∀ v ∈ us.head?, ¬ isTrailing v

/-- The units spell the characters. -/
inductive Spells : List UInt16 → List Char → Prop
  | nil : Spells [] []
  /-- One unit, or a pair of surrogates. -/
  | char (c : Char) {us : List UInt16} {cs : List Char} (rest : Spells us cs) :
      Spells (encodeChar c ++ us) (c :: cs)
  | unpaired {u : UInt16} {us : List UInt16} {cs : List Char} (alone : Unpaired u us)
      (rest : Spells us cs) : Spells (u :: us) (Utf8.replacement :: cs)

/-! ## Surrogates -/

theorem isLeading_iff (u : UInt16) : isLeading u = true ↔ 0xd800 ≤ u.toNat ∧ u.toNat < 0xdc00 := by
  have : 0xd800 ≤ u.toNat ∧ u.toNat ≤ 0xdbff ↔ 0xd800 ≤ u.toNat ∧ u.toNat < 0xdc00 := by omega
  simpa [isLeading, UInt16.le_iff_toNat_le] using this

theorem isTrailing_iff (u : UInt16) :
    isTrailing u = true ↔ 0xdc00 ≤ u.toNat ∧ u.toNat < 0xe000 := by
  have : 0xdc00 ≤ u.toNat ∧ u.toNat ≤ 0xdfff ↔ 0xdc00 ≤ u.toNat ∧ u.toNat < 0xe000 := by omega
  simpa [isTrailing, UInt16.le_iff_toNat_le] using this

theorem not_isLeading_of_isTrailing {u : UInt16} (h : isTrailing u) : ¬ isLeading u := by
  rw [isTrailing_iff] at h
  rw [isLeading_iff]
  omega

theorem toNat_ofNat_unit {n : Nat} (h : n < 0x10000) : (UInt16.ofNat n).toNat = n :=
  UInt16.toNat_ofNat_of_lt' h

/-- The number of a character, by the units it has. -/
theorem encodeChar_cases (c : Char) :
    (∃ u : UInt16, encodeChar c = [u] ∧ u.toNat = c.toNat ∧ ¬ isLeading u ∧ ¬ isTrailing u) ∨
    ∃ u v : UInt16, encodeChar c = [u, v] ∧ isLeading u ∧ isTrailing v ∧
      c.toNat = 0x10000 + (u.toNat - 0xd800) * 1024 + (v.toNat - 0xdc00) := by
  have valid : c.toNat < 0xd800 ∨ 0xdfff < c.toNat ∧ c.toNat < 0x110000 := c.valid
  unfold encodeChar
  split_ifs with small
  · have number : (UInt16.ofNat c.toNat).toNat = c.toNat := toNat_ofNat_unit small
    refine Or.inl ⟨_, rfl, number, ?_, ?_⟩
    · rw [isLeading_iff, number]
      omega
    · rw [isTrailing_iff, number]
      omega
  · have first : (UInt16.ofNat (0xd800 + (c.toNat - 0x10000) / 1024)).toNat =
        0xd800 + (c.toNat - 0x10000) / 1024 := toNat_ofNat_unit (by omega)
    have second : (UInt16.ofNat (0xdc00 + (c.toNat - 0x10000) % 1024)).toNat =
        0xdc00 + (c.toNat - 0x10000) % 1024 := toNat_ofNat_unit (by omega)
    refine Or.inr ⟨_, _, rfl, ?_, ?_, ?_⟩
    · rw [isLeading_iff, first]
      omega
    · rw [isTrailing_iff, second]
      omega
    · rw [first, second]
      omega

/-- The last unit of a character is a surrogate or the number of the character. -/
theorem exists_getLast?_encodeChar (c : Char) :
    ∃ u, (encodeChar c).getLast? = some u ∧ (¬ isTrailing u → u.toNat = c.toNat) := by
  rcases encodeChar_cases c with ⟨u, units, number, -⟩ | ⟨u, v, units, -, hv, -⟩
  · exact ⟨u, units ▸ rfl, fun _ => number⟩
  · exact ⟨v, units ▸ rfl, fun hv' => absurd hv hv'⟩

theorem encodeChar_ofNat {u : UInt16} (hl : ¬ isLeading u) (ht : ¬ isTrailing u) :
    encodeChar (Char.ofNat u.toNat) = [u] := by
  have size : u.toNat < 0x10000 := u.toNat_lt
  rw [isLeading_iff] at hl
  rw [isTrailing_iff] at ht
  have valid : u.toNat.isValidChar := by
    show u.toNat < 0xd800 ∨ 0xdfff < u.toNat ∧ u.toNat < 0x110000
    omega
  rw [encodeChar, Utf8.toNat_ofNat valid, if_pos size, UInt16.ofNat_toNat]

theorem encodeChar_ofPair {u v : UInt16} (hu : isLeading u) (hv : isTrailing v) :
    encodeChar (ofPair u v) = [u, v] := by
  rw [isLeading_iff] at hu
  rw [isTrailing_iff] at hv
  have number : (ofPair u v).toNat =
      0x10000 + (u.toNat - 0xd800) * 1024 + (v.toNat - 0xdc00) := by
    refine Utf8.toNat_ofNat ?_
    show _ < 0xd800 ∨ 0xdfff < _ ∧ _ < 0x110000
    omega
  have first : 0xd800 + ((ofPair u v).toNat - 0x10000) / 1024 = u.toNat := by omega
  have second : 0xdc00 + ((ofPair u v).toNat - 0x10000) % 1024 = v.toNat := by omega
  have large : ¬ (ofPair u v).toNat < 0x10000 := by omega
  rw [encodeChar, if_neg large]
  simp only [first, second, UInt16.ofNat_toNat]

/-! ## Decoding -/

/-- The units of a character are read as this character, whatever follows them. -/
theorem decode_encodeChar_append (c : Char) (us : List UInt16) :
    decode (encodeChar c ++ us) = c :: decode us := by
  rcases encodeChar_cases c with ⟨u, units, number, hl, ht⟩ | ⟨u, v, units, hu, hv, number⟩
  · rw [units, List.singleton_append, decode.eq_def]
    simp [hl, ht, number]
  · rw [units, List.cons_append, List.singleton_append, decode.eq_def]
    simp [hu, hv, ofPair, ← number]

theorem decode_unpaired {u : UInt16} {us : List UInt16} (h : Unpaired u us) :
    decode (u :: us) = Utf8.replacement :: decode us := by
  rw [decode.eq_def]
  rcases h with ht | ⟨hl, next⟩
  · simp [not_isLeading_of_isTrailing ht, ht]
  · cases us with
    | nil => simp [hl, decode]
    | cons v vs => simp [hl, next v rfl]

theorem spells_decode (us : List UInt16) : Spells us (decode us) := by
  fun_induction decode us with
  | case1 => exact .nil
  | case2 u hu => exact .unpaired (Or.inr ⟨hu, by simp⟩) .nil
  | case3 u hu v vs hv ih =>
    have := Spells.char (ofPair u v) ih
    rwa [encodeChar_ofPair hu hv] at this
  | case4 u hu v vs hv ih => exact .unpaired (Or.inr ⟨hu, by simpa using hv⟩) ih
  | case5 u us hl ht ih => exact .unpaired (Or.inl ht) ih
  | case6 u us hl ht ih =>
    have := Spells.char (Char.ofNat u.toNat) ih
    rwa [encodeChar_ofNat hl ht] at this

/-- The units spell one text, and `decode` finds it. -/
theorem spells_iff {us : List UInt16} {cs : List Char} : Spells us cs ↔ decode us = cs := by
  constructor
  · intro h
    induction h with
    | nil => rfl
    | char c _ ih => rw [decode_encodeChar_append, ih]
    | unpaired alone _ ih => rw [decode_unpaired alone, ih]
  · rintro rfl
    exact spells_decode us

/-- The units of a text spell it. -/
theorem spells_encode (s : String) : Spells (encode s) s.toList := by
  unfold encode
  induction s.toList with
  | nil => exact .nil
  | cons c cs ih => exact .char c ih

end ForeignCall.Utf16
