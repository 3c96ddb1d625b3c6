/-!
# UTF-8

`Utf8.encode` gives the bytes of a text, and `Utf8.decodeLossy` reads bytes as text: each longest
start of a character that is not completed, and each byte that starts none, becomes one U+FFFD.
-/

namespace ForeignCall.Utf8

/-- The character that stands for what is no character. -/
def replacement : Char := '\uFFFD'

theorem toNat_ofNat {n : Nat} (h : n.isValidChar) : (Char.ofNat n).toNat = n := by
  rw [Char.ofNat, dif_pos h]
  exact UInt32.toNat_ofNatLT

/-! ## Writing -/

/-- The bytes of the characters. -/
def encodeChars (cs : List Char) : List UInt8 := cs.flatMap String.utf8EncodeChar

/-- The bytes of the text. -/
def encode (s : String) : List UInt8 := encodeChars s.toList

@[simp] theorem encodeChars_nil : encodeChars [] = [] := rfl

@[simp] theorem encodeChars_cons (c : Char) (cs : List Char) :
    encodeChars (c :: cs) = String.utf8EncodeChar c ++ encodeChars cs := rfl

@[simp] theorem encodeChars_append (cs ds : List Char) :
    encodeChars (cs ++ ds) = encodeChars cs ++ encodeChars ds :=
  List.flatMap_append

/-- The characters from the start that fit into `room` bytes together. -/
def fitting (room : Nat) : List Char → List Char
  | [] => []
  | c :: cs => if c.utf8Size ≤ room then c :: fitting (room - c.utf8Size) cs else []

theorem fitting_prefix (room : Nat) (cs : List Char) : fitting room cs <+: cs := by
  induction cs generalizing room with
  | nil => exact List.prefix_rfl
  | cons c cs ih =>
    unfold fitting
    split
    · exact List.cons_prefix_cons.2 ⟨rfl, ih _⟩
    · exact List.nil_prefix

theorem length_encodeChars_fitting_le (room : Nat) (cs : List Char) :
    (encodeChars (fitting room cs)).length ≤ room := by
  induction cs generalizing room with
  | nil => exact Nat.zero_le _
  | cons c cs ih =>
    unfold fitting
    split
    · have := ih (room - c.utf8Size)
      simp only [encodeChars_cons, List.length_append, String.length_utf8EncodeChar]
      omega
    · exact Nat.zero_le _

/-! ## Reading -/

/-- Whether the byte continues a character. -/
def isTail (b : UInt8) : Bool := 0x80 ≤ b && b ≤ 0xbf

/-- Whether `b` may be the second byte of a character that starts with `a`: the ranges leave out
spellings that are too long, surrogates and what lies past the last character. -/
def isSecond (a b : UInt8) : Bool :=
  if a = 0xe0 then 0xa0 ≤ b && b ≤ 0xbf
  else if a = 0xed then 0x80 ≤ b && b ≤ 0x9f
  else if a = 0xf0 then 0x90 ≤ b && b ≤ 0xbf
  else if a = 0xf4 then 0x80 ≤ b && b ≤ 0x8f
  else isTail b

/-- The digits of a continuation byte. -/
def tailBits (b : UInt8) : Nat := b.toNat % 64

/-- Reads the bytes as text, with a replacement for each part that is no character. -/
def decodeChars : List UInt8 → List Char
  | [] => []
  | a :: bs =>
    if a < 0x80 then Char.ofNat a.toNat :: decodeChars bs
    else if 0xc2 ≤ a && a ≤ 0xf4 then
      match bs with
      | [] => [replacement]
      | b :: cs =>
        if !isSecond a b then replacement :: decodeChars (b :: cs)
        else if a < 0xe0 then Char.ofNat (a.toNat % 32 * 64 + tailBits b) :: decodeChars cs
        else
          match cs with
          | [] => [replacement]
          | c :: ds =>
            if !isTail c then replacement :: decodeChars (c :: ds)
            else if a < 0xf0 then
              Char.ofNat (a.toNat % 16 * 4096 + tailBits b * 64 + tailBits c) :: decodeChars ds
            else
              match ds with
              | [] => [replacement]
              | d :: es =>
                if !isTail d then replacement :: decodeChars (d :: es)
                else
                  Char.ofNat (a.toNat % 8 * 262144 + tailBits b * 4096 + tailBits c * 64
                    + tailBits d) :: decodeChars es
    else replacement :: decodeChars bs

/-- Reads the bytes as text, with a replacement for each part that is no character. -/
def decodeLossy (bytes : List UInt8) : String := String.ofList (decodeChars bytes)

end ForeignCall.Utf8
