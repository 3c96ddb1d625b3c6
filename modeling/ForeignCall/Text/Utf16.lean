import ForeignCall.Text.Utf8

/-!
# UTF-16

`Utf16.encode` gives the units of a text, and `Utf16.decode` reads units: a pair of surrogates is
one character, and a surrogate without its partner is one U+FFFD.
-/

namespace ForeignCall.Utf16

/-- The units of a character. -/
def encodeChar (c : Char) : List UInt16 :=
  if c.toNat < 0x10000 then [UInt16.ofNat c.toNat]
  else
    let n := c.toNat - 0x10000
    [UInt16.ofNat (0xd800 + n / 1024), UInt16.ofNat (0xdc00 + n % 1024)]

/-- The units of the text. -/
def encode (s : String) : List UInt16 := s.toList.flatMap encodeChar

/-- Whether the unit is the first of a pair. -/
def isLeading (u : UInt16) : Bool := 0xd800 ≤ u && u ≤ 0xdbff

/-- Whether the unit is the second of a pair. -/
def isTrailing (u : UInt16) : Bool := 0xdc00 ≤ u && u ≤ 0xdfff

/-- The character of a pair. -/
def ofPair (u v : UInt16) : Char :=
  Char.ofNat (0x10000 + (u.toNat - 0xd800) * 1024 + (v.toNat - 0xdc00))

/-- Reads the units as characters, with a replacement for each surrogate without its partner. -/
def decode : List UInt16 → List Char
  | [] => []
  | u :: us =>
    if isLeading u then
      match us with
      | [] => [Utf8.replacement]
      | v :: vs =>
        if isTrailing v then ofPair u v :: decode vs else Utf8.replacement :: decode (v :: vs)
    else if isTrailing u then Utf8.replacement :: decode us
    else Char.ofNat u.toNat :: decode us

end ForeignCall.Utf16
