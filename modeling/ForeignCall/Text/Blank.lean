/-!
# Blanks and the case of names

Names are read without the blanks around them and without regard to the case of ASCII letters
(`foldName`).
-/

namespace ForeignCall

/-- The characters with the property White_Space. -/
def isBlank (c : Char) : Bool :=
  let n := c.toNat
  (0x09 ≤ n && n ≤ 0x0d) || n == 0x20 || n == 0x85 || n == 0xa0 || n == 0x1680
    || (0x2000 ≤ n && n ≤ 0x200a) || n == 0x2028 || n == 0x2029 || n == 0x202f || n == 0x205f
    || n == 0x3000

/-- The text without the blanks at its ends. -/
def trimBlanks (s : String) : String :=
  String.ofList ((s.toList.dropWhile isBlank).reverse.dropWhile isBlank).reverse

/-- The name as it is looked up: without the blanks around it, its ASCII letters in lower case. -/
def foldName (s : String) : String := (trimBlanks s).map Char.toLower

end ForeignCall
