import ForeignCall.Native.Memory
import ForeignCall.Number.FixedPoint

/-!
# Formatted text

A format is text with directives in it, each of which takes an argument and writes it
(`formatText`).  A directive is read byte by byte: flags, a width, a precision and a size before
the letter that ends it (`Directive.step`).
-/

namespace ForeignCall

/-- A directive of a format as far as it was read. -/
structure Directive where
  /-- Blanks go behind the text. -/
  leftAligned : Bool := false
  /-- Zeros go before the digits of a number. -/
  zeroPadded : Bool := false
  /-- What stands before a number that is not negative. -/
  plus : List Char := []
  width : Nat := 0
  precision : Option Nat := none
  /-- The argument has eight bytes. -/
  long : Bool := false

namespace Directive

/-- What a byte does to a directive. -/
inductive Progress where
  | more (directive : Directive)
  | done (letter : Char)

/-- Reads one more byte of a directive. -/
def step (d : Directive) (c : Char) : Progress :=
  match c, d.precision with
  | '-', _ => .more { d with leftAligned := true }
  | '+', _ => .more { d with plus := ['+'] }
  | ' ', _ => .more { d with plus := if d.plus.isEmpty then [' '] else d.plus }
  | '#', _ => .more d
  | '.', _ => .more { d with precision := some 0 }
  | 'l', _ | 'z', _ | 'j', _ | 't', _ => .more { d with long := true }
  | 'h', _ => .more d
  | c, some p =>
    if c.isDigit then .more { d with precision := some (10 * p + (c.toNat - '0'.toNat)) }
    else .done c
  | c, none =>
    if c = '0' && d.width = 0 then .more { d with zeroPadded := true }
    else if c.isDigit then .more { d with width := 10 * d.width + (c.toNat - '0'.toNat) }
    else .done c

/-- The bytes of text without characters beyond ASCII. -/
def ascii (cs : List Char) : Bytes := cs.map fun c => UInt8.ofNat c.toNat

/-- The text padded to the width of the directive with blanks. -/
def pad (d : Directive) (text : Bytes) : Bytes :=
  let blanks := List.replicate (d.width - text.length) 0x20
  if d.leftAligned then text ++ blanks else blanks ++ text

/-- A number padded to the width of the directive, with zeros between sign and digits if
`withZeros`. -/
def padNumber (d : Directive) (withZeros : Bool) (sign digits : List Char) : Bytes :=
  let zeros := if withZeros && d.zeroPadded && !d.leftAligned then
    d.width - sign.length - digits.length else 0
  d.pad (ascii (sign ++ List.replicate zeros '0' ++ digits))

/-- The digits of an integer, at least as many as the precision asks for. -/
def integerDigits (d : Directive) (base n : Nat) : List Char :=
  let digits := if n = 0 && d.precision == some 0 then [] else Nat.toDigits base n
  List.replicate (d.precision.getD 1 - digits.length) '0' ++ digits

/-- The number of bytes of an integer argument. -/
def size (d : Directive) : Nat := if d.long then 8 else 4

/-- An unsigned integer argument in the given base. -/
def unsigned (d : Directive) (base : Nat) (slot : Bytes) : List Char :=
  d.integerDigits base (Bytes.ofLittleEndian (slot.take d.size))

/-- The text of a directive that ends with the letter, for the argument in the slot. -/
def convert (d : Directive) (memory : Memory) (letter : Char) (slot : Bytes) : Bytes :=
  let integer := d.padNumber d.precision.isNone
  match letter with
  | 'd' | 'i' =>
    let n := (BitVec.ofNat (8 * d.size) (Bytes.ofLittleEndian slot)).toInt
    integer (if n < 0 then ['-'] else d.plus) (d.integerDigits 10 n.natAbs)
  | 'u' => integer [] (d.unsigned 10 slot)
  | 'x' => integer [] (d.unsigned 16 slot)
  | 'X' => integer [] ((d.unsigned 16 slot).map Char.toUpper)
  | 'o' => integer [] (d.unsigned 8 slot)
  | 'c' => d.pad (slot.take 1)
  | 's' =>
    let text := memory.readCString (BitVec.ofNat 64 (Bytes.ofLittleEndian slot))
    d.pad (match d.precision with
      | some p => text.take p
      | none => text)
  | 'f' | 'F' =>
    let datum := FloatFormat.double.decode (Bytes.ofLittleEndian (slot.take 8))
    let isFinite := match datum with
      | .finite .. => true
      | _ => false
    d.padNumber isFinite (if datum.isNegative then ['-'] else d.plus)
      (datum.fixedPoint (d.precision.getD 6))
  | _ => []

end Directive

/-- The text of the format with its directives replaced by the arguments, which are taken in
order; `pending` is the directive that is being read. -/
def formatText (memory : Memory) (pending : Option Directive) : Bytes → List Bytes → Bytes
  | [], _ => []
  | b :: rest, slots =>
    match pending with
    | none =>
      if b = 0x25 then formatText memory (some {}) rest slots
      else b :: formatText memory none rest slots
    | some d =>
      match d.step (Char.ofNat b.toNat) with
      | .more d => formatText memory (some d) rest slots
      | .done '%' => 0x25 :: formatText memory none rest slots
      | .done letter =>
        d.convert memory letter (slots.headD []) ++ formatText memory none rest slots.tail

end ForeignCall
