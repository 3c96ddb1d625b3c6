/-!
# Binary floating-point formats

A format has a sign bit, an exponent field and a fraction field (`FloatFormat`); a pattern is the
natural that its bits spell.  `decode` reads a pattern as a sign, a significand and an exponent
(`FloatDatum`); `encode` gives the pattern of the nearest value, the even one of two that are
equally near, and infinity past the largest.

The exponent of a rounded value is chosen so that as many digits are kept as the fraction field
and the hidden bit hold (`lastPlace`).  Counting the last place from the smallest one and adding
the kept digits gives the pattern for normal and subnormal values alike, and a carry into a new
digit is then the carry into the exponent field.
-/

namespace ForeignCall

/-- A binary floating-point format by the widths of its fields. -/
structure FloatFormat where
  exponentBits : Nat
  fractionBits : Nat

/-- What a pattern stands for. -/
inductive FloatDatum where
  /-- No number. -/
  | nan (negative : Bool) (fraction : Nat)
  | infinite (negative : Bool)
  /-- The number `significand` times two to the power of `exponent`, or its opposite. -/
  | finite (negative : Bool) (significand : Nat) (exponent : Int)
  deriving DecidableEq, Repr

namespace FloatFormat

def single : FloatFormat := ⟨8, 23⟩

def double : FloatFormat := ⟨11, 52⟩

variable (f : FloatFormat)

/-- The exponent of the last place of the smallest values. -/
def minExponent : Int := 2 - (1 <<< (f.exponentBits - 1) : Nat) - f.fractionBits

/-- The pattern of positive infinity. -/
def infinity : Nat := ((1 <<< f.exponentBits) - 1) <<< f.fractionBits

/-- The pattern whose only set bit is the sign. -/
def signBit : Nat := 1 <<< (f.exponentBits + f.fractionBits)

/-- The pattern of a magnitude with a sign. -/
def withSign (negative : Bool) (magnitude : Nat) : Nat :=
  if negative then f.signBit + magnitude else magnitude

/-! ## Reading a pattern -/

def decode (pattern : Nat) : FloatDatum :=
  let negative := f.signBit ≤ pattern
  let magnitude := pattern % f.signBit
  let fraction := magnitude % (1 <<< f.fractionBits)
  let field := magnitude >>> f.fractionBits
  if f.infinity < magnitude then .nan negative fraction
  else if magnitude = f.infinity then .infinite negative
  else if field = 0 then .finite negative fraction f.minExponent
  else .finite negative ((1 <<< f.fractionBits) + fraction) (f.minExponent + (field - 1 : Nat))

/-- Whether the pattern stands for no number. -/
def isNaN (pattern : Nat) : Bool := f.infinity < pattern % f.signBit

/-! ## Rounding -/

/-- Drops the last `places` binary digits of `n`, rounding to nearest and a tie to even. -/
def dropDigits (n places : Nat) : Nat :=
  let kept := n >>> places
  let dropped := n % (1 <<< places)
  if 2 * dropped < 1 <<< places then kept
  else if 1 <<< places < 2 * dropped then kept + 1
  else kept + kept % 2

/-- The exponent of the last digit that is kept of a number. -/
def lastPlace (significand : Nat) (exponent : Int) : Int :=
  max (exponent + significand.log2 - f.fractionBits) f.minExponent

/-- The magnitude nearest to `significand` times two to the power of `exponent`. -/
def round (significand : Nat) (exponent : Int) : Nat :=
  if significand = 0 then 0
  else
    let last := f.lastPlace significand exponent
    let kept := dropDigits (significand <<< (exponent - last).toNat) (last - exponent).toNat
    min ((last - f.minExponent).toNat <<< f.fractionBits + kept) f.infinity

/-- The pattern of a datum: the nearest value of a number, and a quiet pattern for no number. -/
def encode : FloatDatum → Nat
  | .nan negative fraction =>
    f.withSign negative (f.infinity + (fraction ||| 1 <<< (f.fractionBits - 1)))
  | .infinite negative => f.withSign negative f.infinity
  | .finite negative significand exponent => f.withSign negative (f.round significand exponent)

/-- The pattern in the format `g` of the value that `pattern` has in the format `f`.  A pattern of
no number keeps its sign and the leading digits of its fraction. -/
def convert (g : FloatFormat) (pattern : Nat) : Nat :=
  match f.decode pattern with
  | .nan negative fraction =>
    g.encode (.nan negative
      (fraction <<< (g.fractionBits - f.fractionBits) >>> (f.fractionBits - g.fractionBits)))
  | datum => g.encode datum

/-- Equality of the values of two patterns: zeros of either sign are equal, and no number equals
nothing. -/
def equal (a b : Nat) : Bool :=
  match f.decode a, f.decode b with
  | .finite p m d, .finite q n e => m == 0 && n == 0 || p == q && m == n && d == e
  | .infinite p, .infinite q => p == q
  | _, _ => false

end FloatFormat

/-! ## The two widths -/

/-- The bits of a floating-point number of 32 bits. -/
abbrev Single := BitVec 32

/-- The bits of a floating-point number of 64 bits. -/
abbrev Double := BitVec 64

namespace Single

/-- The same number in 64 bits. -/
def widen (x : Single) : Double := BitVec.ofNat 64 (FloatFormat.single.convert .double x.toNat)

def equal (x y : Single) : Bool := FloatFormat.single.equal x.toNat y.toNat

def isNaN (x : Single) : Bool := FloatFormat.single.isNaN x.toNat

end Single

namespace Double

/-- The nearest number of 32 bits. -/
def narrow (x : Double) : Single := BitVec.ofNat 32 (FloatFormat.double.convert .single x.toNat)

def datum (x : Double) : FloatDatum := FloatFormat.double.decode x.toNat

/-- The number nearest to a datum. -/
def ofDatum (d : FloatDatum) : Double := BitVec.ofNat 64 (FloatFormat.double.encode d)

/-- The number nearest to an integer. -/
def ofInt (n : Int) : Double := ofDatum (.finite (n < 0) n.natAbs 0)

def equal (x y : Double) : Bool := FloatFormat.double.equal x.toNat y.toNat

def isNaN (x : Double) : Bool := FloatFormat.double.isNaN x.toNat

end Double

end ForeignCall
