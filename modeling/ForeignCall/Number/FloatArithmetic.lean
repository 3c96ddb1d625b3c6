import ForeignCall.Number.FloatFormat

/-!
# Floating-point arithmetic

Sums and products of numbers of 64 bits, computed exactly and then rounded once.
-/

namespace ForeignCall.FloatDatum

/-- The datum of an operation without a result. -/
def invalid : FloatDatum := .nan false 0

/-- The exact product. -/
def mul : FloatDatum → FloatDatum → FloatDatum
  | .nan s p, _ => .nan s p
  | _, .nan s p => .nan s p
  | .finite s m d, .finite t n e => .finite (s != t) (m * n) (d + e)
  | .infinite s, .infinite t => .infinite (s != t)
  | .infinite s, .finite t n _ => if n = 0 then invalid else .infinite (s != t)
  | .finite s m _, .infinite t => if m = 0 then invalid else .infinite (s != t)

/-- The integer with the given sign and size. -/
def signed (negative : Bool) (n : Nat) : Int := if negative then -n else n

/-- The exact sum.  A sum of zero is negative only if both terms are. -/
def add : FloatDatum → FloatDatum → FloatDatum
  | .nan s p, _ => .nan s p
  | _, .nan s p => .nan s p
  | .finite s m d, .finite t n e =>
    let last := min d e
    let sum := signed s (m <<< (d - last).toNat) + signed t (n <<< (e - last).toNat)
    .finite (if sum = 0 then s && t else sum < 0) sum.natAbs last
  | .infinite s, .infinite t => if s = t then .infinite s else invalid
  | .infinite s, .finite .. => .infinite s
  | .finite .., .infinite t => .infinite t

end ForeignCall.FloatDatum

namespace ForeignCall.Double

/-- The product, rounded. -/
def mul (x y : Double) : Double := ofDatum (x.datum.mul y.datum)

/-- The sum, rounded. -/
def add (x y : Double) : Double := ofDatum (x.datum.add y.datum)

/-- Positive zero. -/
def zero : Double := 0

end ForeignCall.Double
