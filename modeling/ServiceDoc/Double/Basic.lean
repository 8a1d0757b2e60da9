/-!
# Double-precision numbers

A number is kept by its IEEE 754 bits and read as `significand · 2 ^ exponent`, so that comparing
and printing are exact integer arithmetic.
-/

namespace ServiceDoc

/-- A double-precision number, by its bits. -/
structure Double where
  /-- The sign, exponent and fraction bits. -/
  bits : UInt64
  deriving DecidableEq, Repr

namespace Double

/-- Whether the sign bit is set. -/
def isNegative (d : Double) : Bool := Nat.pow 2 63 ≤ d.bits.toNat

/-- The biased exponent. -/
def exponentField (d : Double) : Nat := d.bits.toNat / Nat.pow 2 52 % 2048

/-- The fraction below the leading bit. -/
def fractionField (d : Double) : Nat := d.bits.toNat % Nat.pow 2 52

/-- Not a number. -/
def isNaN (d : Double) : Bool := d.exponentField == 2047 && d.fractionField != 0

/-- Infinite, of either sign. -/
def isInfinite (d : Double) : Bool := d.exponentField == 2047 && d.fractionField == 0

/-- The integer whose product with a power of two is the magnitude of a finite number. -/
def significand (d : Double) : Nat :=
  if d.exponentField = 0 then d.fractionField else d.fractionField + Nat.pow 2 52

/-- The power of two that belongs to the significand. -/
def exponent (d : Double) : Int := (max d.exponentField 1 : Nat) - 1075

/-- Infinity, negative if asked. -/
def infinity (negative : Bool) : Double :=
  ⟨UInt64.ofNat ((if negative then Nat.pow 2 63 else 0) + 2047 * Nat.pow 2 52)⟩

/-- The quiet NaN. -/
def nan : Double := ⟨0x7ff8000000000000⟩

/-- A finite number as a fraction. -/
def toFraction (d : Double) : Int × Nat :=
  let magnitude := d.significand * Nat.pow 2 d.exponent.toNat
  (if d.isNegative then -(magnitude : Int) else magnitude, Nat.pow 2 (-d.exponent).toNat)

/-- The quotient of two positive integers, or of zero, rounded to the nearest double, a tie to the
even significand. -/
def ofQuotient (negative : Bool) (numerator denominator : Nat) : Double :=
  if numerator = 0 then ⟨UInt64.ofNat (if negative then Nat.pow 2 63 else 0)⟩
  else
    let guess : Int := (Nat.log2 numerator : Int) - Nat.log2 denominator - 53
    let below :=
      numerator * Nat.pow 2 (-guess).toNat < Nat.pow 2 53 * (denominator * Nat.pow 2 guess.toNat)
    let exponent : Int := max (-1074) (if below then guess else guess + 1)
    let scaled := numerator * Nat.pow 2 (-exponent).toNat
    let unit := denominator * Nat.pow 2 exponent.toNat
    let quotient := scaled / unit
    let twice := 2 * (scaled % unit)
    let rounded :=
      if twice < unit || (twice == unit && quotient % 2 == 0) then quotient else quotient + 1
    let magnitude := (exponent + 1074).toNat * Nat.pow 2 52 + rounded
    if 2047 * Nat.pow 2 52 ≤ magnitude then infinity negative
    else ⟨UInt64.ofNat ((if negative then Nat.pow 2 63 else 0) + magnitude)⟩

/-- The double nearest to `digits · 10 ^ scale`. Magnitudes far outside the range are decided by
their size alone. -/
def ofDecimal (negative : Bool) (digits : Nat) (scale : Int) : Double :=
  let size : Int := (Nat.toDigits 10 digits).length + scale
  if digits = 0 || size < -400 then ofQuotient negative 0 1
  else if 400 < size then infinity negative
  else ofQuotient negative (digits * Nat.pow 10 scale.toNat) (Nat.pow 10 (-scale).toNat)

/-- Equality of fractions with positive denominators. -/
def sameFraction (a b : Int × Nat) : Bool := a.1 * b.2 == b.1 * a.2

/-- Order of fractions with positive denominators. -/
def lessFraction (a b : Int × Nat) : Bool := a.1 * b.2 < b.1 * a.2

end Double

end ServiceDoc
