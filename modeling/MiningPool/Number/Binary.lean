import MiningPool.Wire.Value

/-!
# Binary floating point

A format of binary floating point numbers is given by the width of its mantissas, the
exponent of its least positive number and the bits of its infinity.  A magnitude is a
bit pattern without the sign.  `round` finds the magnitude nearest to any fraction, with
ties to the even mantissa, and `fraction` tells the number a magnitude stands for, so
conversions between formats, integers and decimals are exact up to one rounding.
-/

namespace MiningPool.Number

/-- A format of binary floating point numbers. -/
structure Format where
  /-- The number of bits of a mantissa, the leading one included. -/
  precision : Nat
  /-- Minus the exponent of the least positive number. -/
  depth : Nat
  /-- The bits of infinity. -/
  infinity : Nat
  /-- The weight of the sign bit. -/
  signWeight : Nat
  deriving DecidableEq, Repr

namespace Format

/-- Numbers of 32 bits. -/
def single : Format :=
  ⟨24, 149, 0x7f800000, 0x80000000⟩

/-- Numbers of 64 bits. -/
def double : Format :=
  ⟨53, 1074, 0x7ff0000000000000, 0x8000000000000000⟩

/-- The weight of the leading bit of a mantissa. -/
def leading (format : Format) : Nat :=
  1 <<< (format.precision - 1)

/-- The mantissa of a finite magnitude and its exponent above the least one. -/
def parts (format : Format) (magnitude : Nat) : Nat × Nat :=
  let field := magnitude / format.leading
  let fraction := magnitude % format.leading
  if field = 0 then (fraction, 0) else (fraction + format.leading, field - 1)

/-- The number a finite magnitude stands for, as numerator and denominator. -/
def fraction (format : Format) (magnitude : Nat) : Nat × Nat :=
  let (mantissa, exponent) := format.parts magnitude
  (mantissa <<< exponent, 1 <<< format.depth)

/-- The integer nearest to a quotient; a tie goes to the even one. -/
def roundDivide (numerator denominator : Nat) : Nat :=
  let quotient := numerator / denominator
  let twice := 2 * (numerator % denominator)
  if twice < denominator then quotient
  else if denominator < twice then quotient + 1
  else quotient + quotient % 2

/--
The exponent above the least one at which a positive quotient, counted in the least
positive number, has a mantissa of the full width; the least one for small quotients.
-/
def exponentOf (format : Format) (numerator denominator : Nat) : Nat :=
  let estimate := numerator.log2 - (denominator.log2 + format.precision)
  if numerator / (denominator <<< estimate) < 1 <<< format.precision then estimate
  else estimate + 1

/-- The magnitude nearest to a quotient; ties go to the even mantissa. -/
def round (format : Format) (numerator denominator : Nat) : Nat :=
  let numerator := numerator <<< format.depth
  let exponent := format.exponentOf numerator denominator
  let mantissa := roundDivide numerator (denominator <<< exponent)
  min (exponent * format.leading + mantissa) format.infinity

/-- Whether a bit pattern has its sign bit set. -/
def isNegative (format : Format) (bits : Nat) : Bool :=
  format.signWeight ≤ bits

/-- A bit pattern without its sign. -/
def magnitude (format : Format) (bits : Nat) : Nat :=
  bits % format.signWeight

/-- Put a sign on a magnitude. -/
def withSign (format : Format) (negative : Bool) (magnitude : Nat) : Nat :=
  if negative then format.signWeight + magnitude else magnitude

/-- Whether a bit pattern stands for no number. -/
def isNaN (format : Format) (bits : Nat) : Bool :=
  format.infinity < format.magnitude bits

/-- Whether a bit pattern stands for a number that is not infinite. -/
def isFinite (format : Format) (bits : Nat) : Bool :=
  format.magnitude bits < format.infinity

/-- Whether a bit pattern stands for a number above zero that is not infinite. -/
def isPositiveFinite (format : Format) (bits : Nat) : Bool :=
  !format.isNegative bits && format.isFinite bits && format.magnitude bits != 0

/-- The bit pattern that stands for no number. -/
def nan (format : Format) : Nat :=
  format.infinity + format.leading / 2

/-- The bit pattern of one format nearest to that of another. -/
def convert (source target : Format) (bits : Nat) : Nat :=
  let magnitude := source.magnitude bits
  let converted :=
    if source.infinity < magnitude then target.nan
    else if magnitude = source.infinity then target.infinity
    else
      let (numerator, denominator) := source.fraction magnitude
      target.round numerator denominator
  target.withSign (source.isNegative bits) converted

/-- The integer part of a number that is not below zero, at most `limit`. -/
def truncate (format : Format) (limit bits : Nat) : Nat :=
  if format.isNaN bits || format.isNegative bits then 0
  else
    let magnitude := format.magnitude bits
    if magnitude = format.infinity then limit
    else
      let (numerator, denominator) := format.fraction magnitude
      min (numerator / denominator) limit

end Format

/-- The double precision number nearest to an integer. -/
def doubleOfNat (value : Nat) : Float :=
  Float.ofBits (UInt64.ofNat (Format.double.round value 1))

/-- The integer part of a number, between zero and `limit`. -/
def truncateDouble (limit : Nat) (value : Float) : Nat :=
  Format.double.truncate limit value.toBits.toNat

/-- The double precision number equal to one of single precision. -/
def doubleOfSingle (value : Wire.Single) : Float :=
  Float.ofBits (UInt64.ofNat (Format.convert .single .double value.bits.toNat))

end MiningPool.Number
