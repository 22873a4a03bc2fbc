import MiningPool.Number.Binary

/-!
# Shortest decimals

A floating point number is written with the fewest digits that read back as the same
number and, among those, with the digits nearest to it; of two equally near the greater.
The text is positional however large or small the number is, without a point when it is
an integer.
-/

namespace MiningPool.Number

/-- A decimal: its digits as a number, and the power of ten of the last of them. -/
structure Decimal where
  digits : Nat
  exponent : Int
  deriving DecidableEq, Repr

/-- A closed or open interval of fractions over one denominator, around one of them. -/
structure Neighbourhood where
  low : Nat
  value : Nat
  high : Nat
  denominator : Nat
  /-- Whether the ends belong to the interval. -/
  closed : Bool

namespace Neighbourhood

/-- The fractions that round to a positive finite magnitude. -/
def ofMagnitude (format : Format) (magnitude : Nat) : Neighbourhood :=
  let (mantissa, exponent) := format.parts magnitude
  let unit := 1 <<< exponent
  let below := if mantissa = format.leading ∧ 0 < exponent then unit else 2 * unit
  { low := 4 * mantissa * unit - below
    value := 4 * mantissa * unit
    high := 4 * mantissa * unit + 2 * unit
    denominator := 4 <<< format.depth
    closed := mantissa % 2 = 0 }

/-- Multiply by a power of ten. -/
def scale (interval : Neighbourhood) (exponent : Int) : Neighbourhood :=
  if exponent < 0 then
    { interval with denominator := interval.denominator * Nat.pow 10 exponent.natAbs }
  else
    let factor := Nat.pow 10 exponent.natAbs
    { interval with
      low := interval.low * factor
      value := interval.value * factor
      high := interval.high * factor }

/-- Whether an integer lies in the interval. -/
def contains (interval : Neighbourhood) (integer : Nat) : Bool :=
  let scaled := integer * interval.denominator
  if interval.closed then decide (interval.low ≤ scaled ∧ scaled ≤ interval.high)
  else decide (interval.low < scaled ∧ scaled < interval.high)

/-- The integer of the interval that is nearest to its value, the greater of two. -/
def nearest? (interval : Neighbourhood) : Option Nat :=
  let below := interval.value / interval.denominator
  let twice := 2 * (interval.value % interval.denominator)
  let above := below + 1
  match interval.contains below, interval.contains above with
  | true, true => some (if interval.denominator ≤ twice then above else below)
  | true, false => some below
  | false, true => some above
  | false, false => none

end Neighbourhood

/-- The power of ten of the leading digit of a positive quotient, searched downwards. -/
def leadingExponent
    (numerator denominator : Nat) :
    (fuel : Nat) → (candidate : Int) → Int
  | 0, candidate => candidate
  | fuel + 1, candidate =>
    let reached :=
      if candidate < 0 then denominator ≤ numerator * Nat.pow 10 candidate.natAbs
      else denominator * Nat.pow 10 candidate.natAbs ≤ numerator
    if reached then candidate
    else leadingExponent numerator denominator fuel (candidate - 1)

/-- Try one digit more until a decimal of the interval is found. -/
def shortestFrom
    (interval : Neighbourhood)
    (leading : Int) :
    (fuel : Nat) → (count : Nat) → Decimal
  | 0, _ => ⟨0, 0⟩
  | fuel + 1, count =>
    let exponent := leading - count
    match (interval.scale (-exponent)).nearest? with
    | some digits => ⟨digits, exponent⟩
    | none => shortestFrom interval leading fuel (count + 1)

/-- The shortest decimal that reads back as a positive finite magnitude. -/
def shortest (format : Format) (magnitude : Nat) : Decimal :=
  let interval := Neighbourhood.ofMagnitude format magnitude
  let leading := leadingExponent interval.value interval.denominator 700 310
  shortestFrom interval leading 20 0

/-- Drop the zeros at the end of a list of digits that stands behind the point. -/
def dropZeros (digits : List Char) : List Char :=
  (digits.reverse.dropWhile (· = '0')).reverse

/-- The positional text of a decimal. -/
def Decimal.text (decimal : Decimal) : String :=
  let digits := (Nat.repr decimal.digits).toList
  if 0 ≤ decimal.exponent then
    String.ofList (digits ++ List.replicate decimal.exponent.natAbs '0')
  else
    let places := decimal.exponent.natAbs
    let padded := List.replicate (places + 1 - digits.length) '0' ++ digits
    let whole := padded.take (padded.length - places)
    let behind := dropZeros (padded.drop (padded.length - places))
    if behind.isEmpty then String.ofList whole
    else String.ofList (whole ++ '.' :: behind)

/-- The text of a floating point number. -/
def text (format : Format) (bits : Nat) : String :=
  let magnitude := format.magnitude bits
  if format.infinity < magnitude then "NaN"
  else
    let unsigned :=
      if magnitude = format.infinity then "inf"
      else if magnitude = 0 then "0"
      else (shortest format magnitude).text
    if format.isNegative bits then "-" ++ unsigned else unsigned

/-- The text of a single precision number. -/
def singleText (value : Wire.Single) : String :=
  text .single value.bits.toNat

end MiningPool.Number
