import MiningPool.Number.Binary

/-!
# Reading decimals

The text of a floating point number is an optional sign and then either a word for
infinity or for no number, in any case of letters, or digits with an optional point
among or around them and an optional power of ten.  The number read is the one nearest
to the decimal.
-/

namespace MiningPool.Number

/-- Whether a character is a decimal digit. -/
def isDigit (character : Char) : Bool :=
  '0' ≤ character && character ≤ '9'

/-- The number that digits stand for. -/
def ofDigits (digits : List Char) : Nat :=
  digits.foldl (fun value digit => 10 * value + (digit.toNat - 48)) 0

/-- Split the digits off the front of a text. -/
def spanDigits (text : List Char) : List Char × List Char :=
  text.span isDigit

/-- Take an optional sign; the answer tells whether it was a minus. -/
def takeSign : List Char → Bool × List Char
  | '-' :: rest => (true, rest)
  | '+' :: rest => (false, rest)
  | text => (false, text)

/-- Read the power of ten at the end of a text; without one it is zero. -/
def exponentOfText : List Char → Option Int
  | [] => some 0
  | mark :: rest =>
    if mark = 'e' ∨ mark = 'E' then
      let (negative, rest) := takeSign rest
      let (digits, rest) := spanDigits rest
      if digits.isEmpty || !rest.isEmpty then none
      else some (if negative then -(ofDigits digits : Int) else ofDigits digits)
    else none

/-- The magnitude nearest to a number of `count` digits times a power of ten. -/
def roundDecimal
    (format : Format)
    (digits count : Nat)
    (exponent : Int) :
    Nat :=
  if digits = 0 then 0
  else if 400 < exponent + count then format.infinity
  else if exponent + count < -400 then 0
  else if exponent < 0 then format.round digits (Nat.pow 10 exponent.natAbs)
  else format.round (digits * Nat.pow 10 exponent.natAbs) 1

/-- Read the magnitude of a decimal without a sign. -/
def magnitudeOfText? (format : Format) (text : List Char) : Option Nat :=
  let (whole, rest) := spanDigits text
  let (behind, rest) :=
    match rest with
    | '.' :: rest => spanDigits rest
    | rest => ([], rest)
  if whole.isEmpty && behind.isEmpty then none
  else
    match exponentOfText rest with
    | none => none
    | some exponent =>
      let significant := (whole ++ behind).dropWhile (· = '0')
      some <|
        roundDecimal format (ofDigits significant) significant.length
          (exponent - behind.length)

/-- Read the bits of a floating point number that takes up the whole text. -/
def ofText? (format : Format) (text : String) : Option Nat :=
  let (negative, unsigned) := takeSign text.toList
  let word := String.ofList (unsigned.map Char.toLower)
  let magnitude :=
    if word = "inf" ∨ word = "infinity" then some format.infinity
    else if word = "nan" then some format.nan
    else magnitudeOfText? format unsigned
  magnitude.map (format.withSign negative)

end MiningPool.Number
