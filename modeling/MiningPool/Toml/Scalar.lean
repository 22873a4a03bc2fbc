import MiningPool.Number.Decimal
import MiningPool.Toml.Text
import MiningPool.Toml.Value

/-!
# Numbers and moments of a configuration text

Integers are decimal, or in base two, eight or sixteen behind their mark; single
underscores may stand between digits.  A float has a fraction or a power of ten, or is a
word.  A moment is a date, a time or both, perhaps with an offset, and is written anew
in one normal form.
-/

namespace MiningPool.Toml

open MiningPool.Number

/-- Read digits with single underscores between them onto the reversed digits before. -/
def takeDigitsOnto
    (isOne : Char → Bool) :
    List Char → List Char → Option (List Char × List Char)
  | [], _ => none
  | '_' :: _, _ => none
  | character :: rest, taken =>
    if isOne character then
      match rest with
      | '_' :: more => takeDigitsOnto isOne more (character :: taken)
      | next :: more =>
        if isOne next then takeDigitsOnto isOne (next :: more) (character :: taken)
        else some ((character :: taken).reverse, rest)
      | [] => some ((character :: taken).reverse, [])
    else none

/-- Read digits with single underscores between them. -/
def takeDigits? (isOne : Char → Bool) (text : List Char) : Option (List Char × List Char) :=
  takeDigitsOnto isOne text []

/-- Read the digits of a decimal integer, which has no needless zeros in front. -/
def takeWhole? : List Char → Option (List Char × List Char)
  | '0' :: rest => some (['0'], rest)
  | text => takeDigits? isDigit text

/-- Take a sign off the front of a text as it stands. -/
def takeSignText : List Char → List Char × List Char
  | '-' :: rest => (['-'], rest)
  | '+' :: rest => (['+'], rest)
  | text => ([], text)

/-- The least and the greatest integer are those of 64 bits. -/
def boundedInteger? (value : Int) : Option Value :=
  if Int64.minValue.toInt ≤ value ∧ value ≤ Int64.maxValue.toInt then some (.integer value)
  else none

/-- Read an integer behind the mark of its base. -/
def takeBased? (base : Nat) (text : List Char) : Option (Value × List Char) :=
  let isOne := fun character =>
    match Hex.value? character with
    | some value => decide (value < base)
    | none => false
  match takeDigits? isOne text with
  | none => none
  | some (digits, rest) =>
    let value := digits.foldl (fun sum digit => base * sum + (Hex.value? digit).getD 0) 0
    (boundedInteger? value).map (·, rest)

/-- Read the fraction of a float, if there is one. -/
def takeFraction? : List Char → Option (List Char × List Char)
  | '.' :: rest => (takeDigits? isDigit rest).map fun (digits, rest) => ('.' :: digits, rest)
  | text => some ([], text)

/-- Read the power of ten of a float, if there is one. -/
def takePower? : List Char → Option (List Char × List Char)
  | [] => some ([], [])
  | mark :: rest =>
    if mark = 'e' ∨ mark = 'E' then
      let (sign, rest) := takeSignText rest
      (takeDigits? isDigit rest).map fun (digits, rest) => ('e' :: sign ++ digits, rest)
    else some ([], mark :: rest)

/-- A float of the text of a decimal; one that is too large is refused. -/
def floatOfText? (text : List Char) : Option Value :=
  match Number.ofText? .double (String.ofList text) with
  | none => none
  | some bits => if bits = Format.double.infinity then none else some (.float bits)

/-- Read a decimal integer or a float. -/
def takeDecimal? (text : List Char) : Option (Value × List Char) := do
  let (sign, rest) := takeSignText text
  let (whole, rest) ← takeWhole? rest
  let (fraction, rest) ← takeFraction? rest
  let (power, rest) ← takePower? rest
  if fraction.isEmpty && power.isEmpty then
    let magnitude : Int := ofDigits whole
    let value ← boundedInteger? (if sign = ['-'] then -magnitude else magnitude)
    return (value, rest)
  else
    let value ← floatOfText? (sign ++ whole ++ fraction ++ power)
    return (value, rest)

/-- Read a word that stands for a float. -/
def takeFloatWord? (text : List Char) : Option (Value × List Char) :=
  let (sign, rest) := takeSignText text
  let signed := fun magnitude => Value.float (Format.double.withSign (sign = ['-']) magnitude)
  match rest with
  | 'i' :: 'n' :: 'f' :: rest => some (signed Format.double.infinity, rest)
  | 'n' :: 'a' :: 'n' :: rest => some (signed Format.double.nan, rest)
  | _ => none

/-- Read exactly `count` digits of a number that lies between two bounds. -/
def takeNumber?
    (count least greatest : Nat)
    (text : List Char) :
    Option (Nat × List Char) :=
  let digits := text.take count
  if digits.length = count ∧ digits.all isDigit then
    let value := ofDigits digits
    if least ≤ value ∧ value ≤ greatest then some (value, text.drop count) else none
  else none

/-- Take one given character off the front of a text. -/
def takeMark? (mark : Char) : List Char → Option (List Char)
  | [] => none
  | character :: rest => if character = mark then some rest else none

/-- Write a number with at least `count` digits. -/
def padded (count value : Nat) : String :=
  let digits := (Nat.repr value).toList
  String.ofList (List.replicate (count - digits.length) '0' ++ digits)

/-- The number of days of a month. -/
def daysIn (year month : Nat) : Nat :=
  let leap := year % 4 = 0 ∧ (year % 100 ≠ 0 ∨ year % 400 = 0)
  if month = 2 then (if leap then 29 else 28)
  else if month = 4 ∨ month = 6 ∨ month = 9 ∨ month = 11 then 30
  else 31

/-- Read a date. -/
def takeDate? (text : List Char) : Option (String × List Char) := do
  let (year, rest) ← takeNumber? 4 0 9999 text
  let rest ← takeMark? '-' rest
  let (month, rest) ← takeNumber? 2 1 12 rest
  let rest ← takeMark? '-' rest
  let (day, rest) ← takeNumber? 2 1 (daysIn year month) rest
  return (padded 4 year ++ "-" ++ padded 2 month ++ "-" ++ padded 2 day, rest)

/-- Read the fraction of a second; digits beyond the ninth and zeros at the end are lost. -/
def takeSecondFraction? : List Char → Option (String × List Char)
  | '.' :: rest =>
    let (digits, rest) := spanDigits rest
    if digits.isEmpty then none
    else
      let kept := ((digits.take 9).reverse.dropWhile (· = '0')).reverse
      some (if kept.isEmpty then "" else String.ofList ('.' :: kept), rest)
  | text => some ("", text)

/-- Read a time of day. -/
def takeTime? (text : List Char) : Option (String × List Char) := do
  let (hour, rest) ← takeNumber? 2 0 23 text
  let rest ← takeMark? ':' rest
  let (minute, rest) ← takeNumber? 2 0 59 rest
  let rest ← takeMark? ':' rest
  let (second, rest) ← takeNumber? 2 0 60 rest
  let (fraction, rest) ← takeSecondFraction? rest
  return (padded 2 hour ++ ":" ++ padded 2 minute ++ ":" ++ padded 2 second ++ fraction, rest)

/-- Read an offset from universal time, if there is one. -/
def takeOffset? (text : List Char) : Option (String × List Char) :=
  match takeSignText text with
  | ([], 'Z' :: rest) => some ("Z", rest)
  | ([], 'z' :: rest) => some ("Z", rest)
  | ([], rest) => some ("", rest)
  | (sign, rest) => do
    let (hour, rest) ← takeNumber? 2 0 23 rest
    let rest ← takeMark? ':' rest
    let (minute, rest) ← takeNumber? 2 0 59 rest
    let mark := if sign = ['-'] ∧ hour + minute ≠ 0 then "-" else "+"
    return (mark ++ padded 2 hour ++ ":" ++ padded 2 minute, rest)

/-- Read the time behind a date, if there is one. -/
def takeTimeBehindDate? (date : String) (text : List Char) : Option (String × List Char) :=
  match text with
  | [] => some (date, [])
  | mark :: rest =>
    if mark = 'T' ∨ mark = 't' ∨ mark = ' ' then
      match takeTime? rest with
      | none => some (date, text)
      | some (time, rest) =>
        (takeOffset? rest).map fun (offset, rest) => (date ++ "T" ++ time ++ offset, rest)
    else some (date, text)

/-- Read a moment. -/
def takeMoment? (text : List Char) : Option (Value × List Char) :=
  let read :=
    match takeDate? text with
    | some (date, rest) => takeTimeBehindDate? date rest
    | none => takeTime? text
  read.map fun (moment, rest) => (.moment moment, rest)

/-- Read a number or a moment. -/
def takeNumeral? (text : List Char) : Option (Value × List Char) :=
  match text with
  | '0' :: 'x' :: rest => takeBased? 16 rest
  | '0' :: 'o' :: rest => takeBased? 8 rest
  | '0' :: 'b' :: rest => takeBased? 2 rest
  | _ => takeMoment? text <|> takeFloatWord? text <|> takeDecimal? text

/-- Read a value that holds no others. -/
def takeScalar? (text : List Char) : Option (Value × List Char) :=
  match text with
  | 't' :: 'r' :: 'u' :: 'e' :: rest => some (.boolean true, rest)
  | 'f' :: 'a' :: 'l' :: 's' :: 'e' :: rest => some (.boolean false, rest)
  | '"' :: _ => (takeString? text).map fun (value, rest) => (.text value, rest)
  | '\'' :: _ => (takeString? text).map fun (value, rest) => (.text value, rest)
  | _ => takeNumeral? text

end MiningPool.Toml
