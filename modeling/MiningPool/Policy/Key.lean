import MiningPool.Toml.Scalar

/-!
# Keys of settings

A key is a path: the name of a setting and steps from its value to a part of it, each of
them a name behind a dot or a number in brackets.  The key of a whole setting has no
steps.  A text that is no path is a name as it stands.  Names do not tell large letters
from small ones.
-/

namespace MiningPool.Policy

open MiningPool.Number MiningPool.Toml

/-- The small form of a letter; the sign of the kelvin is a large K. -/
def smallLetter (character : Char) : Char :=
  if character = '\u212a' then 'k' else character.toLower

/-- A text in small letters. -/
def inSmallLetters (text : String) : String :=
  String.ofList (text.toList.map smallLetter)

/-- One step from a value to a part of it. -/
inductive Step
  /-- To the value of a key of a table. -/
  | member (name : String)
  /-- To an item of an array, counted from its end if the number is negative. -/
  | item (index : Int)
  deriving DecidableEq, Repr

/-- Whether a character may stand in a name of a path. -/
def isNameCharacter (character : Char) : Bool :=
  character.isAlphanum || character = ' ' || character = '_' || character = '-'

/-- Read a name of a path. -/
def takeName? (text : List Char) : Option (String × List Char) :=
  let (name, rest) := text.span isNameCharacter
  if name.isEmpty then none else some (String.ofList name, rest)

/-- Read a number behind its opening bracket, up to its closing bracket. -/
def takeIndex? (text : List Char) : Option (Int × List Char) :=
  let (isNegative, rest) :=
    match skipBlanks text with
    | '-' :: rest => (true, rest)
    | rest => (false, rest)
  let (digits, rest) := spanDigits rest
  let magnitude : Int := ofDigits digits
  let index := if isNegative then -magnitude else magnitude
  if digits.isEmpty ∨ index < Int64.minValue.toInt ∨ Int64.maxValue.toInt < index then none
  else (takeMark? ']' (skipBlanks rest)).map (index, ·)

/-- Read one step of a path. -/
def takeStep? : List Char → Option (Step × List Char)
  | '.' :: rest => (takeName? rest).map fun (name, rest) => (.member name, rest)
  | '[' :: rest => (takeIndex? rest).map fun (index, rest) => (.item index, rest)
  | _ => none

/-- Read the steps of a path up to the end of the text. -/
def takeSteps? : (fuel : Nat) → List Char → Option (List Step)
  | _, [] => some []
  | 0, _ => none
  | fuel + 1, text => do
    let (step, rest) ← takeStep? text
    let steps ← takeSteps? fuel rest
    return step :: steps

/-- A key: the name of a setting and the steps to a part of it. -/
structure Key where
  name : String
  steps : List Step
  deriving DecidableEq, Repr

namespace Key

/-- The key of a text that is a path. -/
def ofPath? (text : String) : Option Key := do
  let (name, rest) ← takeName? text.toList
  let steps ← takeSteps? rest.length rest
  return ⟨name, steps⟩

/-- The key of a text, which is a name as it stands unless it is a path. -/
def ofText (text : String) : Key :=
  let text := inSmallLetters text
  (ofPath? text).getD ⟨text, []⟩

end Key

/-- A value at the end of steps, inside the tables and arrays on the way. -/
def valueBehind (value : Value) : List Step → Value
  | [] => value
  | .member name :: steps => .table .implied [(name, valueBehind value steps)]
  | .item _ :: steps => .array [valueBehind value steps]

end MiningPool.Policy
