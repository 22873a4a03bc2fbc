import MiningPool.Policy.Basic
import MiningPool.Policy.Key
import MiningPool.Toml.Document

/-!
# Policies from configuration texts

The settings of a policy are keys of a configuration text, in any case of letters; other
keys are ignored.  A value need not have the type of its setting: numbers, truth values
and texts are converted where that makes sense, tables and arrays nowhere.
-/

namespace MiningPool.Policy

open MiningPool.Number MiningPool.Toml

/-- The words that stand for a truth value, in any case of letters. -/
def truthOfWord? (text : String) : Option Bool :=
  match inSmallLetters text with
  | "true" | "on" | "yes" => some true
  | "false" | "off" | "no" => some false
  | _ => none

/-- The bits of the double precision number nearest to an integer. -/
def doubleOfInteger (value : Int) : Nat :=
  Format.double.withSign (value < 0) (Format.double.round value.natAbs 1)

/-- One or zero in double precision. -/
def doubleOfTruth (value : Bool) : Nat :=
  doubleOfInteger (if value then 1 else 0)

/-- A value as a double precision number. -/
def toDouble? : Value → Option Nat
  | .float bits => some bits
  | .integer value => some (doubleOfInteger value)
  | .boolean value => some (doubleOfTruth value)
  | .text text =>
    match truthOfWord? text with
    | some value => some (doubleOfTruth value)
    | none => Number.ofText? .double text
  | _ => none

/-- A value as a single precision number. -/
def toSingle? (value : Value) : Option Wire.Single :=
  (toDouble? value).map fun bits =>
    ⟨UInt32.ofNat (Format.convert .double .single bits)⟩

/-- The largest count. -/
def maxCount : Nat := UInt64.size - 1

/-- The count nearest to a double precision number; halves are rounded up. -/
def countOfDouble (bits : Nat) : Nat :=
  let magnitude := Format.double.magnitude bits
  if Format.double.isNaN bits || Format.double.isNegative bits then 0
  else if magnitude = Format.double.infinity then maxCount
  else
    let (numerator, denominator) := Format.double.fraction magnitude
    min ((2 * numerator + denominator) / (2 * denominator)) maxCount

/-- The count whose digits make up a text, perhaps behind a plus sign. -/
def countOfText? (text : String) : Option Nat :=
  let digits :=
    match text.toList with
    | '+' :: rest => rest
    | digits => digits
  if digits.isEmpty || !digits.all isDigit then none
  else
    let count := ofDigits digits
    if count ≤ maxCount then some count else none

/-- A value as a count. -/
def toCount? : Value → Option Nat
  | .integer value => if value < 0 then none else some value.toNat
  | .boolean value => some (if value then 1 else 0)
  | .float bits => some (countOfDouble bits)
  | .text text =>
    match truthOfWord? text with
    | some value => some (if value then 1 else 0)
    | none => countOfText? text
  | _ => none

/-- A value as a truth value. -/
def toTruth? : Value → Option Bool
  | .boolean value => some value
  | .integer value => some (value ≠ 0)
  | .float bits => some (Format.double.magnitude bits ≠ 0)
  | .text "1" => some true
  | .text "0" => some false
  | .text text => truthOfWord? text
  | _ => none

/-- A value as a text. -/
def toText? : Value → Option String
  | .text text => some text
  | .moment text => some text
  | .boolean value => some (if value then "true" else "false")
  | .integer value => some (Int.repr value)
  | .float bits => some (Number.text .double bits)
  | _ => none

/-- The values that the entries of a configuration text give to a setting or its parts. -/
def given (entries : Entries) (name : String) : List Value :=
  entries.filterMap fun (text, value) =>
    let key := Key.ofText text
    if key.name = name then some (valueBehind value key.steps) else none

/-- Whether a value is a table without entries, which changes no other value. -/
def isEmptyTable : Value → Bool
  | .table _ [] => true
  | _ => false

/-- Convert the last value that is given to a setting, an empty table only for want of others. -/
def setting?
    {α : Type}
    (entries : Entries)
    (convert : Value → Option α)
    (absent : Option α)
    (name : String) :
    Option α :=
  let values := given entries name
  match (values.filter (!isEmptyTable ·)).getLast? <|> values.getLast? with
  | none => absent
  | some value => convert value

/-- The settings among the entries of a configuration text. -/
def settings? (entries : Entries) : Option Settings := do
  let sharesPerMinute ← setting? entries toSingle? none "expected_shares_per_minute"
  let batchSize ← setting? entries toCount? none "share_batch_size"
  let tag ← setting? entries toText? (some "") "pool_tag_string"
  let payoutScript ← setting? entries toText? none "pool_payout_script_pubkey"
  let versionRolling ← setting? entries toTruth? (some true) "version_rolling_allowed"
  return { sharesPerMinute, batchSize, tag, payoutScript, versionRolling }

/-- The policy of a configuration text. -/
def ofText (text : String) : Except PolicyError Policy :=
  match Toml.read? text with
  | none => .error .unreadable
  | some entries =>
    match settings? entries with
    | none => .error .unreadable
    | some settings => ofSettings settings

end MiningPool.Policy
