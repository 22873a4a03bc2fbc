import MiningPool.Toml.Scalar

/-!
# Moments written as tables

A table may stand for a moment: its first key is the key of moments, and the value of
that key is a string that holds a moment and nothing else.  What comes behind the first
key does not matter then.  A document whose tables break this rule has no value.
-/

namespace MiningPool.Toml

/-- The key that makes a table stand for a moment, if it comes first. -/
def momentKey : String := "$__toml_private_datetime"

/-- The moment that makes up a text. -/
def momentOfText? (text : String) : Option Value :=
  match takeMoment? text.toList with
  | some (moment, []) => some moment
  | _ => none

/-- The moment that a value under the key of moments stands for. -/
def Value.moment? : Value → Option Value
  | .text content => momentOfText? content
  | _ => none

mutual

/-- The value that a value of a document stands for. -/
def Value.settle? : Value → Option Value
  | .array items => (settleItems? items []).map .array
  | .table origin entries => settleTable? origin entries
  | .tables last earlier => do
    let earlier ← settleTables? earlier []
    let last ← settleTable? .header last
    return .array (earlier ++ [last])
  | .text content => some (.text content)
  | .integer number => some (.integer number)
  | .float bits => some (.float bits)
  | .boolean truth => some (.boolean truth)
  | .moment content => some (.moment content)

/-- The value that a table stands for: itself or a moment. -/
def settleTable? (origin : Origin) : List (String × Value) → Option Value
  | [] => some (.table origin [])
  | (key, value) :: rest =>
    if key = momentKey then value.moment?
    else
      match value.settle? with
      | none => none
      | some value => (settleEntries? rest [(key, value)]).map (.table origin)

/-- Settle the values of keys behind the reversed entries before. -/
def settleEntries? :
    List (String × Value) → List (String × Value) → Option (List (String × Value))
  | [], settled => some settled.reverse
  | (key, value) :: rest, settled =>
    match value.settle? with
    | none => none
    | some value => settleEntries? rest ((key, value) :: settled)

/-- Settle the items of an array behind the reversed items before. -/
def settleItems? : List Value → List Value → Option (List Value)
  | [], settled => some settled.reverse
  | item :: rest, settled =>
    match item.settle? with
    | none => none
    | some item => settleItems? rest (item :: settled)

/-- Settle the tables of one header, from the last to the first. -/
def settleTables? : List (List (String × Value)) → List Value → Option (List Value)
  | [], settled => some settled
  | table :: rest, settled =>
    match settleTable? .header table with
    | none => none
    | some table => settleTables? rest (table :: settled)

end

/-- The entries of a document whose values are settled; a moment has none. -/
def settled? (entries : Entries) : Option Entries :=
  match settleTable? .header entries with
  | some (.table _ entries) => some entries
  | _ => none

end MiningPool.Toml
