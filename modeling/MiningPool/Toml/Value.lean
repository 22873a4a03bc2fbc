/-!
# Values of a configuration text

A document is a table of values, tables and arrays of tables.  A table remembers how it
came about, because that decides how it may grow: by keys below its header, by dotted
keys, or not at all.
-/

namespace MiningPool.Toml

/-- How a table came about. -/
inductive Origin
  /-- It has a header of its own. -/
  | header
  /-- It is on the way to the header of another table. -/
  | implied
  /-- It is on the way to a dotted key. -/
  | dotted
  /-- It is written in braces. -/
  | closed
  deriving DecidableEq, Repr

/-- A value. -/
inductive Value
  | text (text : String)
  | integer (value : Int)
  /-- A double precision number by its bits. -/
  | float (bits : Nat)
  | boolean (value : Bool)
  /-- A date, a time or both, in its normal text. -/
  | moment (text : String)
  | array (items : List Value)
  | table (origin : Origin) (entries : List (String × Value))
  /-- The tables of one header in double brackets; the last one grows. -/
  | tables (last : List (String × Value)) (earlier : List (List (String × Value)))

/-- Keys with their values, in the order of the text. -/
abbrev Entries := List (String × Value)

/-- Replace the value of a key. -/
def replace (entries : Entries) (key : String) (value : Value) : Entries :=
  entries.map fun entry => if entry.1 = key then (key, value) else entry

/--
Change the table at the end of a path, making the tables on the way.  A path of dotted
keys does not enter tables with a header, and no path enters values.
-/
def descend
    (dotted : Bool)
    (change : Origin → Entries → Option Entries) :
    (path : List String) → Origin → Entries → Option Entries
  | [], origin, entries => change origin entries
  | key :: path, _, entries =>
    match entries.lookup key with
    | none =>
      let origin := if dotted then Origin.dotted else .implied
      (descend dotted change path origin []).map fun inner =>
        entries ++ [(key, .table origin inner)]
    | some (.table origin inner) =>
      if origin = .closed ∨ (dotted ∧ origin = .header) then none
      else
        (descend dotted change path origin inner).map fun inner =>
          replace entries key (.table origin inner)
    | some (.tables last earlier) =>
      (descend dotted change path .header last).map fun last =>
        replace entries key (.tables last earlier)
    | some _ => none

/-- Add a key to a table; the table must have come about as the key is written. -/
def addKey
    (isDotted : Bool)
    (key : String)
    (value : Value)
    (origin : Origin)
    (entries : Entries) :
    Option Entries :=
  if (origin = .dotted) ≠ isDotted ∨ (entries.lookup key).isSome then none
  else some (entries ++ [(key, value)])

/-- Add the value of a key, dotted or not, to the table at the end of a path. -/
def addValue
    (root : Entries)
    (table dots : List String)
    (key : String)
    (value : Value) :
    Option Entries :=
  descend false
    (fun origin entries =>
      descend true (addKey (!dots.isEmpty) key value) dots origin entries)
    table .header root

/--
Open the table of a header.  A table that was only implied before moves behind the other
entries of its parent.
-/
def openTable (root : Entries) (path : List String) (key : String) : Option Entries :=
  descend false
    (fun _ entries =>
      match entries.lookup key with
      | none => some (entries ++ [(key, .table .header [])])
      | some (.table .implied inner) =>
        some (entries.filter (·.1 ≠ key) ++ [(key, .table .header inner)])
      | some _ => none)
    path .header root

/-- Open one more table of a header in double brackets. -/
def openTables (root : Entries) (path : List String) (key : String) : Option Entries :=
  descend false
    (fun _ entries =>
      match entries.lookup key with
      | none => some (entries ++ [(key, .tables [] [])])
      | some (.tables last earlier) =>
        some (replace entries key (.tables [] (last :: earlier)))
      | some _ => none)
    path .header root

end MiningPool.Toml
