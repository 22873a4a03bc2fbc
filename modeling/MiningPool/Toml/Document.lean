import MiningPool.Toml.Moment

/-!
# Configuration documents

A document is a sequence of lines: headers of tables, keys with their values, comments
and blank lines.  Values may hold others to a bounded depth.  At the end the tables that
stand for moments are replaced by these.
-/

namespace MiningPool.Toml

/-- How many values may lie within each other, and how many parts a key may have. -/
def depthLimit : Nat := 79

/-- Whether a character may stand in a key without quotes. -/
def isBare (character : Char) : Bool :=
  character.isAlphanum || character = '_' || character = '-'

/-- Read one part of a key. -/
def takeKeyPart? (text : List Char) : Option (String × List Char) :=
  match text with
  | '"' :: _ => takeLine? text
  | '\'' :: _ => takeLine? text
  | _ =>
    let (part, rest) := text.span isBare
    if part.isEmpty then none else some (String.ofList part, rest)

/-- Read a key, whose parts are joined by dots. -/
def takeKey? : (fuel : Nat) → List Char → Option (List String × List Char)
  | 0, _ => none
  | fuel + 1, text => do
    let (part, rest) ← takeKeyPart? (skipBlanks text)
    match skipBlanks rest with
    | '.' :: rest =>
      let (parts, rest) ← takeKey? fuel rest
      return (part :: parts, rest)
    | rest => return ([part], rest)

/-- Skip a comment, if there is one. -/
def skipComment : List Char → List Char
  | '#' :: rest => rest.dropWhile isPlain
  | text => text

/-- Skip white space, line ends and comments between the items of an array. -/
def skipBetween : (fuel : Nat) → List Char → List Char
  | 0, text => text
  | fuel + 1, text =>
    match skipSpace text with
    | '#' :: rest =>
      let rest := rest.dropWhile isPlain
      match takeNewline? rest with
      | some rest => skipBetween fuel rest
      | none => rest
    | rest => rest

/-- Read the items of an array up to its closing bracket. -/
def takeItems?
    (takeItem? : List Char → Option (Value × List Char)) :
    (fuel : Nat) → List Char → List Value → Option (List Value × List Char)
  | 0, _, _ => none
  | fuel + 1, text, taken =>
    let text := skipBetween text.length text
    match text with
    | ']' :: rest => some (taken.reverse, rest)
    | _ =>
      match takeItem? text with
      | none => none
      | some (item, rest) =>
        match skipBetween rest.length rest with
        | ',' :: rest => takeItems? takeItem? fuel rest (item :: taken)
        | ']' :: rest => some ((item :: taken).reverse, rest)
        | _ => none

/-- Read a key, the sign of equality and a value. -/
def takePair?
    (takeItem? : List Char → Option (Value × List Char))
    (text : List Char) :
    Option (List String × Value × List Char) := do
  let (key, rest) ← takeKey? depthLimit text
  let rest ← takeMark? '=' rest
  let (value, rest) ← takeItem? (skipBlanks rest)
  return (key, value, rest)

/-- Read the keys of a table in braces, from a key on, up to its closing brace. -/
def takeClosed?
    (takeItem? : List Char → Option (Value × List Char)) :
    (fuel : Nat) → List Char → Entries → Option (Entries × List Char)
  | 0, _, _ => none
  | fuel + 1, text, entries => do
    let (key, value, rest) ← takePair? takeItem? text
    let entries ← addValue entries [] key.dropLast (key.getLastD "") value
    match skipBlanks rest with
    | ',' :: rest => takeClosed? takeItem? fuel rest entries
    | '\x7d' :: rest => return (entries, rest)
    | _ => none

/-- Read a value that holds others to a depth. -/
def takeValue? : (depth : Nat) → List Char → Option (Value × List Char)
  | depth, '[' :: rest =>
    match depth with
    | 0 => none
    | depth + 1 => do
      let (items, rest) ← takeItems? (takeValue? depth) (rest.length + 1) rest []
      return (.array items, rest)
  | depth, '\x7b' :: rest =>
    match depth with
    | 0 => none
    | depth + 1 =>
      match skipBlanks rest with
      | '\x7d' :: rest => some (.table .closed [], rest)
      | rest => do
        let (entries, rest) ← takeClosed? (takeValue? depth) (rest.length + 1) rest []
        return (.table .closed entries, rest)
  | _, text => takeScalar? text

/-- What has been read of a document: its entries and the table that is open. -/
structure Document where
  entries : Entries
  table : List String

/-- Read the line of a header behind its opening bracket. -/
def takeHeader? (document : Document) (text : List Char) : Option (Document × List Char) :=
  match text with
  | '[' :: rest => do
    let (key, rest) ← takeKey? depthLimit rest
    let rest ← takeMark? ']' rest
    let rest ← takeMark? ']' rest
    let entries ← openTables document.entries key.dropLast (key.getLastD "")
    return (⟨entries, key⟩, rest)
  | _ => do
    let (key, rest) ← takeKey? depthLimit text
    let rest ← takeMark? ']' rest
    let entries ← openTable document.entries key.dropLast (key.getLastD "")
    return (⟨entries, key⟩, rest)

/-- Read what stands on a line, up to a comment or its end. -/
def takeContent? (document : Document) (text : List Char) : Option (Document × List Char) :=
  match text with
  | [] => some (document, text)
  | '#' :: _ => some (document, text)
  | '\n' :: _ => some (document, text)
  | '\r' :: _ => some (document, text)
  | '[' :: rest => takeHeader? document rest
  | _ => do
    let (key, value, rest) ← takePair? (takeValue? depthLimit) text
    let entries ←
      addValue document.entries document.table key.dropLast (key.getLastD "") value
    return ({ document with entries }, rest)

/-- Read lines up to the end of the text. -/
def readLines? : (fuel : Nat) → Document → List Char → Option Document
  | 0, _, _ => none
  | fuel + 1, document, text => do
    let (document, rest) ← takeContent? document (skipBlanks text)
    match skipComment (skipBlanks rest) with
    | [] => return document
    | rest => readLines? fuel document (← takeNewline? rest)

/-- Drop the mark that may stand in front of a text. -/
def dropByteOrderMark : List Char → List Char
  | '\ufeff' :: rest => rest
  | text => text

/-- Read a document. -/
def read? (text : String) : Option Entries := do
  let characters := dropByteOrderMark text.toList
  let document ← readLines? (characters.length + 1) ⟨[], []⟩ characters
  settled? document.entries

end MiningPool.Toml
