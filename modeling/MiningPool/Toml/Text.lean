import MiningPool.Hex

/-!
# Strings of a configuration text

A string is written between quotes, with escapes, or between apostrophes, as it stands;
each of them once around a single line or three times around several lines.  Every
reader takes its value off the front of a text and answers what is left of it.
-/

namespace MiningPool.Toml

/-- Whether a character may stand in a string or a comment. -/
def isPlain (character : Char) : Bool :=
  character = '\t' || (' ' ≤ character && character ≠ '\x7f')

/-- Whether a character is a space or a tab. -/
def isBlank (character : Char) : Bool :=
  character = ' ' || character = '\t'

/-- Skip spaces and tabs. -/
def skipBlanks (text : List Char) : List Char :=
  text.dropWhile isBlank

/-- Take the end of a line off the front of a text. -/
def takeNewline? : List Char → Option (List Char)
  | '\n' :: rest => some rest
  | '\r' :: '\n' :: rest => some rest
  | _ => none

/-- The number that hexadecimal digits stand for. -/
def ofHexDigits? (digits : List Char) : Option Nat :=
  digits.foldlM (fun value digit => (Hex.value? digit).map (16 * value + ·)) 0

/-- The character whose number is written in `count` hexadecimal digits. -/
def takeCodePoint? (count : Nat) (text : List Char) : Option (Char × List Char) :=
  if text.length < count then none
  else
    match ofHexDigits? (text.take count) with
    | none => none
    | some number =>
      if number.isValidChar then some (Char.ofNat number, text.drop count) else none

/-- The character that an escape stands for, behind its backslash. -/
def takeEscape? : List Char → Option (Char × List Char)
  | 'b' :: rest => some ('\x08', rest)
  | 't' :: rest => some ('\t', rest)
  | 'n' :: rest => some ('\n', rest)
  | 'f' :: rest => some ('\x0c', rest)
  | 'r' :: rest => some ('\r', rest)
  | '"' :: rest => some ('"', rest)
  | '\\' :: rest => some ('\\', rest)
  | 'u' :: rest => takeCodePoint? 4 rest
  | 'U' :: rest => takeCodePoint? 8 rest
  | _ => none

/-- Read the rest of a string in single quotes onto the reversed characters before. -/
def takeQuoted? : (fuel : Nat) → List Char → List Char → Option (String × List Char)
  | 0, _, _ => none
  | _, [], _ => none
  | fuel + 1, character :: rest, taken =>
    if character = '"' then some (String.ofList taken.reverse, rest)
    else if character = '\\' then
      match takeEscape? rest with
      | none => none
      | some (escaped, rest) => takeQuoted? fuel rest (escaped :: taken)
    else if isPlain character then takeQuoted? fuel rest (character :: taken)
    else none

/-- Read the rest of a string in single apostrophes. -/
def takeLiteral? : List Char → List Char → Option (String × List Char)
  | [], _ => none
  | character :: rest, taken =>
    if character = '\'' then some (String.ofList taken.reverse, rest)
    else if isPlain character then takeLiteral? rest (character :: taken)
    else none

/-- Skip all white space, line ends included. -/
def skipSpace : List Char → List Char
  | ' ' :: rest => skipSpace rest
  | '\t' :: rest => skipSpace rest
  | '\n' :: rest => skipSpace rest
  | '\r' :: '\n' :: rest => skipSpace rest
  | text => text

/-- How many times a character stands at the front of a text. -/
def runLength (character : Char) (text : List Char) : Nat :=
  (text.takeWhile (· = character)).length

/--
Read the rest of a string over several lines.  The quotes end it when they stand three
to five times in a row, and those beyond three belong to the string.
-/
def takeLines?
    (quote : Char)
    (escapes : Bool) :
    (fuel : Nat) → List Char → List Char → Option (String × List Char)
  | 0, _, _ => none
  | _, [], _ => none
  | fuel + 1, character :: rest, taken =>
    if character = quote then
      let run := 1 + runLength quote rest
      if run < 3 then
        takeLines? quote escapes fuel (rest.drop (run - 1)) (List.replicate run quote ++ taken)
      else if run < 6 then
        some (String.ofList (List.replicate (run - 3) quote ++ taken).reverse,
          rest.drop (run - 1))
      else none
    else
      match takeNewline? (character :: rest) with
      | some rest => takeLines? quote escapes fuel rest ('\n' :: taken)
      | none =>
        if escapes ∧ character = '\\' then
          match takeEscape? rest with
          | some (escaped, rest) => takeLines? quote escapes fuel rest (escaped :: taken)
          | none =>
            match takeNewline? (skipBlanks rest) with
            | some rest => takeLines? quote escapes fuel (skipSpace rest) taken
            | none => none
        else if isPlain character then
          takeLines? quote escapes fuel rest (character :: taken)
        else none

/-- Drop the line end right behind the opening quotes of a string over several lines. -/
def dropFirstNewline (text : List Char) : List Char :=
  (takeNewline? text).getD text

/-- Read a string of one line. -/
def takeLine? : List Char → Option (String × List Char)
  | '"' :: rest => takeQuoted? (rest.length + 1) rest []
  | '\'' :: rest => takeLiteral? rest []
  | _ => none

/-- Read a string of any of the four kinds. -/
def takeString? : List Char → Option (String × List Char)
  | '"' :: '"' :: '"' :: rest =>
    takeLines? '"' true (rest.length + 1) (dropFirstNewline rest) []
  | '\'' :: '\'' :: '\'' :: rest =>
    takeLines? '\'' false (rest.length + 1) (dropFirstNewline rest) []
  | text => takeLine? text

end MiningPool.Toml
