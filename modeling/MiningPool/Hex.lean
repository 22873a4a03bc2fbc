import MiningPool.Bytes

/-!
# Hexadecimal text

Byte strings as text, two digits a byte.  Lower case is written; either case is read.
-/

namespace MiningPool.Hex

/-- The lower case digit of a number below sixteen. -/
def digit (value : Nat) : Char :=
  if value < 10 then Char.ofNat (48 + value) else Char.ofNat (87 + value)

/-- The value of a hexadecimal digit of either case. -/
def value? (character : Char) : Option Nat :=
  if '0' ≤ character ∧ character ≤ '9' then some (character.toNat - 48)
  else if 'a' ≤ character ∧ character ≤ 'f' then some (character.toNat - 87)
  else if 'A' ≤ character ∧ character ≤ 'F' then some (character.toNat - 55)
  else none

/-- Write each byte as two lower case digits. -/
def encode (bytes : Bytes) : String :=
  bytes.foldl
    (fun text byte => (text.push (digit (byte.toNat / 16))).push (digit (byte.toNat % 16)))
    ""

/-- Read pairs of digits onto the reversed bytes read before. -/
def decodeOnto : List Char → Bytes → Option Bytes
  | [], taken => some taken.reverse
  | [_], _ => none
  | high :: low :: rest, taken =>
    match value? high, value? low with
    | some upper, some lower =>
      decodeOnto rest (UInt8.ofNat (16 * upper + lower) :: taken)
    | _, _ => none

/-- Read text made of pairs of hexadecimal digits. -/
def decode? (text : String) : Option Bytes :=
  decodeOnto text.toList []

end MiningPool.Hex
