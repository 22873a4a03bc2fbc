import MiningPool.Bytes

/-!
# Compact sizes

Counts and lengths are written in one byte, or as a marker and two, four or eight
bytes, least significant byte first.  Only the shortest form of a number is read.
-/

namespace MiningPool.Bitcoin.CompactSize

/-- Write a number below `2 ^ 64` in its shortest form. -/
def write (value : Nat) : Bytes :=
  if value < 0xfd then [UInt8.ofNat value]
  else if value < UInt16.size then 0xfd :: Bytes.ofNatLE 2 value
  else if value < UInt32.size then 0xfe :: Bytes.ofNatLE 4 value
  else 0xff :: Bytes.ofNatLE 8 value

/-- Read a number of `width` bytes that is too large for a shorter form. -/
def readWide (width least : Nat) (input : Bytes) : Option (Nat × Bytes) :=
  match input.cut? width with
  | none => none
  | some (bytes, rest) =>
    let value := bytes.toNatLE
    if least ≤ value then some (value, rest) else none

/-- Read a number from the front of the input. -/
def read : Bytes → Option (Nat × Bytes)
  | [] => none
  | marker :: rest =>
    if marker.toNat < 0xfd then some (marker.toNat, rest)
    else if marker.toNat = 0xfd then readWide 2 0xfd rest
    else if marker.toNat = 0xfe then readWide 4 UInt16.size rest
    else readWide 8 UInt32.size rest

end MiningPool.Bitcoin.CompactSize
