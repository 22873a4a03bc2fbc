import MiningPool.Wire.Value

/-!
# Shapes

A shape describes a type of the wire format: a machine word, a byte string, an
optional value, a sequence, nested to any depth.  `Shape.Value` is the type of the
values of a shape, and `size`, `write` and `read` are defined on all shapes at once.

Writing is told how many bytes of room its destination has left.  Each indivisible
part claims its own room before it is written, so the failure names the first part
that does not fit.  Reading returns the value and the bytes after it.
-/

namespace MiningPool.Wire

/-- A type of the wire format. -/
inductive Shape
  | u8
  | u16
  | u24
  | u32
  | u64
  | single
  | bool
  | protocol
  | blob (width : Width)
  | option (element : Shape)
  | seq (count : Count) (element : Shape)
  deriving DecidableEq, Repr

/-- Claim room for an indivisible part. -/
def place (part : Bytes) (room : Nat) : Except WireError Bytes :=
  if room < part.length then .error (.destinationTooShort part.length room)
  else .ok part

/-- Read a number of `count` bytes, least significant byte first. -/
def readNat (count : Nat) (input : Bytes) : Except WireError (Nat × Bytes) :=
  match input.cut? count with
  | none => .error .outOfBounds
  | some (bytes, rest) => .ok (bytes.toNatLE, rest)

/-- Read a three byte number. -/
def readU24 (input : Bytes) : Except WireError (U24 × Bytes) :=
  match input.cut? U24.size with
  | none => .error .outOfBounds
  | some (bytes, rest) =>
    match U24.ofNat bytes.toNatLE with
    | .error failure => .error failure
    | .ok value => .ok (value, rest)

/-- Read a truth value, which is written as zero or one. -/
def readBool : Bytes → Except WireError (Bool × Bytes)
  | [] => .error .outOfBounds
  | byte :: rest =>
    if byte = 0 then .ok (false, rest)
    else if byte = 1 then .ok (true, rest)
    else .error (.notABool byte.toNat)

/-- Read the number of a subprotocol. -/
def readProtocol : Bytes → Except WireError (Protocol × Bytes)
  | [] => .error .outOfBounds
  | byte :: rest =>
    match Protocol.ofCode byte with
    | .error failure => .error failure
    | .ok protocol => .ok (protocol, rest)

/-- Read the length of a byte string; a fixed length is not on the wire. -/
def readLength (width : Width) (input : Bytes) : Except WireError (Nat × Bytes) :=
  match width with
  | .u256 => .ok (32, input)
  | width => readNat width.header input

/-- Read a byte string: its length, whether the type admits it, its bytes. -/
def readBlob (width : Width) (input : Bytes) : Except WireError (Blob width × Bytes) :=
  match readLength width input with
  | .error failure => .error failure
  | .ok (length, rest) =>
    if width.Admits length then
      match rest.cut? length with
      | none => .error .outOfBounds
      | some (bytes, rest) =>
        match Blob.ofBytes bytes with
        | .error failure => .error failure
        | .ok blob => .ok (blob, rest)
    else
      .error (width.refusal length)

/-- Read an optional value: a count of zero or one, then that many elements. -/
def readOption
    {α : Type}
    (readElement : Bytes → Except WireError (α × Bytes)) :
    Bytes → Except WireError (Option α × Bytes)
  | [] => .error .outOfBounds
  | byte :: rest =>
    if byte = 0 then .ok (none, rest)
    else if byte = 1 then
      match readElement rest with
      | .error failure => .error failure
      | .ok (element, rest) => .ok (some element, rest)
    else .error (.severalOptionElements byte.toNat)

/-- Read `remaining` elements onto the reversed elements read before. -/
def readItems
    {α : Type}
    (readElement : Bytes → Except WireError (α × Bytes)) :
    (remaining : Nat) → Bytes → List α → Except WireError (List α × Bytes)
  | 0, input, taken => .ok (taken.reverse, input)
  | remaining + 1, input, taken =>
    match readElement input with
    | .error failure => .error failure
    | .ok (element, rest) => readItems readElement remaining rest (element :: taken)

/-- Read a sequence: the number of its elements, then the elements. -/
def readSequence
    {α : Type}
    (count : Count)
    (readElement : Bytes → Except WireError (α × Bytes))
    (input : Bytes) :
    Except WireError (Sequence count α × Bytes) :=
  match readNat count.header input with
  | .error failure => .error failure
  | .ok (length, rest) =>
    match readItems readElement length rest [] with
    | .error failure => .error failure
    | .ok (items, rest) =>
      match Sequence.ofList items with
      | .error failure => .error failure
      | .ok sequence => .ok (sequence, rest)

/-- Write elements after the reversed parts written before. -/
def writeItems
    {α : Type}
    (writeElement : α → (room : Nat) → Except WireError Bytes) :
    List α → (room : Nat) → List Bytes → Except WireError Bytes
  | [], _, parts => .ok (parts.foldl (fun back part => part ++ back) [])
  | item :: items, room, parts =>
    match writeElement item room with
    | .error failure => .error failure
    | .ok part => writeItems writeElement items (room - part.length) (part :: parts)

/-- Write a first part, then a second in the room that is left. -/
def writeThen
    (first : Except WireError Bytes)
    (room : Nat)
    (second : (room : Nat) → Except WireError Bytes) :
    Except WireError Bytes :=
  match first with
  | .error failure => .error failure
  | .ok front =>
    match second (room - front.length) with
    | .error failure => .error failure
    | .ok back => .ok (front ++ back)

namespace Shape

/-- The values of a shape. -/
@[reducible]
def Value : Shape → Type
  | u8 => UInt8
  | u16 => UInt16
  | u24 => U24
  | u32 => UInt32
  | u64 => UInt64
  | single => Single
  | bool => Bool
  | protocol => Protocol
  | blob width => Blob width
  | option element => Option element.Value
  | seq count element => Sequence count element.Value

/-- The number of bytes a value takes on the wire. -/
def size : (shape : Shape) → shape.Value → Nat
  | u8, _ => 1
  | u16, _ => 2
  | u24, _ => 3
  | u32, _ => 4
  | u64, _ => 8
  | single, _ => 4
  | bool, _ => 1
  | protocol, _ => 1
  | blob _, value => value.size
  | option _, none => 1
  | option element, some value => 1 + element.size value
  | seq count element, sequence =>
    sequence.items.foldl (fun total item => total + element.size item) count.header

/-- Write a value into a destination with `room` bytes left. -/
def write : (shape : Shape) → shape.Value → (room : Nat) → Except WireError Bytes
  | u8, value, room => place (Bytes.ofNatLE 1 value.toNat) room
  | u16, value, room => place (Bytes.ofNatLE 2 value.toNat) room
  | u24, value, room => place (Bytes.ofNatLE 3 value.toNat) room
  | u32, value, room => place (Bytes.ofNatLE 4 value.toNat) room
  | u64, value, room => place (Bytes.ofNatLE 8 value.toNat) room
  | single, value, room => place (Bytes.ofNatLE 4 value.bits.toNat) room
  | bool, value, room => place [if value then 1 else 0] room
  | protocol, value, room => place [value.code] room
  | blob width, value, room =>
    place (Bytes.ofNatLE width.header value.bytes.length ++ value.bytes) room
  | option _, none, room => place [0] room
  | option element, some value, room =>
    writeThen (place [1] room) room (element.write value)
  | seq count element, sequence, room =>
    writeThen (place (Bytes.ofNatLE count.header sequence.items.length) room) room
      fun left => writeItems element.write sequence.items left []

/-- Read a value from the front of the input. -/
def read : (shape : Shape) → Bytes → Except WireError (shape.Value × Bytes)
  | u8, input => do let (value, rest) ← readNat 1 input; return (UInt8.ofNat value, rest)
  | u16, input => do let (value, rest) ← readNat 2 input; return (UInt16.ofNat value, rest)
  | u24, input => readU24 input
  | u32, input => do let (value, rest) ← readNat 4 input; return (UInt32.ofNat value, rest)
  | u64, input => do let (value, rest) ← readNat 8 input; return (UInt64.ofNat value, rest)
  | single, input => do
    let (value, rest) ← readNat 4 input
    return (⟨UInt32.ofNat value⟩, rest)
  | bool, input => readBool input
  | protocol, input => readProtocol input
  | blob width, input => readBlob width input
  | option element, input => readOption element.read input
  | seq count element, input => readSequence count element.read input

end Shape

end MiningPool.Wire
