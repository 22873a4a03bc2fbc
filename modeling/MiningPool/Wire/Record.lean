import MiningPool.Wire.Shape

/-!
# Records

A schema lists the fields of a record, their names and shapes, in the order in
which they are written.  A structure becomes a record by naming its schema and by
taking itself apart into field values and back; its size, its written form and its
reader then come from the schema.
-/

namespace MiningPool.Wire

/-- The fields of a record in the order of the wire. -/
abbrev Schema := List (String × Shape)

namespace Schema

/-- The values of the fields of a schema. -/
@[reducible]
def Values : Schema → Type
  | [] => Unit
  | (_, shape) :: rest => shape.Value × Values rest

/-- The number of bytes the fields take on the wire. -/
def size : (schema : Schema) → schema.Values → Nat
  | [], _ => 0
  | (_, shape) :: rest, (value, values) => shape.size value + size rest values

/-- Write the fields one after the other. -/
def write : (schema : Schema) → schema.Values → (room : Nat) → Except WireError Bytes
  | [], _, _ => .ok []
  | (_, shape) :: rest, (value, values), room =>
    writeThen (shape.write value room) room (write rest values)

/-- Read the fields one after the other. -/
def read : (schema : Schema) → Bytes → Except WireError (schema.Values × Bytes)
  | [], input => .ok ((), input)
  | (_, shape) :: rest, input => do
    let (value, input) ← shape.read input
    let (values, input) ← read rest input
    return ((value, values), input)

end Schema

/-- A structure whose fields are written one after the other. -/
class Record (α : Type) where
  /-- The names and shapes of the fields in the order of the wire. -/
  schema : Schema
  /-- Take the structure apart. -/
  toFields : α → schema.Values
  /-- Put the structure together. -/
  ofFields : schema.Values → α
  ofFields_toFields : ∀ value : α, ofFields (toFields value) = value := by intro; rfl
  toFields_ofFields : ∀ fields : schema.Values, toFields (ofFields fields) = fields := by
    intro; rfl

namespace Record

variable {α : Type} [Record α]

/-- The number of bytes a record takes on the wire. -/
def size (value : α) : Nat :=
  (schema α).size (toFields value)

/-- Write a record into a destination with `room` bytes left. -/
def write (value : α) (room : Nat) : Except WireError Bytes :=
  (schema α).write (toFields value) room

/-- Read a record from the front of the input. -/
def read (input : Bytes) : Except WireError (α × Bytes) := do
  let (fields, rest) ← (schema α).read input
  return (ofFields fields, rest)

end Record

end MiningPool.Wire
