import MiningPool.Form.Basic
import MiningPool.Message.Basic

/-!
# Showing things

Messages and all other records are shown field by field under the names of their schema,
so the form of a record says nothing the schema does not.
-/

namespace MiningPool

open MiningPool.Wire

/-- Things that can be shown. -/
class ToForm (α : Type) where
  toForm : α → Form

export ToForm (toForm)

/-- A named value. -/
def entry {α : Type} [ToForm α] (name : String) (value : α) : String × Form :=
  (name, toForm value)

instance : ToForm Form := ⟨id⟩

instance : ToForm Unit := ⟨fun _ => .nothing⟩

instance : ToForm Bool := ⟨.flag⟩

instance : ToForm Int := ⟨.number⟩

instance : ToForm Nat := ⟨fun value => .number value⟩

instance : ToForm UInt8 := ⟨fun value => .number value.toNat⟩

instance : ToForm UInt16 := ⟨fun value => .number value.toNat⟩

instance : ToForm UInt32 := ⟨fun value => .number value.toNat⟩

instance : ToForm UInt64 := ⟨fun value => .number value.toNat⟩

instance : ToForm U24 := ⟨fun value => .number value.toNat⟩

instance : ToForm String := ⟨.text⟩

instance {α : Type} [ToForm α] : ToForm (Option α) where
  toForm
    | none => .nothing
    | some value => toForm value

instance {α β : Type} [ToForm α] [ToForm β] : ToForm (α ⊕ β) where
  toForm
    | .inl value => toForm value
    | .inr value => toForm value

instance {α : Type} [ToForm α] : ToForm (List α) where
  toForm items := .list (items.map toForm)

instance {α β : Type} [ToForm α] [ToForm β] : ToForm (α × β) where
  toForm pair := .list [toForm pair.1, toForm pair.2]

instance : ToForm Bytes := ⟨.bytes⟩

instance {width : Width} : ToForm (Blob width) := ⟨fun blob => .bytes blob.bytes⟩

/-- Numbers of single precision are shown by their bits, most significant byte first. -/
instance : ToForm Single where
  toForm value := .bytes (Bytes.ofNatBE 4 value.bits.toNat)

/-- Numbers of double precision are shown by their bits, most significant byte first. -/
instance : ToForm Float where
  toForm value := .bytes (Bytes.ofNatBE 8 value.toBits.toNat)

namespace Form

/-- The form of a value of a shape. -/
def ofValue : (shape : Shape) → shape.Value → Form
  | .u8, value => toForm (α := UInt8) value
  | .u16, value => toForm (α := UInt16) value
  | .u24, value => toForm (α := U24) value
  | .u32, value => toForm (α := UInt32) value
  | .u64, value => toForm (α := UInt64) value
  | .single, value => toForm (α := Single) value
  | .bool, value => .flag value
  | .protocol, value => toForm (Protocol.code value)
  | .blob width, value => toForm (α := Blob width) value
  | .option _, none => .nothing
  | .option element, some value => ofValue element value
  | .seq _ element, value => .list (value.items.map (ofValue element))

/-- The named values of a schema. -/
def ofValues : (schema : Schema) → schema.Values → List (String × Form)
  | [], _ => []
  | (name, shape) :: rest, (value, values) => (name, ofValue shape value) :: ofValues rest values

/-- The form of a record. -/
def ofRecord {α : Type} [Record α] (value : α) : Form :=
  .fields (ofValues (Record.schema α) (Record.toFields value))

end Form

instance (priority := low) {α : Type} [Record α] : ToForm α := ⟨Form.ofRecord⟩

/-- A message is shown with its family and its kind. -/
instance : ToForm Message where
  toForm message :=
    .fields
      [entry "protocol" message.kind.subprotocol.name,
       entry "name" message.kind.name,
       entry "fields" (Form.ofRecord message.body)]

end MiningPool
