import MiningPool.Form.Report
import MiningPool.Hex

/-!
# Entering things

What is shown can be entered again: `ofForm` takes the form that `toForm` gives.  Bytes
may also be entered as hexadecimal digits or as a list of parts.  Numbers must be in the
range of what is asked for, and values that the wire does not know are refused with the
failure that says so.
-/

namespace MiningPool

open MiningPool.Wire MiningPool.Message

/-- What is taken from a form. -/
abbrev Entered := Except FormError

/-- Things that can be entered. -/
class OfForm (α : Type) where
  ofForm : Form → Entered α

export OfForm (ofForm)

namespace Form

/-- The field of a name, which must be there. -/
def field (form : Form) (name : String) : Entered Form :=
  match form.field? name with
  | none => .error .unfit
  | some value => .ok value

/-- A number of a given number of bits. -/
def word (bits : Nat) : Form → Entered Nat
  | number value =>
    if 0 ≤ value ∧ value < (1 <<< bits : Nat) then .ok value.toNat else .error .unfit
  | _ => .error .unfit

mutual

/-- Bytes, their digits, or a list of parts. -/
def toBytes : Form → Entered Bytes
  | bytes value => .ok value
  | text digits =>
    match Hex.decode? digits with
    | none => .error .unfit
    | some value => .ok value
  | list parts => partsToBytes parts
  | _ => .error .unfit

/-- The bytes of parts one after the other. -/
def partsToBytes : List Form → Entered Bytes
  | [] => .ok []
  | part :: rest => do
    let front ← toBytes part
    let back ← partsToBytes rest
    return front ++ back

end

/-- Exactly so many bytes. -/
def toBytesOf (count : Nat) (form : Form) : Entered Bytes := do
  let value ← form.toBytes
  if value.length = count then return value else .error .unfit

end Form

instance : OfForm Form := ⟨.ok⟩

instance : OfForm Nat := ⟨Form.word 64⟩

instance : OfForm UInt8 := ⟨fun form => .ofNat <$> form.word 8⟩

instance : OfForm UInt16 := ⟨fun form => .ofNat <$> form.word 16⟩

instance : OfForm UInt32 := ⟨fun form => .ofNat <$> form.word 32⟩

instance : OfForm UInt64 := ⟨fun form => .ofNat <$> form.word 64⟩

instance : OfForm Int where
  ofForm
    | .number value => .ok value
    | _ => .error .unfit

instance : OfForm Bool where
  ofForm
    | .flag value => .ok value
    | _ => .error .unfit

instance : OfForm String where
  ofForm
    | .text value => .ok value
    | _ => .error .unfit

instance {α : Type} [OfForm α] : OfForm (Option α) where
  ofForm
    | .nothing => .ok none
    | form => some <$> ofForm form

instance {α : Type} [OfForm α] : OfForm (List α) where
  ofForm
    | .list items => items.mapM ofForm
    | _ => .error .unfit

instance {α β : Type} [OfForm α] [OfForm β] : OfForm (α × β) where
  ofForm
    | .list [first, second] => return (← ofForm first, ← ofForm second)
    | _ => .error .unfit

instance : OfForm Bytes := ⟨Form.toBytes⟩

instance : OfForm Single := ⟨fun form => return ⟨.ofNat (← form.toBytesOf 4).toNatBE⟩⟩

instance : OfForm Float := ⟨fun form => return .ofBits (.ofNat (← form.toBytesOf 8).toNatBE)⟩

namespace Form

/-- Take the field of a name. -/
def get {α : Type} [OfForm α] (form : Form) (name : String) : Entered α := do
  ofForm (← form.field name)

/-- Take the field of a name, which may be absent. -/
def get? {α : Type} [OfForm α] (form : Form) (name : String) : Entered (Option α) :=
  ofForm ((form.field? name).getD .nothing)

/-- Take a field of exactly so many bytes. -/
def getBytes (form : Form) (name : String) (count : Nat) : Entered Bytes := do
  (← form.field name).toBytesOf count

/-- Take a field of exactly so many bytes, which may be absent. -/
def getBytes? (form : Form) (name : String) (count : Nat) : Entered (Option Bytes) := do
  match ← form.get? (α := Form) name with
  | none => return none
  | some value => return some (← value.toBytesOf count)

/-- Take a value of a shape. -/
def toValue : (shape : Shape) → Form → Entered shape.Value
  | .u8, form => ofForm (α := UInt8) form
  | .u16, form => ofForm (α := UInt16) form
  | .u24, form => do FormError.ofWire (U24.ofNat (← form.word 32))
  | .u32, form => ofForm (α := UInt32) form
  | .u64, form => ofForm (α := UInt64) form
  | .single, form => ofForm (α := Single) form
  | .bool, form => ofForm (α := Bool) form
  | .protocol, form => do FormError.ofWire (Protocol.ofCode (← ofForm form))
  | .blob _, form => do FormError.ofWire (Blob.ofBytes (← form.toBytes))
  | .option _, .nothing => .ok none
  | .option element, form => some <$> toValue element form
  | .seq _ element, .list items => do
    FormError.ofWire (Sequence.ofList (← items.mapM (toValue element)))
  | .seq _ _, _ => .error .unfit

/-- Take the values of a schema. -/
def toValues : (schema : Schema) → Form → Entered schema.Values
  | [], _ => .ok ()
  | (name, shape) :: rest, form => do
    let value ← toValue shape (← form.field name)
    let values ← toValues rest form
    return (value, values)

/-- Take a record. -/
def toRecord {α : Type} [Record α] : Form → Entered α
  | fields entries => Record.ofFields <$> toValues (Record.schema α) (fields entries)
  | _ => .error .unfit

/-- Take the name of a family of messages. -/
def toSubprotocol (form : Form) : Entered Subprotocol := do
  match Subprotocol.ofName? (← ofForm form) with
  | none => .error .unfit
  | some subprotocol => return subprotocol

end Form

instance (priority := low) {α : Type} [Record α] : OfForm α := ⟨Form.toRecord⟩

instance {width : Width} : OfForm (Blob width) := ⟨Form.toValue (.blob width)⟩

instance : OfForm Message where
  ofForm form := do
    let subprotocol ← (← form.field "protocol").toSubprotocol
    match Kind.ofName? subprotocol (← form.get "name") with
    | none => .error .unfit
    | some kind => return ⟨kind, ← form.get (α := kind.Body) "fields"⟩

end MiningPool
