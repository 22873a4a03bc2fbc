import MiningPool.Bytes
import MiningPool.Wire.Error

/-!
# Values of the wire format

The value types that have no counterpart among the machine words: three byte
numbers, single precision numbers kept by their bits, byte strings with a length
limit, sequences with an element limit and the subprotocol a connection asks for.
Each type that has a limit carries the proof that its value keeps it, so a value
that exists can always be written.
-/

namespace MiningPool.Wire

/-- A number of three bytes. -/
structure U24 where
  toNat : Nat
  isLt : toNat < Bytes.capacity 3
  deriving DecidableEq, Repr

namespace U24

/-- The number of bytes of a three byte number. -/
def size : Nat := 3

/-- The largest three byte number. -/
def max : Nat := 0xffffff

/-- Take a number of at most 32 bits that fits in three bytes. -/
def ofNat (value : Nat) : Except WireError U24 :=
  if fits : value < Bytes.capacity 3 then .ok ⟨value, fits⟩ else .error (.exceedsU24 value)

/-- Take a count of bytes; one that needs more than 32 bits is reported as the largest of those. -/
def ofCount (count : Nat) : Except WireError U24 :=
  if count < UInt32.size then ofNat count else .error (.exceedsU24 (UInt32.size - 1))

end U24

/-- A single precision number, kept by its bits so that no value is altered on its way. -/
structure Single where
  bits : UInt32
  deriving DecidableEq, Repr

/-- The subprotocol a connection is set up for. -/
inductive Protocol
  | mining
  | jobDeclaration
  | templateDistribution
  deriving DecidableEq, Repr

namespace Protocol

/-- The number of a subprotocol. -/
def code : Protocol → UInt8
  | mining => 0
  | jobDeclaration => 1
  | templateDistribution => 2

/-- The subprotocol of a number. -/
def ofCode (code : UInt8) : Except WireError Protocol :=
  if code = 0 then .ok mining
  else if code = 1 then .ok jobDeclaration
  else if code = 2 then .ok templateDistribution
  else .error (.unknownProtocol code.toNat)

end Protocol

/-- The byte string types, named by the largest length they hold. -/
inductive Width
  | u256
  | b032
  | b0255
  | str0255
  | b064k
  | b016m
  deriving DecidableEq, Repr

namespace Width

/-- The number of bytes in which the length is written; a fixed length is not written. -/
def header : Width → Nat
  | u256 => 0
  | b032 | b0255 | str0255 => 1
  | b064k => 2
  | b016m => 3

/-- The largest length. -/
def max : Width → Nat
  | u256 | b032 => 32
  | b0255 | str0255 => 255
  | b064k => 0xffff
  | b016m => 0xffffff

/-- Whether a byte string of this length belongs to the type. -/
def Admits : Width → Nat → Prop
  | u256, length => length = 32
  | width, length => length ≤ width.max

instance (width : Width) (length : Nat) : Decidable (width.Admits length) := by
  cases width <;> unfold Admits <;> infer_instance

/-- The failure of a length that does not belong to the type. -/
def refusal : Width → Nat → WireError
  | u256, length => .notThirtyTwoBytes length
  | width, length => .valueTooLong width.max length

end Width

/-- A byte string of a length that its type admits. -/
structure Blob (width : Width) where
  bytes : Bytes
  admitted : width.Admits bytes.length
  deriving DecidableEq, Repr

namespace Blob

variable {width : Width}

/-- Take a byte string of an admitted length. -/
def ofBytes (bytes : Bytes) : Except WireError (Blob width) :=
  if admitted : width.Admits bytes.length then .ok ⟨bytes, admitted⟩
  else .error (width.refusal bytes.length)

/-- Take the UTF-8 bytes of a text of an admitted length. -/
def ofText (text : String) : Except WireError (Blob width) :=
  ofBytes text.toUTF8.toList

/-- The number of bytes of a byte string on the wire, its length included. -/
def size (blob : Blob width) : Nat :=
  width.header + blob.bytes.length

/-- The text of a byte string that is valid UTF-8. -/
def text? (blob : Blob width) : Option String :=
  String.fromUTF8? blob.bytes.toByteArray

/-- The byte string that stands for nothing: empty, or all zero when the length is fixed. -/
def blank : (width : Width) → Blob width
  | .u256 => ⟨List.replicate 32 0, by simp [Width.Admits]⟩
  | .b032 | .b0255 | .str0255 | .b064k | .b016m => ⟨[], by simp [Width.Admits]⟩

instance : Inhabited (Blob width) := ⟨blank width⟩

end Blob

/-- The sequence types, named by the largest number of elements they hold. -/
inductive Count
  | seq0255
  | seq064k
  deriving DecidableEq, Repr

namespace Count

/-- The number of bytes in which the number of elements is written. -/
def header : Count → Nat
  | seq0255 => 1
  | seq064k => 2

/-- The largest number of elements. -/
def max : Count → Nat
  | seq0255 => 255
  | seq064k => 0xffff

end Count

/-- A sequence of no more elements than its type allows. -/
structure Sequence (count : Count) (α : Type) where
  items : List α
  bounded : items.length ≤ count.max
  deriving DecidableEq, Repr

namespace Sequence

variable {count : Count} {α : Type}

/-- Take a list that is not too long. -/
def ofList (items : List α) : Except WireError (Sequence count α) :=
  if bounded : items.length ≤ count.max then .ok ⟨items, bounded⟩
  else .error (.sequenceTooLong items.length)

/-- The sequence without elements. -/
def empty : Sequence count α := ⟨[], by simp⟩

instance : Inhabited (Sequence count α) := ⟨empty⟩

end Sequence

end MiningPool.Wire
