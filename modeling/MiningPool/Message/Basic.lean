import MiningPool.Hex
import MiningPool.Message.Kind

/-!
# Messages

A message is a kind together with a record of that kind.  Its size, its written
form and its reader are those of the record, so what holds of all records holds of
all messages.
-/

namespace MiningPool

open MiningPool.Wire

/-- A message of any kind. -/
structure Message where
  kind : Message.Kind
  body : kind.Body

namespace Message

/-- Why bytes are not a message, or a message is not a frame. -/
inductive ParseError
  /-- No kind has this number. -/
  | unexpectedMessage (code : UInt8)
  /-- The message is longer than a frame can hold. -/
  | tooLargeForFrame
  /-- The record cannot be read. -/
  | malformed (failure : WireError)
  deriving DecidableEq, Repr

/-- The name of a failure. -/
def ParseError.name : ParseError → String
  | unexpectedMessage _ => "UnexpectedMessage"
  | tooLargeForFrame => "BadPayloadSize"
  | malformed _ => "BinaryError"

/-- The wording of a failure. -/
def ParseError.message : ParseError → String
  | unexpectedMessage code => "No supported message has type 0x" ++ Hex.encode [code]
  | tooLargeForFrame => "Message too large for a frame"
  | malformed failure => "Failed to decode message: " ++ failure.message

instance : Failure ParseError := ⟨ParseError.name, ParseError.message⟩

/-- The number of bytes of the payload of a message. -/
def size (message : Message) : Nat :=
  Record.size message.body

/-- Write the payload of a message into a destination with `room` bytes left. -/
def write (message : Message) (room : Nat) : Except WireError Bytes :=
  Record.write message.body room

/-- Read a message of a known kind; bytes after it are ignored. -/
def ofPayload (kind : Kind) (payload : Bytes) : Except ParseError Message :=
  match Record.read (α := kind.Body) payload with
  | .error failure => .error (.malformed failure)
  | .ok (body, _) => .ok ⟨kind, body⟩

/-- Read a message of a family. -/
def readWithin
    (subprotocol : Subprotocol)
    (code : UInt8)
    (payload : Bytes) :
    Except ParseError Message :=
  match Kind.ofCode? subprotocol code with
  | some kind => ofPayload kind payload
  | none => .error (.unexpectedMessage code)

/-- Read a message of any family. -/
def read (code : UInt8) (payload : Bytes) : Except ParseError Message :=
  match Kind.ofAnyCode? code with
  | some kind => ofPayload kind payload
  | none => .error (.unexpectedMessage code)

end Message

end MiningPool
