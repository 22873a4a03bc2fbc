import MiningPool.Wire.Record

/-!
# Frame headers

Six bytes start every frame: the extension type, the number of the message and the
length of the payload.  The top bit of the extension type says that the message
belongs to a channel.  An encrypted payload is cut into chunks, and every chunk is
followed by a tag of its own.
-/

namespace MiningPool.Frame

open MiningPool.Wire

/-- The number of bytes of a header. -/
def headerSize : Nat := 6

/-- The number of bytes of an authentication tag. -/
def tagSize : Nat := 16

/-- The number of bytes of an encrypted header. -/
def sealedHeaderSize : Nat := headerSize + tagSize

/-- The largest number of bytes of an encrypted chunk, its tag included. -/
def sealedChunkSize : Nat := 65535

/-- The largest number of bytes of a chunk before it is encrypted. -/
def plainChunkSize : Nat := sealedChunkSize - tagSize

/-- The bit of the extension type that marks a message of a channel. -/
def channelBit : UInt16 := 0x8000

/-- What a frame says of its payload before it. -/
structure Header where
  extensionType : UInt16
  messageType : UInt8
  length : U24
  deriving DecidableEq, Repr

instance : Record Header where
  schema := [("extension_type", .u16), ("msg_type", .u8), ("msg_length", .u24)]
  toFields header := (header.extensionType, header.messageType, header.length, ())
  ofFields fields := ⟨fields.1, fields.2.1, fields.2.2.1⟩

/-- Why bytes are not a frame or a frame cannot be written. -/
inductive FrameError
  /-- A value of the frame could not be read or written. -/
  | wire (failure : WireError)
  /-- There are too few bytes for a header. -/
  | shortHeader (length : Int)
  deriving DecidableEq, Repr

/-- The name of a failure. -/
def FrameError.name : FrameError → String
  | wire _ => "BinarySv2Error"
  | shortHeader _ => "UnexpectedHeaderLength"

/-- The wording of a failure. -/
def FrameError.message : FrameError → String
  | wire failure => "Failed to (de)serialize frame: " ++ failure.message
  | shortHeader length => s!"Header needs 6 bytes, only {length} available"

instance : Failure FrameError := ⟨FrameError.name, FrameError.message⟩

namespace Header

/-- Announce a payload whose length fits in three bytes. -/
def ofLength?
    (length : Nat)
    (messageType : UInt8)
    (extensionType : UInt16) :
    Option Header :=
  match U24.ofNat length with
  | .ok length => some ⟨extensionType, messageType, length⟩
  | .error _ => none

/-- Read a header from the front of the bytes. -/
def ofBytes (bytes : Bytes) : Except FrameError Header :=
  match bytes.cut? headerSize with
  | none => .error (.shortHeader bytes.length)
  | some (front, _) =>
    match Record.read (α := Header) front with
    | .error failure => .error (.wire failure)
    | .ok (header, _) => .ok header

/-- The bytes of a header. -/
def toBytes (header : Header) : Bytes :=
  Bytes.ofNatLE 2 header.extensionType.toNat ++ Bytes.ofNatLE 1 header.messageType.toNat ++
    Bytes.ofNatLE 3 header.length.toNat

/-- A header is written whole wherever there is room for it. -/
theorem write_eq_toBytes
    (header : Header)
    (room : Nat)
    (roomy : headerSize ≤ room) :
    Record.write header room = .ok header.toBytes := by
  have first : ¬ room < 2 := by unfold headerSize at roomy; omega
  have second : ¬ room - 2 < 1 := by unfold headerSize at roomy; omega
  have third : ¬ room - 2 - 1 < 3 := by unfold headerSize at roomy; omega
  simp [Record.write, Record.schema, Record.toFields, Schema.write, Shape.write, writeThen, place,
    toBytes, first, second, third]

/-- The extension type without the channel bit. -/
def plainExtensionType (header : Header) : UInt16 :=
  header.extensionType &&& ~~~channelBit

/-- Whether the message belongs to a channel. -/
def isChannelMessage (header : Header) : Bool :=
  header.extensionType &&& channelBit != 0

/-- The number of chunks into which a payload is cut. -/
def chunkCount (header : Header) : Nat :=
  (header.length.toNat + plainChunkSize - 1) / plainChunkSize

/-- The length of the payload once its chunks are encrypted. -/
def sealedLength (header : Header) : Nat :=
  header.length.toNat + header.chunkCount * tagSize

end Header

end MiningPool.Frame
