import MiningPool.Frame.Header
import MiningPool.Message.Basic

/-!
# Frames

A frame is a header and a payload.  A frame made from a message writes the message
when it is written itself; a received frame keeps the bytes it came in.
-/

namespace MiningPool

open MiningPool.Wire

namespace Frame

/-- What a frame carries. -/
inductive Content
  /-- A message still to be written. -/
  | message (message : Message)
  /-- The bytes of the whole frame as they were received. -/
  | received (bytes : Bytes)

end Frame

/-- A header with what it announces. -/
structure Frame where
  header : Frame.Header
  content : Frame.Content

namespace Frame

/-- Set or clear the channel bit. -/
def markChannel (extensionType : UInt16) (isChannelMessage : Bool) : UInt16 :=
  if isChannelMessage then extensionType ||| channelBit
  else extensionType &&& ~~~channelBit

/-- Frame a message under a given number; `none` when it is too long. -/
def ofMessage?
    (message : Message)
    (messageType : UInt8)
    (extensionType : UInt16)
    (isChannelMessage : Bool) :
    Option Frame :=
  match
    Header.ofLength? message.size messageType (markChannel extensionType isChannelMessage)
  with
  | some header => some ⟨header, .message message⟩
  | none => none

/-- Frame a message as its kind asks for. -/
def ofMessage (message : Message) : Except Message.ParseError Frame :=
  match ofMessage? message message.kind.code 0 message.kind.channelBit with
  | some frame => .ok frame
  | none => .error .tooLargeForFrame

/-- The number of bytes a frame takes. -/
def encodedLength (frame : Frame) : Nat :=
  match frame.content with
  | .message message => message.size + headerSize
  | .received bytes => bytes.length

/-- The payload of a received frame. -/
def payload? (frame : Frame) : Option Bytes :=
  match frame.content with
  | .message _ => none
  | .received bytes => some (bytes.drop headerSize)

/-- The bytes of a frame, for a destination with `room` bytes. -/
def write (frame : Frame) (room : Nat) : Except WireError Bytes :=
  match frame.content with
  | .message message =>
    match Record.write frame.header room with
    | .error failure => .error failure
    | .ok front =>
      match message.write (room - headerSize) with
      | .error failure => .error failure
      | .ok back => .ok (front ++ back)
  | .received bytes => place bytes room

/-- Write a frame over the start of a destination. -/
def serialize (frame : Frame) (destination : Bytes) : Except FrameError Bytes :=
  match frame.write destination.length with
  | .error failure => .error (.wire failure)
  | .ok bytes => .ok (destination.overwrite bytes)

/-- How many bytes a complete frame has more than are given; negative when there are too many. -/
def missing (bytes : Bytes) : Int :=
  match Header.ofBytes bytes with
  | .error _ => (headerSize : Int) - bytes.length
  | .ok header => (headerSize + header.length.toNat : Int) - bytes.length

/-- Take the bytes of exactly one frame; otherwise answer how many are missing. -/
def ofBytes (bytes : Bytes) : Except Int Frame :=
  match Header.ofBytes bytes with
  | .error _ => .error (missing bytes)
  | .ok header =>
    if missing bytes = 0 then .ok ⟨header, .received bytes⟩ else .error (missing bytes)

end Frame

end MiningPool
