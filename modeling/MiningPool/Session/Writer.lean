import MiningPool.Session.Codec

/-!
# Writing frames through a buffer

A writer keeps the buffer in which it lays out frames, so that frames written one after
the other share it.  Nothing of an earlier frame is left in a later one.
-/

namespace MiningPool.Session

open MiningPool.Noise MiningPool.Frame

/-- Cut bytes to a length, or fill them up with zeros. -/
def resize (bytes : Bytes) (length : Nat) : Bytes :=
  bytes.take length ++ List.replicate (length - bytes.length) 0

/-- What is kept between the frames that are written. -/
structure Writer where
  /-- The clear bytes of the last frame. -/
  buffer : Bytes
  deriving DecidableEq, Repr

namespace Writer

/-- A writer that has written nothing. -/
def start : Writer :=
  ⟨[]⟩

/-- Empty the buffer. -/
def clear (writer : Writer) : Writer :=
  { writer with buffer := [] }

/-- Make room for so many bytes in the buffer. -/
def makeRoom (writer : Writer) (length : Nat) : Writer :=
  { writer with buffer := resize writer.buffer length }

/-- Lay out the frame of a message in the buffer, and seal it when the session is encrypted. -/
def encode
    (suite : Suite)
    (writer : Writer)
    (message : Message)
    (session : Session) :
    Writer × Session × Except SessionError Bytes :=
  match Frame.ofMessage message with
  | .error failure => (writer, session, .error (.ofParse failure))
  | .ok frame =>
    let writer := writer.clear.makeRoom frame.encodedLength
    match frame.serialize writer.buffer with
    | .error failure => (writer, session, .error (.ofFrame failure))
    | .ok buffer =>
      let writer := { writer with buffer }
      match session with
      | encrypted transport =>
        match sealChunks suite (sealedParts buffer) transport with
        | .error failure => (writer, plain, .error (.ofCipher failure))
        | .ok (bytes, transport) => (writer, encrypted transport, .ok bytes)
      | session => (writer, session, .ok buffer)

end Writer

end MiningPool.Session
