import MiningPool.Frame.Basic
import MiningPool.Session.Basic

/-!
# Messages over a session

`encode` turns a message into the bytes of its frame and `decode` takes the message out
of the bytes of one whole frame.  In an encrypted session the header is sealed first,
then the payload in chunks.  A cipher that fails ends the session: it is plain
afterwards.
-/

namespace MiningPool.Session

open MiningPool.Noise MiningPool.Frame

/-- Seal chunks one after the other. -/
def sealChunks (suite : Suite) :
    List Bytes → Transport → Except NoiseError (Bytes × Transport)
  | [], transport => .ok ([], transport)
  | chunk :: rest, transport =>
    match transport.encrypt suite chunk with
    | .error failure => .error failure
    | .ok (sealedChunk, transport) =>
      match sealChunks suite rest transport with
      | .error failure => .error failure
      | .ok (sealedRest, transport) => .ok (sealedChunk ++ sealedRest, transport)

/-- Open sealed chunks one after the other. -/
def openChunks (suite : Suite) :
    List Bytes → Transport → Except NoiseError (Bytes × Transport)
  | [], transport => .ok ([], transport)
  | sealedChunk :: rest, transport =>
    match transport.decrypt suite sealedChunk with
    | .error failure => .error failure
    | .ok (chunk, transport) =>
      match openChunks suite rest transport with
      | .error failure => .error failure
      | .ok (openedRest, transport) => .ok (chunk ++ openedRest, transport)

/-- The parts in which a frame is sealed: its header, then the chunks of its payload. -/
def sealedParts (frame : Bytes) : List Bytes :=
  frame.take headerSize :: Bytes.chunks plainChunkSize (frame.drop headerSize)

/-- The bytes of the frame of a message. -/
def frameBytes (message : Message) : Except SessionError Bytes :=
  match Frame.ofMessage message with
  | .error failure => .error (.ofParse failure)
  | .ok frame =>
    match frame.write frame.encodedLength with
    | .error failure => .error (.serialization failure)
    | .ok bytes => .ok bytes

/-- Turn a message into the bytes to send. -/
def encode
    (suite : Suite)
    (message : Message)
    (session : Session) :
    Session × Except SessionError Bytes :=
  match frameBytes message with
  | .error failure => (session, .error failure)
  | .ok frame =>
    match session with
    | encrypted transport =>
      match sealChunks suite (sealedParts frame) transport with
      | .error failure => (plain, .error (.ofCipher failure))
      | .ok (bytes, transport) => (encrypted transport, .ok bytes)
    | session => (session, .ok frame)

/-- The number of bytes in which a header arrives. -/
def headerLength (session : Session) : Nat :=
  if session.isEncrypted then sealedHeaderSize else headerSize

/-- The number of bytes in which the payload that a header announces arrives. -/
def payloadLength (session : Session) (header : Header) : Nat :=
  if session.isEncrypted then header.sealedLength else header.length.toNat

/-- Open the bytes of a header; answer the header and its plain bytes. -/
def readHeader
    (suite : Suite)
    (bytes : Bytes) :
    Session → Session × Except SessionError (Header × Bytes)
  | encrypted transport =>
    match transport.decrypt suite bytes with
    | .error failure => (plain, .error (.ofCipher failure))
    | .ok (opened, transport) =>
      match Header.ofBytes opened with
      | .error _ => (encrypted transport, .error .malformedFrame)
      | .ok header => (encrypted transport, .ok (header, opened))
  | session =>
    match Header.ofBytes bytes with
    | .error _ => (session, .error .malformedFrame)
    | .ok header => (session, .ok (header, bytes))

/-- Open the bytes of a payload. -/
def readPayload
    (suite : Suite)
    (bytes : Bytes) :
    Session → Session × Except SessionError Bytes
  | encrypted transport =>
    match openChunks suite (Bytes.chunks sealedChunkSize bytes) transport with
    | .error failure => (plain, .error (.ofCipher failure))
    | .ok (opened, transport) => (encrypted transport, .ok opened)
  | session => (session, .ok bytes)

/-- The message of the plain bytes of a whole frame; only the base extension is spoken. -/
def parseFrame (bytes : Bytes) : Except SessionError Message :=
  match Frame.ofBytes bytes with
  | .error _ => .error .malformedFrame
  | .ok frame =>
    if frame.header.plainExtensionType ≠ 0 then .error .malformedFrame
    else
      match Message.read frame.header.messageType (bytes.drop headerSize) with
      | .error _ => .error .malformedFrame
      | .ok message => .ok message

/--
The session after a frame whose length its header does not announce: the counter of the
header is used up, so an encrypted session ends.
-/
def afterMismatch : Session → Session
  | encrypted _ => plain
  | session => session

/-- Take the message out of the bytes of exactly one frame. -/
def decode
    (suite : Suite)
    (bytes : Bytes)
    (session : Session) :
    Session × Except SessionError Message :=
  let front := session.headerLength
  if bytes.length < front then (session, .error .malformedFrame)
  else
    match session.readHeader suite (bytes.take front) with
    | (session, .error failure) => (session, .error failure)
    | (session, .ok (header, opened)) =>
      if bytes.length ≠ front + session.payloadLength header then
        (session.afterMismatch, .error .malformedFrame)
      else
        match session.readPayload suite (bytes.drop front) with
        | (session, .error failure) => (session, .error failure)
        | (session, .ok payload) => (session, parseFrame (opened ++ payload))

end MiningPool.Session
