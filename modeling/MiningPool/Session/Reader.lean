import MiningPool.Session.Codec

/-!
# Reading frames from a stream

A reader is fed with the bytes of a stream as they arrive.  It asks for the header of a
frame, then for the payload the header announces, and never takes more than it asked
for.  Until the message is complete it answers how many bytes are missing.
-/

namespace MiningPool.Session

open MiningPool.Noise MiningPool.Frame

/-- What is known of the frame that is being read. -/
structure Reader where
  /-- The bytes of the part that is being read. -/
  buffer : Bytes
  /-- The length of that part; nothing before the first bytes are fed. -/
  expected : Nat
  /-- The plain bytes of the header while the payload is being read. -/
  header : Option Bytes
  deriving DecidableEq, Repr

namespace Reader

/-- A reader that has seen nothing. -/
def start : Reader :=
  ⟨[], 0, none⟩

/-- The number of bytes the reader asks for. -/
def wanted (reader : Reader) : Nat :=
  reader.expected - reader.buffer.length

/-- Between two frames, learn from the session how long a header is. -/
def attune (reader : Reader) (session : Session) : Reader :=
  if reader.header.isNone ∧ reader.buffer.isEmpty then
    { reader with expected := session.headerLength }
  else
    reader

/-- The reader between two frames. -/
def idle (session : Session) : Reader :=
  ⟨[], session.headerLength, none⟩

/-- A whole header was read: go on with the payload, or parse a frame that has none. -/
def afterHeader
    (suite : Suite)
    (bytes : Bytes)
    (session : Session) :
    Reader × Session × Except SessionError Message :=
  match session.readHeader suite bytes with
  | (session, .error failure) => (idle session, session, .error failure)
  | (session, .ok (header, opened)) =>
    let length := session.payloadLength header
    if length = 0 then (idle session, session, parseFrame opened)
    else (⟨[], length, some opened⟩, session, .error (.missingBytes length))

/-- A whole payload was read: parse the frame. -/
def afterPayload
    (suite : Suite)
    (opened bytes : Bytes)
    (session : Session) :
    Reader × Session × Except SessionError Message :=
  match session.readPayload suite bytes with
  | (session, .error failure) => (idle session, session, .error failure)
  | (session, .ok payload) => (idle session, session, parseFrame (opened ++ payload))

/-- Feed the next bytes of the stream; more than the reader asks for are refused. -/
def feed
    (suite : Suite)
    (reader : Reader)
    (chunk : Bytes)
    (session : Session) :
    Reader × Session × Except SessionError Message :=
  let reader := reader.attune session
  if reader.wanted < chunk.length then
    (reader, session, .error (.excessBytes reader.wanted chunk.length))
  else
    let buffer := reader.buffer ++ chunk
    if buffer.length < reader.expected then
      let reader := { reader with buffer }
      (reader, session, .error (.missingBytes reader.wanted))
    else
      match reader.header with
      | none => afterHeader suite buffer session
      | some opened => afterPayload suite opened buffer session

/-- Take the message out of the bytes of exactly one frame; what is being read is kept. -/
def decode
    (suite : Suite)
    (reader : Reader)
    (bytes : Bytes)
    (session : Session) :
    Reader × Session × Except SessionError Message :=
  (reader, session.decode suite bytes)

end Reader

end MiningPool.Session
