import MiningPool.Frame.Header
import MiningPool.Message.Basic
import MiningPool.Noise.Error

/-!
# Failures of a session

What can go wrong while a session is set up and while messages travel over it.  Only
`missingBytes` asks the caller to go on; `unauthentic` and `nonceExhausted` end the
session.
-/

namespace MiningPool

open MiningPool.Wire MiningPool.Noise

/-- Why a session refused an operation. -/
inductive SessionError
  /-- A key of the authority is not 32 bytes long. -/
  | keyLength (length : Nat)
  /-- A key of the authority is not a key, or its keys do not belong together. -/
  | badKey
  /-- A step of the handshake failed. -/
  | handshake (failure : NoiseError)
  /-- The certificate is not signed by the authority that is trusted. -/
  | invalidSignature
  /-- The certificate is not valid at the time. -/
  | certificateExpired
  /-- The bytes are not a frame, or its payload is not a message. -/
  | malformedFrame
  /-- So many bytes are missing from the part of the frame that is being read. -/
  | missingBytes (count : Nat)
  /-- A value of a message could not be written. -/
  | serialization (failure : WireError)
  /-- There are more bytes than the part of the frame that is being read still takes. -/
  | excessBytes (expected actual : Nat)
  /-- A sealed part of a frame is not authentic. -/
  | unauthentic
  /-- A cipher has no counter value left. -/
  | nonceExhausted
  /-- The session is not in a state that allows the operation. -/
  | unexpectedState
  deriving DecidableEq, Repr

namespace SessionError

/-- The name of a failure. -/
def name : SessionError → String
  | keyLength _ => "InvalidKeyLength"
  | badKey => "BadKey"
  | handshake _ => "HandshakeError"
  | invalidSignature => "SignatureInvalid"
  | certificateExpired => "CertificateExpired"
  | malformedFrame => "MalformedFrame"
  | missingBytes _ => "MissingBytes"
  | serialization _ => "SerializationError"
  | excessBytes _ _ => "InvalidDataSize"
  | unauthentic => "AeadFailure"
  | nonceExhausted => "NonceExhausted"
  | unexpectedState => "UnexpectedNoiseState"

/-- The wording of a failure. -/
def message : SessionError → String
  | keyLength length => s!"Authority key must be 32 bytes, got {length}"
  | badKey => "Invalid authority key"
  | handshake failure => "Noise handshake error: " ++ failure.message
  | invalidSignature => "Invalid certificate signature"
  | certificateExpired => "Certificate is not valid at the current time"
  | malformedFrame => "Malformed frame"
  | missingBytes count => s!"Missing {count} bytes to complete the frame"
  | serialization failure => "Serialization error: " ++ failure.message
  | excessBytes expected actual => s!"Expected a chunk of {expected} bytes, got {actual}"
  | unauthentic => "Frame authentication failed"
  | nonceExhausted => "Nonce counter exhausted"
  | unexpectedState => "Operation not allowed in the current Noise state"

instance : Failure SessionError := ⟨name, message⟩

/-- A frame that could not be written: a value, or the frame as a whole. -/
def ofFrame : Frame.FrameError → SessionError
  | .wire failure => serialization failure
  | .shortHeader _ => malformedFrame

/-- A message that could not be framed or parsed. -/
def ofParse : Message.ParseError → SessionError
  | .malformed failure => serialization failure
  | .tooLargeForFrame | .unexpectedMessage _ => malformedFrame

/-- A step of the handshake that failed; what concerns the certificate is told apart. -/
def ofHandshake : NoiseError → SessionError
  | .invalidCertificate _ => invalidSignature
  | .certificateExpired _ _ _ => certificateExpired
  | failure => handshake failure

/-- A transport cipher that failed. -/
def ofCipher : NoiseError → SessionError
  | .nonceExhausted => nonceExhausted
  | _ => unauthentic

end SessionError

end MiningPool
