import MiningPool.Noise.Handshake
import MiningPool.Session.Error

/-!
# Sessions

A session is plain, in the middle of a handshake on either side, or encrypted.  The
three steps of the handshake are operations of the session; the steps that complete it
leave an encrypted session.  A step that fails keeps the session, with the handshake as
far as it got.
-/

namespace MiningPool

open MiningPool.Noise

/-- The state of a connection. -/
inductive Session
  /-- Frames travel in clear text. -/
  | plain
  /-- This side started a handshake. -/
  | initiating (initiator : Initiator)
  /-- This side answers a handshake. -/
  | responding (responder : Responder)
  /-- Frames travel encrypted. -/
  | encrypted (transport : Transport)
  deriving DecidableEq, Repr

namespace Session

/-- The number of bytes of a key of the authority. -/
def authorityKeySize : Nat := 32

/-- Whether frames travel encrypted. -/
def isEncrypted : Session → Bool
  | encrypted _ => true
  | _ => false

/-- Whether there is neither a handshake nor a cipher. -/
def isPlain : Session → Bool
  | plain => true
  | _ => false

/-- The name of the state. -/
def name : Session → String
  | plain => "NotInitialized"
  | initiating _ => "HandShakeInitiator"
  | responding _ => "HandShakeResponder"
  | encrypted _ => "Transport"

/-- Start a handshake that accepts the certificates of one authority. -/
def initiate
    (suite : Suite)
    (authority : Bytes)
    (stream : Digest.Stream) :
    Except SessionError Session :=
  if authority.length ≠ authorityKeySize then .error (.keyLength authority.length)
  else
    match checkPublic suite authority with
    | .error _ => .error .badKey
    | .ok () => .ok (.initiating (Initiator.prepare suite (some authority) stream).1)

/-- Wait for a handshake, with the keys of the authority that vouches for this side. -/
def respond
    (suite : Suite)
    (publicKey secret : Bytes)
    (validity : UInt64)
    (stream : Digest.Stream) :
    Except SessionError Session :=
  if publicKey.length ≠ authorityKeySize then .error (.keyLength publicKey.length)
  else if secret.length ≠ authorityKeySize then .error (.keyLength secret.length)
  else
    match checkAuthority suite publicKey secret with
    | .error _ => .error .badKey
    | .ok () =>
      .ok (.responding (Responder.prepare suite secret (spanOfSeconds validity) stream).1)

/-- The first step: send the ephemeral key. -/
def hello (suite : Suite) : Session → Session × Except SessionError Bytes
  | initiating initiator =>
    match initiator.hello suite with
    | (initiator, .error failure) => (initiating initiator, .error (.ofHandshake failure))
    | (initiator, .ok message) => (initiating initiator, .ok message)
  | session => (session, .error .unexpectedState)

/-- The second step: answer an ephemeral key; the session is encrypted afterwards. -/
def reply
    (suite : Suite)
    (message : Bytes)
    (now : UInt32)
    (stream : Digest.Stream) :
    Session → Session × Except SessionError Bytes
  | responding responder =>
    if message.length ≠ encodingSize then
      (responding responder, .error (.handshake .wrongLength))
    else
      match responder.reply suite message now stream with
      | (responder, .error failure) => (responding responder, .error (.ofHandshake failure))
      | (_, .ok (answer, transport)) => (encrypted transport, .ok answer)
  | session => (session, .error .unexpectedState)

/-- The third step: take the answer; the session is encrypted afterwards. -/
def finish
    (suite : Suite)
    (message : Bytes)
    (now : UInt32) :
    Session → Session × Except SessionError Unit
  | initiating initiator =>
    if message.length ≠ replySize then
      (initiating initiator, .error (.handshake .wrongLength))
    else
      match initiator.finish suite message now with
      | (initiator, .error failure) => (initiating initiator, .error (.ofHandshake failure))
      | (_, .ok transport) => (encrypted transport, .ok ())
  | session => (session, .error .unexpectedState)

end Session

end MiningPool
