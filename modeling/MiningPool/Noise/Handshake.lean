import MiningPool.Noise.Certificate
import MiningPool.Noise.Symmetric

/-!
# The handshake

The initiator sends an ephemeral key.  The responder answers with an ephemeral key of
its own, its static key and a certificate for it, the last two sealed.  The initiator
checks the certificate, and both are left with the same pair of transport keys.

A step that fails keeps the state it reached, so a party shows how far it got.
-/

namespace MiningPool.Noise

open MiningPool.Curve

/-- The number of bytes of an encoded key. -/
def encodingSize : Nat := 64

/-- The number of bytes of a sealed encoded key. -/
def sealedEncodingSize : Nat := encodingSize + 16

/-- The number of bytes of the answer of the responder. -/
def replySize : Nat := encodingSize + sealedEncodingSize + (certificateSize + 16)

/-- The party that starts a handshake. -/
structure Initiator where
  symmetric : Symmetric
  /-- The ephemeral secret key. -/
  ephemeral : Bytes
  /-- The authority whose certificates are accepted; without one all are. -/
  authority : Option Bytes
  deriving DecidableEq, Repr

/-- The party that answers. -/
structure Responder where
  symmetric : Symmetric
  /-- The ephemeral secret key. -/
  ephemeral : Bytes
  /-- The static secret key. -/
  static : Bytes
  /-- The secret key of the authority that vouches for the static key. -/
  authority : Bytes
  /-- For how many seconds certificates are valid. -/
  validity : UInt32
  deriving DecidableEq, Repr

/-- Whether bytes are a public key, as a failure. -/
def checkPublic (suite : Suite) (publicKey : Bytes) : Except NoiseError Unit :=
  if suite.isPublic publicKey then .ok () else .error .invalidPublicKey

/-- Whether the keys of an authority are keys and belong together, as a failure. -/
def checkAuthority (suite : Suite) (publicKey secret : Bytes) : Except NoiseError Unit :=
  if suite.isSecret secret then
    if suite.isPublic publicKey then
      if suite.publicKey secret = publicKey then .ok () else .error .keyMismatch
    else .error .invalidPublicKey
  else .error .invalidSecretKey

/-- The later end of a validity of some seconds, at most the largest time. -/
def notValidAfter (now validity : UInt32) : UInt32 :=
  if now.toNat + validity.toNat < UInt32.size then now + validity else 0xffffffff

/-- The validity of a number of seconds, at most the longest there is. -/
def spanOfSeconds (seconds : UInt64) : UInt32 :=
  if seconds.toNat < UInt32.size then seconds.toUInt32 else 0xffffffff

namespace Initiator

/-- Prepare to start a handshake with a fresh ephemeral key. -/
def prepare
    (suite : Suite)
    (authority : Option Bytes)
    (stream : Digest.Stream) :
    Initiator × Digest.Stream :=
  let (ephemeral, stream) := suite.drawSecret stream
  (⟨Symmetric.start, ephemeral, authority⟩, stream)

/-- Run a step on the symmetric state. -/
def run
    {α : Type}
    (initiator : Initiator)
    (step : Handshake α) :
    Initiator × Except NoiseError α :=
  let (result, symmetric) := step.run.run initiator.symmetric
  ({ initiator with symmetric }, result)

/-- Send the ephemeral key. -/
def hello (suite : Suite) (initiator : Initiator) : Initiator × Except NoiseError Bytes :=
  initiator.run do
    let encoding := suite.encode initiator.ephemeral
    Handshake.change (·.mixHash encoding)
    let _ ← Handshake.attempt (·.encryptAndHash suite [])
    return encoding

/-- Take the answer of the responder and check its certificate. -/
def finishStep
    (suite : Suite)
    (initiator : Initiator)
    (reply : Bytes)
    (now : UInt32) :
    Handshake Transport := do
  let ours := suite.encode initiator.ephemeral
  let theirEphemeral := reply.take encodingSize
  Handshake.change (·.mixHash theirEphemeral)
  Handshake.change
    (·.mixKey (suite.sharedSecret ours theirEphemeral initiator.ephemeral .initiator))
  let theirStatic ← Handshake.attempt
    (·.decryptAndHash suite ((reply.drop encodingSize).take sealedEncodingSize))
  if theirStatic.length ≠ encodingSize then throw .wrongLength
  Handshake.change
    (·.mixKey (suite.sharedSecret ours theirStatic initiator.ephemeral .initiator))
  let certificate ← Handshake.attempt
    (·.decryptAndHash suite (reply.drop (encodingSize + sealedEncodingSize)))
  if certificate.length ≠ certificateSize then throw .wrongLength
  match
    (Certificate.ofBytes certificate).check suite (suite.decode theirStatic)
      initiator.authority now
  with
  | .error failure => throw failure
  | .ok () =>
    let (ourKey, theirKey) := (← get).split
    return ⟨Direction.ofKey ourKey, Direction.ofKey theirKey⟩

/-- Take the answer of the responder; on success the transport ciphers are ready. -/
def finish
    (suite : Suite)
    (initiator : Initiator)
    (reply : Bytes)
    (now : UInt32) :
    Initiator × Except NoiseError Transport :=
  initiator.run (initiator.finishStep suite reply now)

end Initiator

namespace Responder

/-- Prepare to answer with a fresh ephemeral and a fresh static key. -/
def prepare
    (suite : Suite)
    (authority : Bytes)
    (validity : UInt32)
    (stream : Digest.Stream) :
    Responder × Digest.Stream :=
  let (ephemeral, stream) := suite.drawSecret stream
  let (static, stream) := suite.drawSecret stream
  (⟨Symmetric.start, ephemeral, static, authority, validity⟩, stream)

/-- Answer the ephemeral key of an initiator with keys and a certificate. -/
def replyStep
    (suite : Suite)
    (responder : Responder)
    (theirs : Bytes)
    (now : UInt32)
    (stream : Digest.Stream) :
    Handshake (Bytes × Transport) := do
  let ours := suite.encode responder.ephemeral
  Handshake.change (·.mixHash ours)
  Handshake.change
    (·.mixKey (suite.sharedSecret theirs ours responder.ephemeral .responder))
  let ourStatic := suite.encode responder.static
  let sealedStatic ← Handshake.attempt (·.encryptAndHash suite ourStatic)
  if sealedStatic.length ≠ sealedEncodingSize then throw .wrongLength
  Handshake.change
    (·.mixKey (suite.sharedSecret theirs ourStatic responder.static .responder))
  let (certificate, _) :=
    Certificate.issue suite 0 now (notValidAfter now responder.validity)
      (suite.publicKey responder.static) responder.authority stream
  let sealedCertificate ← Handshake.attempt (·.encryptAndHash suite certificate.toBytes)
  if sealedCertificate.length ≠ certificateSize + 16 then throw .wrongLength
  let (theirKey, ourKey) := (← get).split
  return (ours ++ sealedStatic ++ sealedCertificate,
    ⟨Direction.ofKey ourKey, Direction.ofKey theirKey⟩)

/-- Take the ephemeral key of an initiator into the digest. -/
def receiveStep (suite : Suite) (theirs : Bytes) : Handshake Unit := do
  Handshake.change (·.mixHash theirs)
  let _ ← Handshake.attempt (·.decryptAndHash suite [])
  return ()

/-- Run a step on the symmetric state. -/
def run
    {α : Type}
    (responder : Responder)
    (step : Handshake α) :
    Responder × Except NoiseError α :=
  let (result, symmetric) := step.run.run responder.symmetric
  ({ responder with symmetric }, result)

/--
Answer the ephemeral key of an initiator with a new ephemeral key of its own; on
success the transport ciphers are ready.
-/
def reply
    (suite : Suite)
    (responder : Responder)
    (theirs : Bytes)
    (now : UInt32)
    (stream : Digest.Stream) :
    Responder × Except NoiseError (Bytes × Transport) :=
  match responder.run (receiveStep suite theirs) with
  | (responder, .error failure) => (responder, .error failure)
  | (responder, .ok ()) =>
    let (ephemeral, stream) := suite.drawSecret stream
    let responder := { responder with ephemeral }
    responder.run (responder.replyStep suite theirs now stream)

end Responder

end MiningPool.Noise
