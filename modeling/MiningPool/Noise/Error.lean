import MiningPool.Bytes
import MiningPool.Failure

/-!
# Failures of the handshake and of the ciphers

What can go wrong between two parties that agree on keys and use them, each with its
wording.
-/

namespace MiningPool.Noise

/-- Why a handshake or a cipher failed. -/
inductive NoiseError
  /-- A sealed text is not authentic. -/
  | unauthentic
  /-- There is no key to work with. -/
  | missingKey
  /-- A certificate is not signed by the authority. -/
  | invalidCertificate (certificate : Bytes)
  /-- A certificate is well signed but not valid at the time. -/
  | certificateExpired (validFrom notValidAfter now : UInt32)
  /-- Bytes are not a public key. -/
  | invalidPublicKey
  /-- Bytes are not a secret key. -/
  | invalidSecretKey
  /-- A public and a secret key do not belong together. -/
  | keyMismatch
  /-- A handshake message has the wrong length. -/
  | wrongLength
  /-- A cipher has no counter value left. -/
  | nonceExhausted
  deriving DecidableEq, Repr

/-- The name of a failure. -/
def NoiseError.name : NoiseError → String
  | unauthentic => "Aead"
  | missingKey => "InvalidCipherState"
  | invalidCertificate _ => "InvalidCertificate"
  | certificateExpired _ _ _ => "CertificateExpired"
  | invalidPublicKey => "InvalidRawPublicKey"
  | invalidSecretKey => "InvalidRawPrivateKey"
  | keyMismatch => "KeypairMismatch"
  | wrongLength => "InvalidMessageLength"
  | nonceExhausted => "NonceExhausted"

/-- The wording of a failure. -/
def NoiseError.message : NoiseError → String
  | unauthentic => "AEAD error: aead::Error"
  | missingKey => "Cipher state has no key"
  | invalidCertificate _ => "Invalid responder certificate signature"
  | certificateExpired validFrom notValidAfter now =>
    s!"Responder certificate valid from {validFrom} to {notValidAfter}, now is {now}"
  | invalidPublicKey => "Invalid raw public key"
  | invalidSecretKey => "Invalid raw private key"
  | keyMismatch => "Authority public key does not match the private key"
  | wrongLength => "Invalid handshake message length"
  | nonceExhausted => "Nonce counter exhausted"

instance : Failure NoiseError := ⟨NoiseError.name, NoiseError.message⟩

end MiningPool.Noise
