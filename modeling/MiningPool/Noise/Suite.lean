import MiningPool.Cipher.Sealed
import MiningPool.Curve.ElligatorSwift
import MiningPool.Curve.Schnorr

/-!
# Suites

A suite collects the operations on keys, signatures and sealed texts on which a
handshake rests.  The handshake uses nothing else of them, so it can be stated and
reasoned about for every suite.  Keys, encodings and signatures are byte strings.
-/

namespace MiningPool.Noise

open MiningPool.Curve

/-- The operations on which a handshake rests. -/
structure Suite where
  /-- Draw a secret key. -/
  drawSecret : Digest.Stream → Bytes × Digest.Stream
  /-- Whether bytes are a secret key. -/
  isSecret : Bytes → Bool
  /-- Whether bytes are a public key. -/
  isPublic : Bytes → Bool
  /-- The public key of a secret key. -/
  publicKey : Bytes → Bytes
  /-- The form in which the public key of a secret key is sent. -/
  encode : Bytes → Bytes
  /-- The public key that was sent. -/
  decode : Bytes → Bytes
  /-- The secret that two parties share: the encodings of both and the secret key of one. -/
  sharedSecret : (initiator responder secret : Bytes) → ElligatorSwift.Party → Bytes
  /-- Sign a message with a secret key and auxiliary randomness. -/
  sign : (secret message auxiliary : Bytes) → Bytes
  /-- Whether a signature of a message is one of a public key. -/
  verify : (publicKey message signature : Bytes) → Bool
  /-- Seal a text under a key and a counter value. -/
  sealText : (key : Bytes) → (counter : UInt64) → (associated text : Bytes) → Bytes
  /-- Open a sealed text. -/
  openText? : (key : Bytes) → (counter : UInt64) → (associated sealedText : Bytes) → Option Bytes

/-- The twelve bytes that stand for a counter value. -/
def nonceBytes (counter : UInt64) : Bytes :=
  List.replicate 4 0 ++ Bytes.ofNatLE 8 counter.toNat

/-- The number of a secret key; bytes that are no key stand for one. -/
def secretNumber (secret : Bytes) : Nat :=
  (secretOfBytes? secret).getD 1

/-- Keys on the curve sent in ElligatorSwift form, sealed with ChaCha20 and Poly1305. -/
def ellSwiftChaChaPoly : Suite where
  drawSecret stream :=
    let (secret, stream) := drawSecret stream
    (Bytes.ofNatBE 32 secret, stream)
  isSecret secret := (secretOfBytes? secret).isSome
  isPublic publicKey := (pointOfBytes? publicKey).isSome
  publicKey secret := (publicPoint (secretNumber secret)).bytes
  encode secret := ElligatorSwift.encode (publicPoint (secretNumber secret))
  decode encoding := (ElligatorSwift.decode encoding).bytes
  sharedSecret initiator responder secret party :=
    ElligatorSwift.sharedSecret initiator responder (secretNumber secret) party
  sign secret message auxiliary := Schnorr.sign (secretNumber secret) message auxiliary
  verify := Schnorr.verify
  sealText key counter associated text :=
    Cipher.sealText key (nonceBytes counter) associated text
  openText? key counter associated sealedText :=
    Cipher.openText? key (nonceBytes counter) associated sealedText

end MiningPool.Noise
