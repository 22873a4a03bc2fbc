import MiningPool.Curve.Key

/-!
# Signatures

A signature is the first coordinate of a random multiple of the generator and a
factor that ties it to the message and to the secret key.  The randomness is derived
from the key, the message and auxiliary bytes.
-/

namespace MiningPool.Curve.Schnorr

/-- The factor that has an even multiple of the generator, of a factor and its negative. -/
def evenFactor (factor : Nat) : Nat :=
  if (publicPoint factor).isOdd then order - factor else factor

/-- The number that a commitment, a public key and a message lead to. -/
def challenge (commitment publicKey message : Bytes) : Nat :=
  (Digest.Sha256.tagged "BIP0340/challenge" (commitment ++ publicKey ++ message)).toNatBE % order

/-- Sign a message with a secret key and 32 bytes of auxiliary randomness. -/
def sign (secret : Nat) (message auxiliary : Bytes) : Bytes :=
  let publicKey := (publicPoint secret).bytes
  let secret := evenFactor secret
  let masked :=
    Bytes.xor (Bytes.ofNatBE 32 secret) (Digest.Sha256.tagged "BIP0340/aux" auxiliary)
  let nonce :=
    (Digest.Sha256.tagged "BIP0340/nonce" (masked ++ publicKey ++ message)).toNatBE % order
  let commitment := (publicPoint nonce).bytes
  let factor :=
    (evenFactor nonce + challenge commitment publicKey message * secret) % order
  commitment ++ Bytes.ofNatBE 32 factor

/-- Whether 64 bytes are a signature of a message under a public key of 32 bytes. -/
def verify (publicKey message signature : Bytes) : Bool :=
  match pointOfBytes? publicKey with
  | none => false
  | some point =>
    let commitment := Bytes.toNatBE (signature.take 32)
    let factor := Bytes.toNatBE (signature.drop 32)
    if commitment < prime ∧ factor < order then
      let number := challenge (signature.take 32) publicKey message
      let sum :=
        Ratio.add (Ratio.multiply factor Point.generator) (Ratio.multiply number point.negate)
      match sum.toPoint? with
      | none => false
      | some result => !result.isOdd && result.x == commitment
    else false

end MiningPool.Curve.Schnorr
