import MiningPool.Noise.Error
import MiningPool.Noise.Suite

/-!
# Certificates

With a certificate an authority vouches for the static key of a responder over a span
of time.  It signs the digest of version, span and key; the key itself is not part of
the certificate, it is sent before it.
-/

namespace MiningPool.Noise

/-- The number of bytes of a certificate. -/
def certificateSize : Nat := 74

/-- What an authority vouches for. -/
structure Certificate where
  version : UInt16
  validFrom : UInt32
  notValidAfter : UInt32
  signature : Bytes
  deriving DecidableEq, Repr

namespace Certificate

/-- The bytes in front of the signature. -/
def front (version : UInt16) (validFrom notValidAfter : UInt32) : Bytes :=
  Bytes.ofNatLE 2 version.toNat ++ Bytes.ofNatLE 4 validFrom.toNat ++
    Bytes.ofNatLE 4 notValidAfter.toNat

/-- The digest that is signed. -/
def signedDigest
    (version : UInt16)
    (validFrom notValidAfter : UInt32)
    (staticKey : Bytes) :
    Bytes :=
  Digest.Sha256.hash (front version validFrom notValidAfter ++ staticKey)

/-- Vouch for a static key, with the next 32 bytes of a stream as auxiliary randomness. -/
def issue
    (suite : Suite)
    (version : UInt16)
    (validFrom notValidAfter : UInt32)
    (staticKey authoritySecret : Bytes)
    (stream : Digest.Stream) :
    Certificate × Digest.Stream :=
  let (auxiliary, stream) := stream.draw 32
  let digest := signedDigest version validFrom notValidAfter staticKey
  (⟨version, validFrom, notValidAfter, suite.sign authoritySecret digest auxiliary⟩, stream)

/-- The bytes of a certificate. -/
def toBytes (certificate : Certificate) : Bytes :=
  front certificate.version certificate.validFrom certificate.notValidAfter ++
    certificate.signature

/-- Take a certificate out of its bytes. -/
def ofBytes (bytes : Bytes) : Certificate :=
  ⟨UInt16.ofNat (Bytes.toNatLE (bytes.take 2)),
   UInt32.ofNat (Bytes.toNatLE ((bytes.drop 2).take 4)),
   UInt32.ofNat (Bytes.toNatLE ((bytes.drop 6).take 4)),
   bytes.drop 10⟩

/-- Check that an authority vouches for a static key now; who trusts no one checks nothing. -/
def check
    (suite : Suite)
    (certificate : Certificate)
    (staticKey : Bytes)
    (authority : Option Bytes)
    (now : UInt32) :
    Except NoiseError Unit :=
  match authority with
  | none => .ok ()
  | some authority =>
    let digest :=
      signedDigest certificate.version certificate.validFrom certificate.notValidAfter staticKey
    if suite.verify authority digest certificate.signature then
      if certificate.validFrom ≤ now ∧ now ≤ certificate.notValidAfter then .ok ()
      else
        .error (.certificateExpired certificate.validFrom certificate.notValidAfter now)
    else .error (.invalidCertificate certificate.toBytes)

end Certificate

end MiningPool.Noise
