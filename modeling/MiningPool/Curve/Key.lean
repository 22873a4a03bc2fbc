import MiningPool.Digest.Sha256
import MiningPool.Digest.Stream
import MiningPool.Curve.Point

/-!
# Keys

A secret key is a nonzero factor below the order of the curve, its public key the
multiple of the generator.  Public keys are exchanged by their first coordinate only,
which stands for the point whose second coordinate is even.
-/

namespace MiningPool.Curve

/-- The factor of a secret key of 32 bytes; zero and what is too large are no keys. -/
def secretOfBytes? (bytes : Bytes) : Option Nat :=
  let secret := bytes.toNatBE
  if bytes.length = 32 ∧ secret ≠ 0 ∧ secret < order then some secret else none

/-- The public key of a secret key that is not a multiple of the order. -/
def publicPoint (secret : Nat) : Point :=
  ((Ratio.multiply secret Point.generator).toPoint?).getD Point.generator

/-- The point with an even second coordinate of a public key of 32 bytes. -/
def pointOfBytes? (bytes : Bytes) : Option Point :=
  let x := bytes.toNatBE
  if bytes.length = 32 ∧ x < prime then Point.ofAbscissa? x false else none

/-- The 32 bytes of the first coordinate. -/
def Point.bytes (point : Point) : Bytes :=
  Bytes.ofNatBE 32 point.x

/-- How often drawing a key is tried before the key one is taken. -/
def drawLimit : Nat := 4096

/-- Draw a secret key with an even public key in at most `tries` tries. -/
def drawSecretWithin : (tries : Nat) → Digest.Stream → Nat × Digest.Stream
  | 0, stream => (1, stream)
  | tries + 1, stream =>
    let (bytes, stream) := stream.draw 32
    match secretOfBytes? bytes with
    | none => drawSecretWithin tries stream
    | some secret =>
      if (publicPoint secret).isOdd then drawSecretWithin tries stream
      else (secret, stream)

/-- Draw a secret key with an even public key. -/
def drawSecret (stream : Digest.Stream) : Nat × Digest.Stream :=
  drawSecretWithin drawLimit stream

end MiningPool.Curve
