import MiningPool.Bitcoin.Hash
import MiningPool.Target

/-!
# Blocks

The header of a block commits to the block before it and, through the root of a tree of
hashes, to its transactions.  A block is found when the hash of its header, read as a
number, is not above the target that the header states in a compact form of a mantissa
and an exponent.
-/

namespace MiningPool.Bitcoin

/-- What is hashed to find a block. -/
structure Header where
  version : UInt32
  /-- The hash of the block before. -/
  previous : Hash
  merkleRoot : Hash
  time : UInt32
  /-- The target in its compact form. -/
  bits : UInt32
  nonce : UInt32
  deriving DecidableEq, Repr

namespace Header

/-- The bytes of a header. -/
def toBytes (header : Header) : Bytes :=
  Bytes.ofNatLE 4 header.version.toNat ++ header.previous.bytes ++ header.merkleRoot.bytes ++
    Bytes.ofNatLE 4 header.time.toNat ++ Bytes.ofNatLE 4 header.bits.toNat ++
    Bytes.ofNatLE 4 header.nonce.toNat

/-- The hash of a header. -/
def hash (header : Header) : Hash :=
  hashOf header.toBytes

end Header

/-- The mantissa of a compact target and by how many bits it is shifted to the left. -/
def mantissaAndShift (bits : UInt32) : Nat × Nat :=
  let exponent := bits.toNat / Bytes.capacity 3
  let mantissa := bits.toNat % Bytes.capacity 3
  if exponent ≤ 3 then (mantissa / Bytes.capacity (3 - exponent), 0)
  else (mantissa, 8 * (exponent - 3))

/--
The target of a compact form: a mantissa with its sign bit set stands for zero, the
shift counts modulo 256, and bits above the highest are lost.
-/
def targetOfBits (bits : UInt32) : Target :=
  let (mantissa, shift) := mantissaAndShift bits
  if 0x7fffff < mantissa then .ofNat 0 else .ofNat (mantissa <<< (shift % 256))

end MiningPool.Bitcoin
