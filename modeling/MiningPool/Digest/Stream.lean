import MiningPool.Digest.Sha256

/-!
# Byte streams from a seed

An endless sequence of bytes: the digests of a seed followed by a counter, one after
the other.  Whoever draws bytes gets the next ones and the stream that is left.
-/

namespace MiningPool.Digest

/-- A sequence of bytes that a seed determines. -/
structure Stream where
  seed : Bytes
  counter : Nat
  pending : Bytes
  deriving DecidableEq, Repr

namespace Stream

/-- The stream of a seed from its start. -/
def ofSeed (seed : Bytes) : Stream :=
  ⟨seed, 0, []⟩

/-- The block of the sequence at a counter. -/
def block (seed : Bytes) (counter : Nat) : Bytes :=
  Sha256.hash (seed ++ Bytes.ofNatLE 8 counter)

/-- Draw the next `count` bytes. -/
def draw (stream : Stream) (count : Nat) : Bytes × Stream :=
  let blocks := (count - stream.pending.length + 31) / 32
  let fresh := (List.range blocks).flatMap fun index =>
    block stream.seed (stream.counter + index)
  let available := stream.pending ++ fresh
  (available.take count,
    { stream with counter := stream.counter + blocks, pending := available.drop count })

end Stream

end MiningPool.Digest
