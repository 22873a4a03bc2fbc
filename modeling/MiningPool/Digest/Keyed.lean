import MiningPool.Digest.Sha256

/-!
# Keyed digests

A digest of a message under a key, made of two plain digests, and the derivation of
two fresh keys from a chaining key.
-/

namespace MiningPool.Digest

/-- Combine every byte of a key, filled up to a block with zeros, with one byte. -/
def padKey (key : Bytes) (byte : UInt8) : Bytes :=
  (key ++ List.replicate (64 - key.length) 0).map (· ^^^ byte)

/-- The digest of a message under a key of at most one block. -/
def keyed (key message : Bytes) : Bytes :=
  Sha256.hash (padKey key 0x5c ++ Sha256.hash (padKey key 0x36 ++ message))

/-- Derive two keys from a chaining key and what was agreed upon. -/
def derivePair (chainingKey material : Bytes) : Bytes × Bytes :=
  let extracted := keyed chainingKey material
  let first := keyed extracted [1]
  (first, keyed extracted (first ++ [2]))

end MiningPool.Digest
