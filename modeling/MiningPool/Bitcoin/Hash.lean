import MiningPool.Digest.Sha256
import MiningPool.Wire.Value

/-!
# Hashes

Transactions and blocks are named by the double digest of their bytes.
-/

namespace MiningPool.Bitcoin

/-- A double digest, in the order in which its bytes are computed. -/
abbrev Hash := Wire.Blob .u256

/-- The double digest of bytes. -/
def hashOf (bytes : Bytes) : Hash :=
  ⟨Digest.Sha256.double bytes, Digest.Sha256.length_double bytes⟩

/-- Fold the hashes of a path to the root of a tree into that of its first leaf. -/
def foldPath (leaf : Hash) (path : List Hash) : Hash :=
  path.foldl (fun root node => hashOf (root.bytes ++ node.bytes)) leaf

theorem bytes_foldPath (leaf : Hash) (path : List Hash) :
    (foldPath leaf path).bytes =
      path.foldl (fun root node => Digest.Sha256.hash (Digest.Sha256.hash (root ++ node.bytes)))
        leaf.bytes := by
  induction path generalizing leaf with
  | nil => rfl
  | cons node rest ih => exact ih (hashOf (leaf.bytes ++ node.bytes))

end MiningPool.Bitcoin
