import MiningPool.Message.Mining
import MiningPool.Message.TemplateDistribution

/-!
# Chain tips

What a block that extends the chain must agree with: the hash of the last block, the
target and the earliest time.
-/

namespace MiningPool

open MiningPool.Wire MiningPool.Message

/-- The end of the chain that is mined on. -/
structure ChainTip where
  prevHash : Blob .u256
  nbits : UInt32
  minNtime : UInt32
  deriving DecidableEq, Repr

namespace ChainTip

/-- The tip that a template provider announces. -/
def ofTemplate (message : TemplateDistribution.SetNewPrevHash) : ChainTip :=
  ⟨message.prevHash, message.nBits, message.headerTimestamp⟩

/-- The tip that a pool announces. -/
def ofMining (message : Mining.SetNewPrevHash) : ChainTip :=
  ⟨message.prevHash, message.nbits, message.minNtime⟩

/-- The tip that a job of a miner's own is made for. -/
def ofCustomJob (message : Mining.SetCustomMiningJob) : ChainTip :=
  ⟨message.prevHash, message.nbits, message.minNtime⟩

end ChainTip

end MiningPool
