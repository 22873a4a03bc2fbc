import MiningPool.Coinbase.Outputs
import MiningPool.Coinbase.Witness

/-!
# Failures of jobs

Why a job could not be made from a template or from the wishes of a miner, and why a
job for many channels could not be turned into one for a single channel.
-/

namespace MiningPool

open MiningPool.Coinbase

/-- Why a job could not be made. -/
inductive JobError
  /-- The witness could not be taken out of the coinbase. -/
  | witness (failure : WitnessError)
  /-- The outputs of the coinbase could not be written. -/
  | unwritableOutputs
  /-- The bytes given for the outputs of the coinbase are not outputs. -/
  | malformedOutputs (failure : OutputsError)
  /-- The tag of the pool or the first half of the coinbase is too long. -/
  | invalidFront
  /-- The second half of the coinbase is too long. -/
  | invalidBack
  /-- The script of the coinbase is longer than the chain allows. -/
  | scriptTooLong (length : Nat)
  /-- The rewards add up to more than a value can be. -/
  | rewardOverflow
  /-- The rewards do not add up to what the template leaves to them. -/
  | wrongReward (expected actual : Nat)
  /-- There is no root of the tree of transactions. -/
  | noMerkleRoot
  /-- A job that does not wait for a block needs to know the last one. -/
  | chainTipRequired
  deriving DecidableEq, Repr

namespace JobError

/-- The name of a failure. -/
def name : JobError → String
  | witness _ => "FailedToStripBip141"
  | unwritableOutputs => "FailedToSerializeCoinbaseOutputs"
  | malformedOutputs _ => "DeserializeCoinbaseOutputsError"
  | invalidFront => "CoinbaseTxPrefixError"
  | invalidBack => "CoinbaseTxSuffixError"
  | scriptTooLong _ => "ScriptSigTooLarge"
  | rewardOverflow => "CoinbaseOutputsSumOverflow"
  | wrongReward _ _ => "InvalidCoinbaseOutputsSum"
  | noMerkleRoot => "FailedToCalculateMerkleRoot"
  | chainTipRequired => "ChainTipRequired"

/-- The wording of a failure. -/
def message : JobError → String
  | witness failure => "Failed to strip bip141 data: " ++ failure.message
  | unwritableOutputs => "Failed to serialize coinbase outputs"
  | malformedOutputs failure => failure.message
  | invalidFront => "Invalid coinbase tx prefix"
  | invalidBack => "Invalid coinbase tx suffix"
  | scriptTooLong length => s!"Coinbase scriptSig of {length} bytes is too large"
  | rewardOverflow => "Coinbase outputs sum overflows"
  | wrongReward expected actual =>
    s!"Coinbase reward outputs sum to {actual} sats, template has {expected} sats"
  | noMerkleRoot => "Failed to calculate merkle root"
  | chainTipRequired => "A chain tip is required for non-future jobs"

instance : Failure JobError := ⟨name, message⟩

end JobError

/-- Why a job for many channels could not be turned into one for a single channel. -/
inductive ConversionError
  /-- There is no root of the tree of transactions. -/
  | noMerkleRoot
  /-- The job was not made from a template. -/
  | notFromTemplate
  deriving DecidableEq, Repr

namespace ConversionError

/-- The name of a failure. -/
def name : ConversionError → String
  | noMerkleRoot => "FailedToCalculateMerkleRoot"
  | notFromTemplate => "FailedToConvertToStandardJob"

/-- The wording of a failure. -/
def message : ConversionError → String
  | noMerkleRoot => "Failed to calculate merkle root"
  | notFromTemplate => "Only template jobs can be converted to standard jobs"

instance : Failure ConversionError := ⟨name, message⟩

end ConversionError

end MiningPool
