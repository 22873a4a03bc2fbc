import MiningPool.Extranonce
import MiningPool.Job.Error
import MiningPool.Message.Mining

/-!
# Failures of channels

Why a channel is not opened or an operation on it is refused.  A miner whose channel is
not opened is told a code, which says no more than it needs to know.
-/

namespace MiningPool

open MiningPool.Message.Mining

/-- Why an operation on a channel is refused. -/
inductive ChannelError
  /-- A job could not be made. -/
  | job (failure : JobError)
  /-- The start of an extranonce was not handed out. -/
  | extranonce (failure : ExtranonceError)
  /-- The hash rate is not a number above zero. -/
  | invalidHashRate
  /-- The target for the hash rate is above the greatest one the miner accepts. -/
  | maxTargetOutOfRange
  /-- The miner wants to roll more of the extranonce than is left to it. -/
  | minimumTooLarge
  | notCreated
  | noChainTip
  /-- No job waits for the template. -/
  | unknownTemplate
  | unknownJob
  /-- The start of the extranonce leaves the miner too little. -/
  | extranonceTooLong
  /-- The miner of a standard channel rolls nothing, so its extranonce must be whole. -/
  | extranonceNotWhole
  /-- The script of the coinbase is too long. -/
  | scriptTooLong
  /-- A job of a miner's own names another channel. -/
  | foreignJob
  /-- A job for many channels could not be turned into one for this channel. -/
  | conversion (failure : ConversionError)
  /-- A group has more members than a message can list. -/
  | tooManyMembers
  deriving DecidableEq, Repr

namespace ChannelError

/-- The name of a failure. -/
def name : ChannelError → String
  | job _ => "JobFactoryError"
  | extranonce _ => "ExtranoncePrefixFactoryError"
  | invalidHashRate => "InvalidNominalHashrate"
  | maxTargetOutOfRange => "RequestedMaxTargetOutOfRange"
  | minimumTooLarge => "RequestedMinExtranonceSizeTooLarge"
  | notCreated => "FailedToCreateChannel"
  | noChainTip => "ChainTipNotSet"
  | unknownTemplate => "TemplateIdNotFound"
  | unknownJob => "JobIdNotFound"
  | extranonceTooLong => "ExtranoncePrefixTooLarge"
  | extranonceNotWhole => "InvalidExtranoncePrefixLength"
  | scriptTooLong => "ScriptSigSizeTooLarge"
  | foreignJob => "InvalidJobOrigin"
  | conversion _ => "FailedToConvertToStandardJob"
  | tooManyMembers => "TooManyStandardChannels"

/-- The wording of a failure. -/
def message : ChannelError → String
  | job failure => "Job factory error: " ++ failure.message
  | extranonce failure => "Extranonce prefix error: " ++ failure.message
  | invalidHashRate => "Invalid nominal hashrate"
  | maxTargetOutOfRange => "Requested max target out of range"
  | minimumTooLarge => "Requested min extranonce size too large"
  | notCreated => "Failed to create channel"
  | noChainTip => "Chain tip not set"
  | unknownTemplate => "No future job for template id"
  | unknownJob => "Job id not found"
  | extranonceTooLong => "Extranonce prefix too large"
  | extranonceNotWhole => "Extranonce prefix must be 32 bytes"
  | scriptTooLong => "Coinbase scriptSig too large"
  | foreignJob => "Custom job is for another channel"
  | conversion failure => failure.message
  | tooManyMembers => "Too many standard channels in group"

instance : Failure ChannelError := ⟨name, message⟩

/-- A job that could not be made; what concerns script and chain tip is told apart. -/
def ofJob : JobError → ChannelError
  | .scriptTooLong _ => scriptTooLong
  | .chainTipRequired => noChainTip
  | failure => job failure

/-- A start that was not handed out to an extended channel. -/
def ofExtranonce : ExtranonceError → ChannelError
  | .minimumTooLarge => minimumTooLarge
  | failure => extranonce failure

/-- The code that the miner of a standard channel is told. -/
def standardCode : ChannelError → String
  | invalidHashRate => "invalid-nominal-hashrate"
  | maxTargetOutOfRange => "max-target-out-of-range"
  | _ => "failed-to-create-channel"

/-- The code that the miner of an extended channel is told. -/
def extendedCode : ChannelError → String
  | minimumTooLarge => "min-extranonce-size-too-large"
  | extranonce .minimumTooLarge => "min-extranonce-size-too-large"
  | failure => failure.standardCode

end ChannelError

end MiningPool
