import MiningPool.Failure
import MiningPool.Message.Mining

/-!
# Verdicts on shares

A share is either rejected with a cause, which has a code that the miner is told, or it
is accepted: silently, with an acknowledgement of all shares so far, or as a block.
-/

namespace MiningPool

open MiningPool.Message.Mining

/-- Why a share is rejected. -/
inductive ShareError
  | invalid
  /-- The job belongs to the chain tip before. -/
  | stale
  | unknownJob
  /-- The hash is above the target. -/
  | aboveTarget
  | versionRollingNotAllowed
  | duplicate
  | invalidCoinbase
  | noChainTip
  /-- The extranonce is not as long as the part the miner rolls. -/
  | wrongExtranonceSize
  deriving DecidableEq, Repr

namespace ShareError

/-- The name of a cause. -/
def name : ShareError → String
  | invalid => "Invalid"
  | stale => "Stale"
  | unknownJob => "InvalidJobId"
  | aboveTarget => "DoesNotMeetTarget"
  | versionRollingNotAllowed => "VersionRollingNotAllowed"
  | duplicate => "DuplicateShare"
  | invalidCoinbase => "InvalidCoinbase"
  | noChainTip => "NoChainTip"
  | wrongExtranonceSize => "BadExtranonceSize"

/-- The code that the miner is told. -/
def code : ShareError → String
  | invalid => "invalid-share"
  | stale => "stale-share"
  | unknownJob => "invalid-job-id"
  | aboveTarget => "difficulty-too-low"
  | versionRollingNotAllowed => "version-rolling-not-allowed"
  | duplicate => "duplicate-share"
  | invalidCoinbase => "invalid-coinbase"
  | noChainTip => "no-chain-tip"
  | wrongExtranonceSize => "bad-extranonce-size"

/-- The wording of a cause. -/
def message (failure : ShareError) : String :=
  "Share rejected: " ++ failure.code

instance : Failure ShareError := ⟨name, message⟩

/-- The answer to the miner. -/
def reply (failure : ShareError) (channelId sequenceNumber : UInt32) : SubmitSharesError :=
  .ofCode channelId sequenceNumber failure.code

end ShareError

/-- How a share is accepted. -/
inductive ShareOutcome
  | valid
  /-- The share completes a batch; the last number, the count and the work of all so far. -/
  | acknowledged (lastSequenceNumber accepted : UInt32) (work : UInt64)
  /-- The share is a block; its template and its coinbase with the witness. -/
  | blockFound (templateId : Option UInt64) (coinbase : Bytes)
  deriving DecidableEq, Repr

/-- The name of an outcome. -/
def ShareOutcome.name : ShareOutcome → String
  | valid => "Valid"
  | acknowledged _ _ _ => "ValidWithAcknowledgement"
  | blockFound _ _ => "BlockFound"

end MiningPool
