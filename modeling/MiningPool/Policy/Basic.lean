import MiningPool.Hex
import MiningPool.Job.Factory
import MiningPool.Number.Shortest

/-!
# Policies

A policy says how a pool treats all channels it opens: how many shares a minute it
expects, how often it acknowledges them, how it tags its blocks, where the reward goes
and whether miners may roll the version.  Policies are checked settings.
-/

namespace MiningPool

open MiningPool.Bitcoin MiningPool.Wire

/-- Why settings are no policy. -/
inductive PolicyError
  /-- The settings cannot be read. -/
  | unreadable
  /-- The number of shares a minute is not a number above zero. -/
  | invalidSharesPerMinute (value : Single)
  | invalidBatchSize
  /-- The script of a coinbase with this tag would be too long. -/
  | tagTooLong (length : Nat)
  | invalidPayoutScript
  deriving DecidableEq, Repr

namespace PolicyError

/-- The name of a failure. -/
def name : PolicyError → String
  | unreadable => "Config"
  | invalidSharesPerMinute _ => "InvalidSharesPerMinute"
  | invalidBatchSize => "InvalidShareBatchSize"
  | tagTooLong _ => "PoolTagTooLong"
  | invalidPayoutScript => "InvalidPayoutScript"

/-- The wording of a failure; what is wrong with unreadable settings is not told. -/
def message : PolicyError → String
  | unreadable => ""
  | invalidSharesPerMinute value =>
    "Expected shares per minute must be positive, got " ++ Number.singleText value
  | invalidBatchSize => "Share batch size must be positive"
  | tagTooLong length => s!"Pool tag of {length} bytes does not fit in the coinbase"
  | invalidPayoutScript => "Pool payout script_pubkey must be non-empty hex"

instance : Failure PolicyError := ⟨name, message⟩

end PolicyError

/-- What a pool is set up with, before it is checked. -/
structure Settings where
  sharesPerMinute : Single
  batchSize : Nat
  tag : String
  /-- The digits of the script that guards the rewards. -/
  payoutScript : String
  versionRolling : Bool
  deriving DecidableEq, Repr

/-- How a pool treats its channels. -/
structure Policy where
  sharesPerMinute : Single
  batchSize : Nat
  tag : String
  /-- The script that guards the rewards. -/
  payoutScript : Bytes
  versionRolling : Bool
  deriving DecidableEq, Repr

/-- The tag of settings; an empty one is none. -/
def tagOf (tag : String) : Option String :=
  if tag = "" then none else some tag

namespace Policy

/-- Check settings. -/
def ofSettings (settings : Settings) : Except PolicyError Policy :=
  if !Number.Format.single.isPositiveFinite settings.sharesPerMinute.bits.toNat then
    .error (.invalidSharesPerMinute settings.sharesPerMinute)
  else if settings.batchSize = 0 then .error .invalidBatchSize
  else if !(JobFactory.start true (tagOf settings.tag)).fitsScript then
    .error (.tagTooLong settings.tag.utf8ByteSize)
  else
    match Hex.decode? settings.payoutScript with
    | none => .error .invalidPayoutScript
    | some [] => .error .invalidPayoutScript
    | some payoutScript =>
      .ok
        { sharesPerMinute := settings.sharesPerMinute
          batchSize := settings.batchSize
          tag := settings.tag
          payoutScript
          versionRolling := settings.versionRolling }

/-- The tag that is written into coinbases. -/
def poolTag (policy : Policy) : Option String :=
  tagOf policy.tag

/-- The rewards of a value: a single output to the pool. -/
def rewards (policy : Policy) (value : UInt64) : List Output :=
  [⟨value, policy.payoutScript⟩]

end Policy

end MiningPool
