import MiningPool.Failure
import MiningPool.Number.Binary
import MiningPool.Target

/-!
# Difficulty

How hard a target is compared with the easiest target of the first blocks, how much
work a share of it stands for, and which target a miner gets so that it finds a given
number of shares a minute.
-/

namespace MiningPool

open MiningPool.Number

/-- Why there is no target for a miner. -/
inductive TargetError
  /-- The hash rate is not a number above zero. -/
  | invalidHashRate
  /-- The number of shares a minute is not a number above zero. -/
  | invalidSharesPerMinute
  deriving DecidableEq, Repr

namespace TargetError

/-- The name of a failure. -/
def name : TargetError → String
  | invalidHashRate => "InvalidHashrate"
  | invalidSharesPerMinute => "InvalidSharesPerMinute"

/-- The wording of a failure. -/
def message : TargetError → String
  | invalidHashRate => "Hashrate must be a positive finite number"
  | invalidSharesPerMinute => "Shares per minute must be a positive finite number"

instance : Failure TargetError := ⟨name, message⟩

end TargetError

namespace Target

/-- The target of difficulty one. -/
def ofDifficultyOne : Target :=
  ⟨0xffff <<< 208, by decide⟩

/-- A target in double precision; both halves are rounded before they are added. -/
def toDouble (target : Target) : Float :=
  let half := Bytes.capacity 16
  doubleOfNat (target.value / half) * doubleOfNat half + doubleOfNat (target.value % half)

/-- How many times harder a target is than that of difficulty one. -/
def difficulty (target : Target) : Float :=
  ofDifficultyOne.toDouble / target.toDouble

/-- The work a share of a target stands for: its difficulty as an integer. -/
def work (target : Target) : UInt64 :=
  UInt64.ofNat (truncateDouble (UInt64.size - 1) target.difficulty)

/-- The target that one of `hashes + 1` hashes reaches on average. -/
def ofHashCount (hashes : Nat) : Target :=
  ⟨(Bytes.capacity 32 - 1 - hashes) / (hashes + 1), by
    have bound : (Bytes.capacity 32 - 1 - hashes) / (hashes + 1) ≤ Bytes.capacity 32 - 1 - hashes :=
      Nat.div_le_self _ _
    have positive := Bytes.capacity_pos 32
    omega⟩

/-- The number of hashes computed between two shares, at most `2 ^ 128 - 1`. -/
def hashCount (hashRate sharesPerMinute : Float) : Nat :=
  truncateDouble (Bytes.capacity 16 - 1) (hashRate * (60 / sharesPerMinute))

/-- Whether a number is above zero and finite. -/
def isRate (value : Float) : Bool :=
  value.isFinite && 0 < value

/-- The target at which a hash rate finds a number of shares a minute. -/
def ofHashRate (hashRate sharesPerMinute : Float) : Except TargetError Target :=
  if !isRate hashRate then .error .invalidHashRate
  else if !isRate sharesPerMinute then .error .invalidSharesPerMinute
  else .ok (ofHashCount (hashCount hashRate sharesPerMinute))

end Target

end MiningPool
