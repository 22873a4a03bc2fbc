import MiningPool.Share.Validation
import Std.Data.TreeSet.Lemmas

/-!
# Judging candidates

A candidate is a share whose header is complete.  From then on nothing but the hash of
the header decides: a block is counted at once, a hash above the target of the channel
and one that was seen before change nothing, and every other share is counted.
-/

namespace MiningPool

open MiningPool.Bitcoin

theorem Target.le_trans
    {left middle right : Target}
    (lower : left ≤ middle)
    (upper : middle ≤ right) :
    left ≤ right :=
  Nat.le_trans lower upper

theorem Target.le_of_value_eq
    {left other right : Target}
    (same : left.value = other.value)
    (upper : other ≤ right) :
    left ≤ right :=
  Nat.le_trans (Nat.le_of_eq same) upper

/-- A share with a complete header, and what is needed of it if it is a block. -/
structure Candidate where
  tip : ChainTip
  share : Share
  templateId : Option UInt64
  coinbase : Bytes
  deriving DecidableEq, Repr

namespace Candidate

/-- The hash of the header, as a number. -/
def hash (candidate : Candidate) : Target :=
  .ofBlob (candidate.share.header candidate.tip).hash

/-- Whether the hash is not above the target of the chain. -/
def IsBlock (candidate : Candidate) : Prop :=
  candidate.hash ≤ targetOfBits candidate.tip.nbits

/-- What a channel with given accounting and target makes of a candidate. -/
def judged
    (candidate : Candidate)
    (shares : ShareAccounting)
    (target : Target) :
    ShareAccounting × Except ShareError ShareOutcome :=
  shares.judge target candidate.tip candidate.share candidate.templateId candidate.coinbase

end Candidate

namespace ShareAccounting

/-- An accounting counts one share more, of given work, number and hash. -/
structure Counts
    (shares : ShareAccounting)
    (work : UInt64)
    (sequenceNumber : UInt32)
    (hash : Nat)
    (later : ShareAccounting) :
    Prop where
  accepted : later.accepted = shares.accepted + 1
  workSum : later.workSum = addWork shares.workSum work
  lastSequenceNumber : later.lastSequenceNumber = sequenceNumber
  batchSize : later.batchSize = shares.batchSize
  seen : ∀ other, later.hasSeen other = (hash == other || shares.hasSeen other)

theorem counts_record
    (shares : ShareAccounting)
    (work : UInt64)
    (sequenceNumber : UInt32)
    (hash : Nat) :
    shares.Counts work sequenceNumber hash (shares.record work sequenceNumber hash) where
  accepted := rfl
  workSum := rfl
  lastSequenceNumber := rfl
  batchSize := rfl
  seen other := by
    simp only [record, hasSeen, Std.TreeSet.contains_insert]
    congr 1
    exact Bool.eq_iff_iff.mpr (by simp)

/-- The best difficulty is kept apart from all that is counted. -/
theorem Counts.noteDifficulty
    {shares later : ShareAccounting}
    {work : UInt64}
    {sequenceNumber : UInt32}
    {hash : Nat}
    (counts : shares.Counts work sequenceNumber hash later)
    (difficulty : Float) :
    shares.Counts work sequenceNumber hash (later.noteDifficulty difficulty) := by
  unfold ShareAccounting.noteDifficulty
  split
  · exact ⟨counts.accepted, counts.workSum, counts.lastSequenceNumber, counts.batchSize,
      counts.seen⟩
  · exact counts

end ShareAccounting

namespace Candidate

/-- An accounting counts a candidate for the work of a target. -/
def CountedIn
    (candidate : Candidate)
    (shares : ShareAccounting)
    (target : Target)
    (later : ShareAccounting) :
    Prop :=
  shares.Counts target.work candidate.share.sequenceNumber candidate.hash.value later

/-- What can become of a candidate. -/
inductive Verdict
    (candidate : Candidate)
    (shares : ShareAccounting)
    (target : Target) :
    ShareAccounting × Except ShareError ShareOutcome → Prop
  /-- A block is counted, whether or not its hash was seen. -/
  | block
      (later : ShareAccounting)
      (found : candidate.IsBlock)
      (counted : candidate.CountedIn shares target later) :
      Verdict candidate shares target
        (later, .ok (.blockFound candidate.templateId candidate.coinbase))
  | above
      (ordinary : ¬ candidate.IsBlock)
      (beyond : target < candidate.hash) :
      Verdict candidate shares target (shares, .error .aboveTarget)
  | duplicate
      (ordinary : ¬ candidate.IsBlock)
      (within : ¬ target < candidate.hash)
      (seen : shares.hasSeen candidate.hash.value = true) :
      Verdict candidate shares target (shares, .error .duplicate)
  | counted
      (later : ShareAccounting)
      (ordinary : ¬ candidate.IsBlock)
      (within : ¬ target < candidate.hash)
      (new : shares.hasSeen candidate.hash.value = false)
      (counted : candidate.CountedIn shares target later) :
      Verdict candidate shares target (later, .ok later.outcome)

theorem verdict_judged
    (candidate : Candidate)
    (shares : ShareAccounting)
    (target : Target) :
    Verdict candidate shares target (candidate.judged shares target) := by
  unfold judged ShareAccounting.judge
  have recorded := shares.counts_record target.work candidate.share.sequenceNumber
    candidate.hash.value
  dsimp only
  split
  next found => exact .block _ found recorded
  next ordinary =>
    split
    next beyond => exact .above ordinary beyond
    next within =>
      split
      next seen => exact .duplicate ordinary within seen
      next new =>
        exact .counted _ ordinary within (eq_false_of_ne_true new)
          (recorded.noteDifficulty _)

/-- A candidate that is not a block and whose hash was seen changes nothing. -/
theorem judged_of_seen
    (candidate : Candidate)
    (shares : ShareAccounting)
    (target : Target)
    (ordinary : ¬ candidate.IsBlock)
    (seen : shares.hasSeen candidate.hash.value = true) :
    candidate.judged shares target =
      (shares, .error (if target < candidate.hash then .aboveTarget else .duplicate)) := by
  have verdict := candidate.verdict_judged shares target
  generalize candidate.judged shares target = result at verdict ⊢
  cases verdict with
  | block later found counted => exact absurd found ordinary
  | above _ beyond => rw [if_pos beyond]
  | duplicate _ within _ => rw [if_neg within]
  | counted later _ within new counted =>
    rw [new] at seen
    cases seen

end Candidate

end MiningPool
