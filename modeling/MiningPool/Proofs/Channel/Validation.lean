import MiningPool.Channel.Extended
import MiningPool.Proofs.Job.Store

/-!
# Shares of extended channels

A share is either refused before anything is hashed, and the channel stays as it is, or
it is judged by the hash of a header on the chain tip of the channel.  The second happens
only to shares of the job that is looked up, with an extranonce of the right size.
-/

namespace MiningPool

open MiningPool.Bitcoin MiningPool.Message

namespace JobStore

variable {J : Type} [Job J]

theorem current?_eq (store : JobStore J) (id : UInt32) :
    store.current? id = (store.at? .active id).or (store.at? .past id) := by
  cases active : store.active with
  | none => simp [current?, at?, active]
  | some job =>
    by_cases same : Job.id job = id
    · simp [current?, at?, active, same, Option.filter]
    · simp [current?, at?, active, same, Option.filter]

/-- A share counts for the active or past job of its id, unless a stale job has the id. -/
theorem forShare_eq (store : JobStore J) (id : UInt32) :
    store.forShare id =
      if (store.at? .stale id).isSome then .error .stale
      else
        match (store.at? .active id).or (store.at? .past id) with
        | none => .error .unknownJob
        | some job => .ok job := by
  rw [forShare, Std.TreeMap.contains_eq_isSome_getElem?, current?_eq]
  rfl

end JobStore

namespace ExtendedChannel

/-- The share that a miner submitted, once the root of its transactions is known. -/
def shareOf (submitted : Mining.SubmitSharesExtended) (merkleRoot : Hash) : Share where
  sequenceNumber := submitted.sequenceNumber
  version := submitted.version
  merkleRoot := merkleRoot
  ntime := submitted.ntime
  nonce := submitted.nonce

/-- The extranonce of a share of a job. -/
def extranonceOf (job : ExtendedJob) (submitted : Mining.SubmitSharesExtended) : Bytes :=
  job.extranoncePrefix ++ submitted.extranonce.bytes

/-- What a channel makes of a share of a job on a chain tip. -/
def judgement
    (channel : ExtendedChannel)
    (submitted : Mining.SubmitSharesExtended)
    (job : ExtendedJob)
    (tip : ChainTip)
    (merkleRoot : Hash) :
    Channel ExtendedJob × Except ShareError ShareOutcome :=
  channel.toChannel.judge tip (shareOf submitted merkleRoot) job
    (job.coinbase (extranonceOf job submitted))

/-- Judging a share changes nothing but the accounting of shares. -/
theorem judgement_fst
    (channel : ExtendedChannel)
    (submitted : Mining.SubmitSharesExtended)
    (job : ExtendedJob)
    (tip : ChainTip)
    (merkleRoot : Hash) :
    ∃ shares,
      (channel.judgement submitted job tip merkleRoot).1 = { channel.toChannel with shares } := by
  unfold judgement Channel.judge
  -- The hash of a header must not be evaluated, so its judgement is made a variable.
  generalize ShareAccounting.judge _ _ _ _ _ _ = judged
  exact ⟨judged.1, rfl⟩

/-- What becomes of a share. -/
inductive Validates
    (channel : ExtendedChannel)
    (submitted : Mining.SubmitSharesExtended) :
    ExtendedChannel × Except ShareError ShareOutcome → Prop
  /-- Nothing is hashed, and nothing changes. -/
  | refused
      (failure : ShareError)
      (early : failure ≠ .aboveTarget ∧ failure ≠ .duplicate) :
      Validates channel submitted (channel, .error failure)
  /-- The hash of the header decides; only the accounting changes. -/
  | judged
      (job : ExtendedJob)
      (tip : ChainTip)
      (merkleRoot : Hash)
      (found : channel.jobs.forShare submitted.jobId = .ok job)
      (size : (extranonceOf job submitted).length = extranonceSize)
      (root : job.merkleRoot? (extranonceOf job submitted) = some merkleRoot)
      (known : channel.tip = some tip)
      (rolled : job.message.versionRollingAllowed = true ∨
        submitted.version &&& versionRollingMask = 0) :
      Validates channel submitted
        (channel.withChannel (channel.judgement submitted job tip merkleRoot).1,
          (channel.judgement submitted job tip merkleRoot).2)

theorem validates_validateShare
    (channel : ExtendedChannel)
    (submitted : Mining.SubmitSharesExtended) :
    Validates channel submitted (channel.validateShare submitted) := by
  unfold validateShare
  split
  next failure unfound =>
    refine .refused failure ?_
    rw [JobStore.forShare_eq] at unfound
    split at unfound
    · cases unfound
      decide
    · split at unfound
      · cases unfound
        decide
      · cases unfound
  next job found =>
    dsimp only
    split
    · exact .refused _ (by decide)
    next size =>
      split
      · exact .refused _ (by decide)
      next merkleRoot root =>
        split
        · exact .refused _ (by decide)
        next tip known =>
          split
          · exact .refused _ (by decide)
          next rolled =>
            exact .judged job tip merkleRoot found (Classical.not_not.mp size) root known
              (by simpa [Classical.or_iff_not_imp_left] using rolled)

end ExtendedChannel

end MiningPool
