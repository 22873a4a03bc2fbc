import MiningPool.ChainTip
import MiningPool.Coinbase.Halves
import MiningPool.Job.Error

/-!
# Jobs

A job is a unit of work for miners.  A standard job fixes the root of the tree of
transactions; an extended job leaves it to the miner to complete the coinbase and to
compute the root.  A job without a least time waits for the block it builds on, and is
activated by giving it one.
-/

namespace MiningPool

open MiningPool.Bitcoin MiningPool.Coinbase MiningPool.Message.Mining
open MiningPool.Message.TemplateDistribution

/-- Where the content of a job comes from. -/
inductive JobOrigin
  | template (source : NewTemplate)
  | custom (request : SetCustomMiningJob)
  deriving DecidableEq, Repr

/-- The template a job was made from, if it was made from one. -/
def JobOrigin.templateId : JobOrigin → Option UInt64
  | .template source => some source.templateId
  | .custom _ => none

/-- A job with a fixed root of the tree of transactions. -/
structure StandardJob where
  template : NewTemplate
  extranoncePrefix : Bytes
  outputs : List Output
  /-- The first half of the coinbase with its witness. -/
  fullFront : Bytes
  /-- The second half of the coinbase with its witness. -/
  fullBack : Bytes
  message : NewMiningJob
  deriving DecidableEq, Repr

/-- A job whose coinbase the miner completes. -/
structure ExtendedJob where
  origin : JobOrigin
  extranoncePrefix : Bytes
  outputs : List Output
  /-- The first half of the coinbase with its witness. -/
  fullFront : Bytes
  /-- The second half of the coinbase with its witness. -/
  fullBack : Bytes
  message : NewExtendedMiningJob
  deriving DecidableEq, Repr

/-- What is asked of jobs that are kept for a channel. -/
class Job (J : Type) where
  id : J → UInt32
  templateId : J → Option UInt64
  minNtime : J → Option UInt32
  /-- Bind a job that waits to a least time. -/
  activate : J → UInt32 → J
  id_activate : ∀ job time, id (activate job time) = id job := by intros; rfl
  minNtime_activate : ∀ job time, minNtime (activate job time) = some time := by intros; rfl

/-- Whether a job waits for the block it builds on. -/
def Job.isFuture {J : Type} [Job J] (job : J) : Bool :=
  (Job.minNtime job).isNone

instance : Job StandardJob where
  id job := job.message.jobId
  templateId job := some job.template.templateId
  minNtime job := job.message.minNtime
  activate job time := { job with message := job.message.withMinNtime (some time) }

instance : Job ExtendedJob where
  id job := job.message.jobId
  templateId job := job.origin.templateId
  minNtime job := job.message.minNtime
  activate job time := { job with message := job.message.withMinNtime (some time) }

/-- A job of either of two kinds. -/
instance {J K : Type} [Job J] [Job K] : Job (J ⊕ K) where
  id
    | .inl job => Job.id job
    | .inr job => Job.id job
  templateId
    | .inl job => Job.templateId job
    | .inr job => Job.templateId job
  minNtime
    | .inl job => Job.minNtime job
    | .inr job => Job.minNtime job
  activate job time :=
    match job with
    | .inl job => .inl (Job.activate job time)
    | .inr job => .inr (Job.activate job time)
  id_activate job time := by cases job <;> exact Job.id_activate _ _
  minNtime_activate job time := by cases job <;> exact Job.minNtime_activate _ _

/-- The coinbase of a standard job, with its witness. -/
def StandardJob.coinbase (job : StandardJob) : Bytes :=
  job.fullFront ++ job.extranoncePrefix ++ job.fullBack

namespace ExtendedJob

/-- The coinbase of an extended job with an extranonce, with its witness. -/
def coinbase (job : ExtendedJob) (extranonce : Bytes) : Bytes :=
  job.fullFront ++ extranonce ++ job.fullBack

/-- The root of the tree of transactions with an extranonce. -/
def merkleRoot? (job : ExtendedJob) (extranonce : Bytes) : Option Hash :=
  Coinbase.merkleRoot? job.message.coinbaseTxPrefix.bytes job.message.coinbaseTxSuffix.bytes
    extranonce job.message.merklePath.items

/-- Turn a job for many channels into that of one with a given extranonce. -/
def toStandard
    (job : ExtendedJob)
    (channelId : UInt32)
    (extranoncePrefix : Bytes) :
    Except ConversionError StandardJob :=
  match job.origin with
  | .custom _ => .error .notFromTemplate
  | .template template =>
    match job.merkleRoot? extranoncePrefix with
    | none => .error .noMerkleRoot
    | some merkleRoot =>
      .ok
        { template
          extranoncePrefix
          outputs := job.outputs
          fullFront := job.fullFront
          fullBack := job.fullBack
          message :=
            { channelId
              jobId := job.message.jobId
              minNtime := job.message.minNtime
              version := job.message.version
              merkleRoot } }

end ExtendedJob

end MiningPool
