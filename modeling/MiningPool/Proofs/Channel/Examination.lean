import MiningPool.Channel.Any
import MiningPool.Proofs.Channel.Validation
import MiningPool.Proofs.Share.Judgement

/-!
# Examining shares

Before anything is hashed, a share is examined: which job it is for, whether its
extranonce has the right size, which root it commits to and whether the version may be
rolled.  A share that passes is a candidate, and a channel of either kind makes of it
what its accounting and its target say.
-/

namespace MiningPool

open MiningPool.Bitcoin MiningPool.Message

/-- What is said of failures in other words is still a success. -/
theorem ok_of_mapError
    {ε δ α : Type}
    {result : Except ε α}
    {reword : ε → δ}
    {value : α}
    (reworded : result.mapError reword = .ok value) :
    result = .ok value := by
  cases result with
  | error failure => cases reworded
  | ok => exact congrArg _ (Except.ok.inj reworded)

/-! ## Channels of one kind -/

namespace Channel

variable {J : Type}

/-- Change what a channel remembers of shares. -/
def withShares (channel : Channel J) (shares : ShareAccounting) : Channel J :=
  { channel with shares }

/-- What a channel makes of a candidate. -/
def settled
    (channel : Channel J)
    (candidate : Candidate) :
    Channel J × Except ShareError ShareOutcome :=
  let judged := candidate.judged channel.shares channel.target
  (channel.withShares judged.1, judged.2)

theorem judge_eq
    [Job J]
    (channel : Channel J)
    (tip : ChainTip)
    (share : Share)
    (job : J)
    (coinbase : Bytes) :
    channel.judge tip share job coinbase =
      channel.settled ⟨tip, share, Job.templateId job, coinbase⟩ := by
  unfold judge settled Candidate.judged
  -- The hash of a header must not be evaluated, so its judgement is made a variable.
  generalize ShareAccounting.judge _ _ _ _ _ _ = judged
  rfl

end Channel

namespace StandardChannel

/-- Complete the header of a share, unless something speaks against it. -/
def examine
    (channel : StandardChannel)
    (submitted : Mining.SubmitSharesStandard) :
    Except ShareError Candidate :=
  match channel.jobs.forShare submitted.jobId with
  | .error failure => .error failure
  | .ok job =>
    match channel.tip with
    | none => .error .noChainTip
    | some tip =>
      .ok
        { tip
          share :=
            { sequenceNumber := submitted.sequenceNumber
              version := submitted.version
              merkleRoot := job.message.merkleRoot
              ntime := submitted.ntime
              nonce := submitted.nonce }
          templateId := Job.templateId job
          coinbase := job.coinbase }

theorem validateShare_eq
    (channel : StandardChannel)
    (submitted : Mining.SubmitSharesStandard) :
    validateShare channel submitted =
      match examine channel submitted with
      | .error failure => (channel, .error failure)
      | .ok candidate => channel.settled candidate := by
  unfold validateShare examine
  cases channel.jobs.forShare submitted.jobId with
  | error failure => rfl
  | ok job =>
    cases known : channel.tip with
    | none => rfl
    | some tip =>
      dsimp only
      rw [Channel.judge_eq]

end StandardChannel

namespace ExtendedChannel

/-- Complete the header of a share, unless something speaks against it. -/
def examine
    (channel : ExtendedChannel)
    (submitted : Mining.SubmitSharesExtended) :
    Except ShareError Candidate :=
  match channel.jobs.forShare submitted.jobId with
  | .error failure => .error failure
  | .ok job =>
    if (extranonceOf job submitted).length ≠ extranonceSize then .error .wrongExtranonceSize
    else
      match job.merkleRoot? (extranonceOf job submitted) with
      | none => .error .invalid
      | some merkleRoot =>
        match channel.tip with
        | none => .error .noChainTip
        | some tip =>
          if !job.message.versionRollingAllowed &&
              submitted.version &&& versionRollingMask != 0 then
            .error .versionRollingNotAllowed
          else
            .ok
              { tip
                share := shareOf submitted merkleRoot
                templateId := Job.templateId job
                coinbase := job.coinbase (extranonceOf job submitted) }

theorem validateShare_eq
    (channel : ExtendedChannel)
    (submitted : Mining.SubmitSharesExtended) :
    channel.validateShare submitted =
      match channel.examine submitted with
      | .error failure => (channel, .error failure)
      | .ok candidate =>
        (channel.withChannel (channel.toChannel.settled candidate).1,
          (channel.toChannel.settled candidate).2) := by
  unfold validateShare examine extranonceOf
  cases channel.jobs.forShare submitted.jobId with
  | error failure => rfl
  | ok job =>
    dsimp only
    split
    next => rfl
    next =>
      cases job.merkleRoot? (job.extranoncePrefix ++ submitted.extranonce.bytes) with
      | none => rfl
      | some merkleRoot =>
        cases known : channel.tip with
        | none => rfl
        | some tip =>
          dsimp only
          split
          · rfl
          · dsimp only [shareOf]
            rw [Channel.judge_eq]

end ExtendedChannel

/-! ## Channels of either kind -/

/-- A job of either kind. -/
abbrev AnyJob := StandardJob ⊕ ExtendedJob

namespace AnyJob

/-- The version that the miner starts from. -/
def version : AnyJob → UInt32
  | .inl job => job.message.version
  | .inr job => job.message.version

/-- Whether the version may be rolled; a job with a fixed root always allows it. -/
def versionRollingAllowed : AnyJob → Bool
  | .inl _ => true
  | .inr job => job.message.versionRollingAllowed

/-- The start of the extranonce; with a fixed root it is the whole of it. -/
def extranoncePrefix : AnyJob → Bytes
  | .inl job => job.extranoncePrefix
  | .inr job => job.extranoncePrefix

/-- The coinbase with an extranonce. -/
def coinbase (extranonce : Bytes) : AnyJob → Bytes
  | .inl job => job.fullFront ++ extranonce ++ job.fullBack
  | .inr job => job.coinbase extranonce

/-- The root of the tree of transactions with an extranonce. -/
def merkleRoot? (extranonce : Bytes) : AnyJob → Option Hash
  | .inl job => some job.message.merkleRoot
  | .inr job => job.merkleRoot? extranonce

end AnyJob

namespace Submission

def channelId : Submission → UInt32
  | standard share => share.channelId
  | extended share => share.channelId

def sequenceNumber : Submission → UInt32
  | standard share => share.sequenceNumber
  | extended share => share.sequenceNumber

def jobId : Submission → UInt32
  | standard share => share.jobId
  | extended share => share.jobId

def version : Submission → UInt32
  | standard share => share.version
  | extended share => share.version

def ntime : Submission → UInt32
  | standard share => share.ntime
  | extended share => share.ntime

def nonce : Submission → UInt32
  | standard share => share.nonce
  | extended share => share.nonce

/-- The end of the extranonce that the miner rolled. -/
def rolled : Submission → Bytes
  | standard _ => []
  | extended share => share.extranonce.bytes

/-- The share that is submitted, once the root of its transactions is known. -/
def share (submission : Submission) (merkleRoot : Hash) : Share where
  sequenceNumber := submission.sequenceNumber
  version := submission.version
  merkleRoot := merkleRoot
  ntime := submission.ntime
  nonce := submission.nonce

/-- The refusal of a submitted share. -/
def refusal (submission : Submission) (failure : ShareError) : Refusal :=
  .share submission.channelId submission.sequenceNumber failure

end Submission

namespace AnyChannel

/-- What a channel remembers of shares; a group takes none. -/
def accounting? : AnyChannel → Option ShareAccounting
  | standard channel => some channel.shares
  | extended channel => some channel.shares
  | group _ => none

/-- The target of the shares of a channel. -/
def target? : AnyChannel → Option Target
  | standard channel => some channel.target
  | extended channel => some channel.target
  | group _ => none

def tip : AnyChannel → Option ChainTip
  | standard channel => channel.tip
  | extended channel => channel.tip
  | group channel => channel.tip

/-- The job of an id that shares may name. -/
def running? (channel : AnyChannel) (id : UInt32) : Option AnyJob :=
  match channel with
  | standard channel => (channel.jobs.forShare id).toOption.map .inl
  | extended channel => (channel.jobs.forShare id).toOption.map .inr
  | group _ => none

/-- Change what a channel remembers of shares. -/
def withShares (channel : AnyChannel) (shares : ShareAccounting) : AnyChannel :=
  match channel with
  | standard channel => standard (channel.withShares shares)
  | extended channel => extended (channel.withChannel (channel.toChannel.withShares shares))
  | group channel => group channel

@[simp]
theorem target?_withShares (channel : AnyChannel) (shares : ShareAccounting) :
    (channel.withShares shares).target? = channel.target? := by
  cases channel <;> rfl

@[simp]
theorem tip_withShares (channel : AnyChannel) (shares : ShareAccounting) :
    (channel.withShares shares).tip = channel.tip := by
  cases channel <;> rfl

/-- A channel that remembers shares has a target for them. -/
theorem target?_of_accounting?
    (channel : AnyChannel)
    (shares : ShareAccounting)
    (known : channel.accounting? = some shares) :
    ∃ target, channel.target? = some target := by
  cases channel with
  | standard | extended => exact ⟨_, rfl⟩
  | group => cases known

theorem accounting?_withShares
    (channel : AnyChannel)
    (before shares : ShareAccounting)
    (known : channel.accounting? = some before) :
    (channel.withShares shares).accounting? = some shares := by
  cases channel with
  | standard | extended => rfl
  | group => cases known

@[simp]
theorem withShares_withShares (channel : AnyChannel) (before later : ShareAccounting) :
    (channel.withShares before).withShares later = channel.withShares later := by
  cases channel <;> rfl

theorem withShares_self
    (channel : AnyChannel)
    (shares : ShareAccounting)
    (known : channel.accounting? = some shares) :
    channel.withShares shares = channel := by
  cases channel with
  | standard | extended =>
    cases known
    rfl
  | group => rfl

/-- Complete the header of a share, unless something speaks against it. -/
def examine (channel : AnyChannel) (submission : Submission) : Except Refusal Candidate :=
  match channel, submission with
  | standard channel, .standard share =>
    (StandardChannel.examine channel share).mapError submission.refusal
  | extended channel, .extended share => (channel.examine share).mapError submission.refusal
  | _, _ => .error .otherKind

/-- Shares are examined by channels that remember them and have a target for them. -/
theorem remembered_of_examined
    (channel : AnyChannel)
    (submission : Submission)
    (candidate : Candidate)
    (examined : channel.examine submission = .ok candidate) :
    ∃ shares target, channel.accounting? = some shares ∧ channel.target? = some target := by
  cases channel with
  | standard | extended => exact ⟨_, _, rfl, rfl⟩
  | group => cases examined

/-- What becomes of a share. -/
inductive Validates
    (channel : AnyChannel)
    (submission : Submission) :
    Outcome ShareOutcome → Prop
  /-- Nothing is hashed, and nothing changes. -/
  | refused
      (refusal : Refusal)
      (examined : channel.examine submission = .error refusal) :
      Validates channel submission (channel, .error refusal)
  /-- The hash of the header decides; only what is remembered of shares changes. -/
  | judged
      (candidate : Candidate)
      (shares : ShareAccounting)
      (target : Target)
      (examined : channel.examine submission = .ok candidate)
      (remembered : channel.accounting? = some shares)
      (aimed : channel.target? = some target) :
      Validates channel submission
        (channel.withShares (candidate.judged shares target).1,
          (candidate.judged shares target).2.mapError submission.refusal)

theorem validates_validateShare
    (channel : AnyChannel)
    (submission : Submission) :
    Validates channel submission (channel.validateShare submission) := by
  cases channel with
  | group => exact .refused _ rfl
  | standard channel =>
    cases submission with
    | extended => exact .refused _ rfl
    | standard share =>
      have step := StandardChannel.validateShare_eq channel share
      cases examined : StandardChannel.examine channel share with
      | error failure =>
        rw [examined] at step
        simp only [validateShare, step]
        exact .refused _ (by rw [examine, examined]; rfl)
      | ok candidate =>
        rw [examined] at step
        have passes : (standard channel).examine (.standard share) = .ok candidate := by
          rw [examine, examined]
          rfl
        have judged := Validates.judged candidate channel.shares channel.target passes rfl rfl
        dsimp only at step
        rw [validateShare, step]
        unfold Channel.settled
        generalize candidate.judged channel.shares channel.target = result at judged ⊢
        obtain ⟨shares, verdict⟩ := result
        exact judged
  | extended channel =>
    cases submission with
    | standard => exact .refused _ rfl
    | extended share =>
      have step := channel.validateShare_eq share
      cases examined : channel.examine share with
      | error failure =>
        rw [examined] at step
        simp only [validateShare, step]
        exact .refused _ (by rw [examine, examined]; rfl)
      | ok candidate =>
        rw [examined] at step
        have passes : (extended channel).examine (.extended share) = .ok candidate := by
          rw [examine, examined]
          rfl
        have judged := Validates.judged candidate channel.shares channel.target passes rfl rfl
        dsimp only at step
        rw [validateShare, step]
        unfold Channel.settled
        generalize candidate.judged channel.shares channel.target = result at judged ⊢
        obtain ⟨shares, verdict⟩ := result
        exact judged

theorem validateShare_of_refused
    (channel : AnyChannel)
    (submission : Submission)
    (refusal : Refusal)
    (examined : channel.examine submission = .error refusal) :
    channel.validateShare submission = (channel, .error refusal) := by
  have validates := channel.validates_validateShare submission
  generalize channel.validateShare submission = result at validates ⊢
  cases validates with
  | refused other reason =>
    obtain rfl := Except.error.inj (examined.symm.trans reason)
    rfl
  | judged candidate shares target passes =>
    rw [examined] at passes
    cases passes

/-- A share that is rejected changes nothing. -/
theorem validateShare_of_rejected
    (channel : AnyChannel)
    (submission : Submission)
    (refusal : Refusal)
    (rejected : (channel.validateShare submission).2 = .error refusal) :
    (channel.validateShare submission).1 = channel := by
  have validates := channel.validates_validateShare submission
  generalize channel.validateShare submission = result at validates rejected ⊢
  cases validates with
  | refused => rfl
  | judged candidate shares target examined remembered aimed =>
    have verdict := candidate.verdict_judged shares target
    generalize candidate.judged shares target = judged at verdict rejected ⊢
    cases verdict with
    | block | counted => cases rejected
    | above | duplicate => exact channel.withShares_self shares remembered

/-- A share that is accepted completes a header. -/
theorem examined_of_accepted
    (channel : AnyChannel)
    (submission : Submission)
    (outcome : ShareOutcome)
    (accepted : (channel.validateShare submission).2 = .ok outcome) :
    ∃ candidate, channel.examine submission = .ok candidate := by
  have validates := channel.validates_validateShare submission
  generalize channel.validateShare submission = result at validates accepted
  cases validates with
  | refused => cases accepted
  | judged candidate shares target examined => exact ⟨candidate, examined⟩

section Examined

variable
  {channel : AnyChannel}
  {submission : Submission}
  {candidate : Candidate}
  {shares : ShareAccounting}
  {target : Target}
  (examined : channel.examine submission = .ok candidate)
  (known : channel.accounting? = some shares)
  (aimed : channel.target? = some target)

include examined known aimed

theorem validateShare_of_examined :
    channel.validateShare submission =
      (channel.withShares (candidate.judged shares target).1,
        (candidate.judged shares target).2.mapError submission.refusal) := by
  have validates := channel.validates_validateShare submission
  generalize channel.validateShare submission = result at validates ⊢
  cases validates with
  | refused refusal reason =>
    rw [examined] at reason
    cases reason
  | judged other before aim completed remembered targeted =>
    obtain rfl := Except.ok.inj (examined.symm.trans completed)
    obtain rfl := Option.some.inj (known.symm.trans remembered)
    obtain rfl := Option.some.inj (aimed.symm.trans targeted)
    rfl

/-- A share that is a block is counted, whether or not its hash was seen. -/
theorem validateShare_of_block (found : candidate.IsBlock) :
    ∃ later,
      channel.validateShare submission =
        (channel.withShares later,
          .ok (.blockFound candidate.templateId candidate.coinbase)) ∧
      candidate.CountedIn shares target later := by
  rw [validateShare_of_examined examined known aimed]
  have verdict := candidate.verdict_judged shares target
  generalize candidate.judged shares target = judged at verdict ⊢
  cases verdict with
  | block later _ counted => exact ⟨later, rfl, counted⟩
  | above ordinary | duplicate ordinary => exact absurd found ordinary
  | counted later ordinary => exact absurd found ordinary

/-- Another share whose hash is new and within the target is counted. -/
theorem validateShare_of_new
    (ordinary : ¬ candidate.IsBlock)
    (within : ¬ target < candidate.hash)
    (new : shares.hasSeen candidate.hash.value = false) :
    ∃ later,
      channel.validateShare submission = (channel.withShares later, .ok later.outcome) ∧
      candidate.CountedIn shares target later := by
  rw [validateShare_of_examined examined known aimed]
  have verdict := candidate.verdict_judged shares target
  generalize candidate.judged shares target = judged at verdict ⊢
  cases verdict with
  | block later found => exact absurd found ordinary
  | above _ beyond => exact absurd beyond within
  | duplicate _ _ seen =>
    rw [new] at seen
    cases seen
  | counted later _ _ _ counted => exact ⟨later, rfl, counted⟩

/-- A share that is no block and whose hash was seen changes nothing. -/
theorem validateShare_of_seen
    (ordinary : ¬ candidate.IsBlock)
    (seen : shares.hasSeen candidate.hash.value = true) :
    channel.validateShare submission =
      (channel, .error
        (submission.refusal (if target < candidate.hash then .aboveTarget else .duplicate))) := by
  rw [validateShare_of_examined examined known aimed,
    candidate.judged_of_seen shares target ordinary seen, channel.withShares_self shares known]
  rfl

/-- A share that is accepted is counted, and its hash is within the target or makes a block. -/
theorem counted_of_accepted
    (outcome : ShareOutcome)
    (accepted : (channel.validateShare submission).2 = .ok outcome) :
    ∃ later,
      channel.validateShare submission = (channel.withShares later, .ok outcome) ∧
      candidate.CountedIn shares target later ∧
      (candidate.IsBlock ∧ outcome = .blockFound candidate.templateId candidate.coinbase ∨
        ¬ candidate.IsBlock ∧ ¬ target < candidate.hash ∧
          shares.hasSeen candidate.hash.value = false ∧ outcome = later.outcome) := by
  rw [validateShare_of_examined examined known aimed] at accepted ⊢
  have verdict := candidate.verdict_judged shares target
  generalize candidate.judged shares target = judged at verdict accepted ⊢
  cases verdict with
  | above | duplicate => cases accepted
  | block later found counted =>
    cases accepted
    exact ⟨later, rfl, counted, .inl ⟨found, rfl⟩⟩
  | counted later ordinary within new counted =>
    cases accepted
    exact ⟨later, rfl, counted, .inr ⟨ordinary, within, new, rfl⟩⟩

end Examined

/-- A share completes the header of a candidate for a job of its channel. -/
structure Completes
    (channel : AnyChannel)
    (submission : Submission)
    (job : AnyJob)
    (candidate : Candidate) :
    Prop where
  found : channel.running? submission.jobId = some job
  tip : channel.tip = some candidate.tip
  root : job.merkleRoot? (job.extranoncePrefix ++ submission.rolled) =
    some candidate.share.merkleRoot
  share : candidate.share = submission.share candidate.share.merkleRoot
  templateId : candidate.templateId = Job.templateId job
  coinbase : candidate.coinbase = job.coinbase (job.extranoncePrefix ++ submission.rolled)
  /-- With a fixed root nothing of the extranonce is rolled. -/
  fixed : job.isLeft → submission.rolled = []
  /-- What the miner rolls is as long as the job leaves to it. -/
  size : job.isRight → (job.extranoncePrefix ++ submission.rolled).length = extranonceSize
  rolling : job.versionRollingAllowed = true ∨ submission.version &&& versionRollingMask = 0

theorem completes_standard
    (channel : StandardChannel)
    (submitted : Mining.SubmitSharesStandard)
    (candidate : Candidate)
    (examined : StandardChannel.examine channel submitted = .ok candidate) :
    ∃ job, (standard channel).Completes (.standard submitted) (.inl job) candidate := by
  unfold StandardChannel.examine at examined
  split at examined
  · cases examined
  next job found =>
    split at examined
    · cases examined
    next tip known =>
      cases examined
      refine ⟨job, ?_, known, rfl, rfl, rfl, ?_, fun _ => rfl, by simp, .inl rfl⟩
      · simp only [running?, Submission.jobId, found, Except.toOption, Option.map_some]
      · simp only [AnyJob.coinbase, AnyJob.extranoncePrefix, Submission.rolled, List.append_nil,
          StandardJob.coinbase]

theorem completes_extended
    (channel : ExtendedChannel)
    (submitted : Mining.SubmitSharesExtended)
    (candidate : Candidate)
    (examined : channel.examine submitted = .ok candidate) :
    ∃ job, (extended channel).Completes (.extended submitted) (.inr job) candidate := by
  unfold ExtendedChannel.examine at examined
  split at examined
  · cases examined
  next job found =>
    split at examined
    · cases examined
    next size =>
      split at examined
      · cases examined
      next merkleRoot root =>
        split at examined
        · cases examined
        next tip known =>
          split at examined
          · cases examined
          next rolling =>
            cases examined
            refine ⟨job, ?_, known, root, rfl, rfl, rfl, by simp,
              fun _ => Classical.not_not.mp size, ?_⟩
            · simp only [running?, Submission.jobId, found, Except.toOption, Option.map_some]
            · simpa [AnyJob.versionRollingAllowed, Submission.version,
                Classical.or_iff_not_imp_left] using rolling

theorem completes_examine
    (channel : AnyChannel)
    (submission : Submission)
    (candidate : Candidate)
    (examined : channel.examine submission = .ok candidate) :
    ∃ job, channel.Completes submission job candidate := by
  cases channel with
  | group => cases examined
  | standard channel =>
    cases submission with
    | extended => cases examined
    | standard submitted =>
      obtain ⟨job, completes⟩ :=
        completes_standard channel submitted candidate (ok_of_mapError examined)
      exact ⟨_, completes⟩
  | extended channel =>
    cases submission with
    | standard => cases examined
    | extended submitted =>
      obtain ⟨job, completes⟩ :=
        completes_extended channel submitted candidate (ok_of_mapError examined)
      exact ⟨_, completes⟩

end AnyChannel

end MiningPool
