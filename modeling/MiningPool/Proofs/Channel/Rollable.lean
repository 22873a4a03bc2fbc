import MiningPool.Proofs.Channel.Block
import MiningPool.Proofs.Channel.Rolling
import MiningPool.Proofs.Channel.Tip
import MiningPool.Proofs.Job.Coinbase

/-!
# Sizes of extranonces

The miner of an extended channel rolls what the start of its extranonces leaves of them.
The start can be changed, but never so that less is left than the miner asked for.  Jobs
outlive such changes and keep the start they were made with, so a share is measured by its
job and not by the channel.

Main result: in every state of a channel the sizes add up, and what is refused of the shares
of a job for its extranonce is exactly what does not complete the start that the channel had
when it made the job.  Nothing else can be wrong with a share that is complete: its coinbase
is read, and there is a chain tip to judge it on.
-/

namespace MiningPool

open MiningPool.Bitcoin MiningPool.Coinbase MiningPool.Wire MiningPool.Message

theorem Target.min_le_right (left right : Target) : min left right ≤ right := by
  show (if left ≤ right then left else right) ≤ right
  split
  next lower => exact lower
  next => exact Nat.le_refl _

/-- A channel is opened with a target that the miner accepts. -/
theorem Channel.openingTarget_le
    {hashRate sharesPerMinute : Single}
    {maxTarget target : Target}
    (aimed : openingTarget hashRate sharesPerMinute maxTarget = .ok target) :
    target ≤ maxTarget := by
  unfold openingTarget at aimed
  split at aimed
  · cases aimed
  · split at aimed
    · cases aimed
    next acceptable =>
      cases aimed
      exact Nat.not_lt.mp acceptable

/-- Once its header is complete, a share is only refused for its hash. -/
theorem Channel.settled_error
    {J : Type}
    (channel : Channel J)
    (candidate : Candidate)
    (failure : ShareError)
    (refused : (channel.settled candidate).2 = .error failure) :
    failure = .aboveTarget ∨ failure = .duplicate := by
  have verdict := candidate.verdict_judged channel.shares channel.target
  unfold settled at refused
  generalize candidate.judged channel.shares channel.target = judged at verdict refused
  cases verdict with
  | block | counted => cases refused
  | above => exact .inl (Except.error.inj refused).symm
  | duplicate => exact .inr (Except.error.inj refused).symm

/-! ## Jobs -/

namespace JobFactory

theorem extranoncePrefix_extendedJob
    (factory later : JobFactory)
    (content : ExtendedContent)
    (extranoncePrefix : Bytes)
    (halves : Halves)
    (job : ExtendedJob)
    (made : factory.extendedJob content extranoncePrefix halves = (later, .ok job)) :
    job.extranoncePrefix = extranoncePrefix := by
  unfold extendedJob at made
  split at made
  · cases made
  · dsimp only at made
    split at made
    · cases made
    · cases made
    · cases made
      rfl

end JobFactory

theorem JobStore.All.imp
    {J : Type}
    [Job J]
    {store : JobStore J}
    {holds also : J → Prop}
    (all : store.All holds)
    (implies : ∀ job, holds job → also job) :
    store.All also :=
  fun stage id job held => implies job (all stage id job held)

/-- As long as the jobs are in order, a share names the active or past job of its id. -/
theorem JobStore.Consistent.forShare
    {J : Type}
    [Job J]
    {store : JobStore J}
    {lastId : UInt32}
    (ordered : store.Consistent lastId)
    {stage : JobStage}
    (running : stage = .active ∨ stage = .past)
    {id : UInt32}
    {job : J}
    (held : store.at? stage id = some job) :
    store.forShare id = .ok job := by
  have unheld (other : JobStage) (differs : other ≠ stage) : store.at? other id = none := by
    cases found : store.at? other id with
    | none => rfl
    | some another => exact absurd (ordered.apart _ _ _ _ _ found held) differs
  rw [forShare_eq]
  rcases running with rfl | rfl
  · rw [unheld .stale (by decide), held]
    rfl
  · rw [unheld .stale (by decide), unheld .active (by decide), held]
    rfl

namespace ExtendedChannel

/-! ## What is agreed with the miner -/

theorem toNat_rollableBeside
    (extranoncePrefix : Bytes)
    (fits : extranoncePrefix.length ≤ extranonceSize) :
    extranoncePrefix.length + (rollableBeside extranoncePrefix).toNat = extranonceSize := by
  have size : extranonceSize = 32 := rfl
  rw [rollableBeside, UInt16.toNat_ofNat', Nat.mod_eq_of_lt (by omega)]
  omega

/-- The sizes and targets of a channel are as they were agreed with the miner. -/
structure Agreed (channel : ExtendedChannel) : Prop where
  /-- The start of an extranonce and what the miner rolls are the whole of it. -/
  whole : channel.extranoncePrefix.length + channel.rollableSize.toNat = extranonceSize
  /-- The miner rolls as much as it asked for. -/
  enough : channel.minRollableSize ≤ channel.rollableSize
  /-- The target is none that the miner does not accept. -/
  acceptable : channel.target ≤ channel.maxTarget

theorem agreed_create
    (opening : Channel.Opening)
    (versionRolling : Bool)
    (minRollableSize : UInt16)
    (channel : ExtendedChannel)
    (opened : create opening versionRolling minRollableSize = .ok channel) :
    channel.Agreed ∧ channel.minRollableSize = minRollableSize := by
  unfold create at opened
  split at opened
  · cases opened
  next target aimed =>
    dsimp only at opened
    split at opened
    · cases opened
    next fits =>
      split at opened
      · cases opened
      next enough =>
        split at opened
        · cases opened
        · cases opened
          refine ⟨⟨?_, UInt16.not_lt.mp enough, Channel.openingTarget_le aimed⟩, rfl⟩
          exact toNat_rollableBeside _ (Nat.not_lt.mp fits)

/-- What can become of the agreements of a channel. -/
inductive Amends (channel : ExtendedChannel) : ExtendedChannel → Prop
  /-- They stay. -/
  | kept
      (later : ExtendedChannel)
      (extranoncePrefix : later.extranoncePrefix = channel.extranoncePrefix)
      (rollableSize : later.rollableSize = channel.rollableSize)
      (minRollableSize : later.minRollableSize = channel.minRollableSize)
      (target : later.target = channel.target)
      (maxTarget : later.maxTarget = channel.maxTarget) :
      Amends channel later
  /-- Extranonces start otherwise, and leave as much to the miner as it asked for. -/
  | restarted
      (extranoncePrefix : Bytes)
      (fits : extranoncePrefix.length ≤ extranonceSize)
      (enough : channel.minRollableSize ≤ rollableBeside extranoncePrefix) :
      Amends channel
        { channel with extranoncePrefix, rollableSize := rollableBeside extranoncePrefix }
  /-- The target is that of another hash rate. -/
  | retargeted
      (hashRate : Single)
      (target maxTarget : Target)
      (acceptable : target ≤ maxTarget) :
      Amends channel
        (channel.withChannel { channel.toChannel with hashRate, maxTarget, target })

theorem amends_setExtranoncePrefix
    (channel : ExtendedChannel)
    (extranoncePrefix : Bytes) :
    Amends channel (channel.setExtranoncePrefix extranoncePrefix).1 := by
  have exits := channel.restarts_setExtranoncePrefix extranoncePrefix
  generalize channel.setExtranoncePrefix extranoncePrefix = outcome at exits ⊢
  cases exits with
  | tooLong | tooLittle => exact .kept _ rfl rfl rfl rfl rfl
  | restarted fits enough => exact .restarted extranoncePrefix fits enough

theorem amends_update
    (channel : ExtendedChannel)
    (hashRate : Single)
    (maxTarget : Option Target) :
    Amends channel (channel.update hashRate maxTarget).1 := by
  have exits := channel.retargets_update hashRate maxTarget
  rw [update]
  generalize channel.toChannel.update hashRate maxTarget = outcome at exits ⊢
  cases exits with
  | refused => exact .kept _ rfl rfl rfl rfl rfl
  | retargeted target =>
    exact .retargeted hashRate _ (maxTarget.getD channel.maxTarget) (Target.min_le_right _ _)

theorem amends_after
    (channel : ExtendedChannel)
    (operation : Operation) :
    Amends channel (channel.after operation) := by
  cases operation with
  | newTemplate template rewards =>
    have exits := channel.attempts_newTemplate template rewards
    rw [after]
    generalize channel.newTemplate template rewards = outcome at exits ⊢
    cases exits <;> exact .kept _ rfl rfl rfl rfl rfl
  | setNewPrevHash message =>
    have exits := channel.announces_setNewPrevHash message
    rw [after, setNewPrevHash]
    generalize channel.toChannel.setNewPrevHash message = outcome at exits ⊢
    cases exits <;> exact .kept _ rfl rfl rfl rfl rfl
  | setCustomJob request =>
    have exits := channel.grants_setCustomJob request
    rw [after]
    generalize channel.setCustomJob request = outcome at exits ⊢
    cases exits <;> exact .kept _ rfl rfl rfl rfl rfl
  | setTip tip => exact .kept _ rfl rfl rfl rfl rfl
  | setExtranoncePrefix extranoncePrefix => exact channel.amends_setExtranoncePrefix _
  | update hashRate maxTarget => exact channel.amends_update hashRate maxTarget
  | validateShare submitted =>
    have validates := channel.validates_validateShare submitted
    rw [after]
    generalize channel.validateShare submitted = result at validates ⊢
    cases validates with
    | refused => exact .kept _ rfl rfl rfl rfl rfl
    | judged job tip merkleRoot =>
      obtain ⟨shares, judged⟩ := channel.judgement_fst submitted job tip merkleRoot
      rw [judged]
      exact .kept _ rfl rfl rfl rfl rfl

theorem Amends.agreed
    {channel later : ExtendedChannel}
    (amends : Amends channel later)
    (agreed : channel.Agreed) :
    later.Agreed ∧ later.minRollableSize = channel.minRollableSize := by
  cases amends with
  | kept _ extranoncePrefix rollableSize minRollableSize target maxTarget =>
    refine ⟨⟨?_, ?_, ?_⟩, minRollableSize⟩
    · rw [extranoncePrefix, rollableSize]
      exact agreed.whole
    · rw [minRollableSize, rollableSize]
      exact agreed.enough
    · rw [target, maxTarget]
      exact agreed.acceptable
  | restarted extranoncePrefix fits enough =>
    exact ⟨⟨toNat_rollableBeside extranoncePrefix fits, enough, agreed.acceptable⟩, rfl⟩
  | retargeted hashRate target maxTarget acceptable =>
    exact ⟨⟨agreed.whole, agreed.enough, acceptable⟩, rfl⟩

theorem agreed_run
    (channel : ExtendedChannel)
    (agreed : channel.Agreed)
    (history : List Operation) :
    (channel.run history).Agreed ∧
      (channel.run history).minRollableSize = channel.minRollableSize := by
  induction history with
  | nil => exact ⟨agreed, rfl⟩
  | cons operation earlier ih =>
    have amended := ((channel.run earlier).amends_after operation).agreed ih.1
    exact ⟨amended.1, amended.2.trans ih.2⟩

/-! ## Jobs and the start they were made with -/

theorem extranoncePrefix_of_created
    (channel : ExtendedChannel)
    (operation : Operation)
    (job : ExtendedJob)
    (created : channel.created? operation = some job) :
    job.extranoncePrefix = channel.extranoncePrefix := by
  rcases factory_of_created created with ⟨_, _, _, -, made⟩ | ⟨_, _, -, made⟩
  · obtain ⟨time, halves, -, -, made⟩ :=
      (JobFactory.templateJob_eq_ok_iff _ _ _ _ _ _ _ _).mp made
    exact JobFactory.extranoncePrefix_extendedJob _ _ _ _ _ _ made
  · obtain ⟨halves, -, made⟩ := (JobFactory.customJob_eq_ok_iff _ _ _ _ _).mp made
    exact JobFactory.extranoncePrefix_extendedJob _ _ _ _ _ _ made

/--
In the course of a history the channel created a job with the start that its extranonces
had then; it may be activated since.
-/
def CreatedIn (channel : ExtendedChannel) (history : List Operation) (job : ExtendedJob) : Prop :=
  ∃ later operation earlier made, history = later ++ operation :: earlier ∧
    (channel.run earlier).created? operation = some made ∧
    (job = made ∨ ∃ time, job = Job.activate made time) ∧
    job.extranoncePrefix = (channel.run earlier).extranoncePrefix

section CreatedIn

variable
  {channel : ExtendedChannel}
  {history : List Operation}
  {job : ExtendedJob}

theorem CreatedIn.cons
    (created : channel.CreatedIn history job)
    (operation : Operation) :
    channel.CreatedIn (operation :: history) job := by
  obtain ⟨later, source, earlier, made, rfl, rest⟩ := created
  exact ⟨operation :: later, source, earlier, made, rfl, rest⟩

theorem CreatedIn.activate
    (created : channel.CreatedIn history job)
    (time : UInt32) :
    channel.CreatedIn history (Job.activate job time) := by
  obtain ⟨later, operation, earlier, made, split, source, activated, start⟩ := created
  refine ⟨later, operation, earlier, made, split, source, .inr ⟨time, ?_⟩, start⟩
  rcases activated with rfl | ⟨before, rfl⟩ <;> rfl

theorem createdIn_of_created
    {operation : Operation}
    (created : (channel.run history).created? operation = some job) :
    channel.CreatedIn (operation :: history) job :=
  ⟨[], operation, history, job, rfl, created, .inl rfl,
    (channel.run history).extranoncePrefix_of_created operation job created⟩

end CreatedIn

theorem all_createdIn
    (channel : ExtendedChannel)
    (empty : channel.jobs = .empty)
    (history : List Operation) :
    (channel.run history).jobs.All (channel.CreatedIn history) := by
  induction history with
  | nil =>
    rw [run, empty]
    exact JobStore.all_empty _
  | cons operation earlier ih =>
    have before : (channel.run earlier).jobs.All (channel.CreatedIn (operation :: earlier)) :=
      ih.imp fun job created => created.cons operation
    rw [run]
    cases (channel.run earlier).change_after operation with
    | kept _ _ nothing same =>
      rw [same]
      exact before
    | tipped tip _ same =>
      rw [same]
      exact before
    | waiting template rewards job _ created future makes added =>
      rw [added]
      exact before.addFuture _ job (createdIn_of_created created)
    | running template rewards job tip _ created current makes added =>
      rw [added]
      exact before.addActive job (createdIn_of_created created)
    | custom request job _ created makes added =>
      have active := before.addActive job (createdIn_of_created created)
      rw [added]
      split
      · exact active.markPastStale
      · exact active
    | activated message _ done =>
      exact before.activate? _ _ _ (fun job created => created.activate _) done

theorem all_assembled_run
    (channel : ExtendedChannel)
    (empty : channel.jobs = .empty)
    (history : List Operation) :
    (channel.run history).jobs.All fun job => ∃ draft, job.Assembled draft := by
  induction history with
  | nil =>
    rw [run, empty]
    exact JobStore.all_empty _
  | cons operation earlier ih => exact (channel.run earlier).all_assembled_after ih operation

/-- The start of a job is that of the channel at some time, when it was as agreed. -/
theorem CreatedIn.roomy
    {channel : ExtendedChannel}
    {history : List Operation}
    {job : ExtendedJob}
    (created : channel.CreatedIn history job)
    (agreed : channel.Agreed) :
    job.extranoncePrefix.length + channel.minRollableSize.toNat ≤ extranonceSize := by
  obtain ⟨_, _, earlier, _, -, -, -, start⟩ := created
  obtain ⟨before, asked⟩ := channel.agreed_run agreed earlier
  have enough := UInt16.le_iff_toNat_le.mp before.enough
  have whole := before.whole
  rw [asked] at enough
  rw [start]
  omega

/-! ## The chain tip -/

/-- No job is active or past as long as there is no chain tip. -/
def RunsOnTip (channel : ExtendedChannel) : Prop :=
  channel.tip = none →
    ∀ id, channel.jobs.at? .active id = none ∧ channel.jobs.at? .past id = none

theorem RunsOnTip.after
    {channel : ExtendedChannel}
    (runs : channel.RunsOnTip)
    (operation : Operation) :
    (channel.after operation).RunsOnTip := by
  intro missing
  cases channel.change_after operation with
  | kept _ _ nothing jobs tip =>
    rw [jobs]
    exact runs (tip ▸ missing)
  | tipped tip _ jobs known =>
    rw [known] at missing
    cases missing
  | waiting template rewards job _ created future makes jobs tip =>
    rw [jobs]
    simp only [JobStore.at?_addFuture, reduceCtorEq, false_and, if_false]
    exact runs (tip ▸ missing)
  | running template rewards job tip _ created current makes jobs known same =>
    rw [same, known] at missing
    cases missing
  | custom request job _ created makes jobs tip =>
    rw [tip] at missing
    cases missing
  | activated message _ jobs tip =>
    rw [tip] at missing
    cases missing

theorem runsOnTip_run
    (channel : ExtendedChannel)
    (empty : channel.jobs = .empty)
    (history : List Operation) :
    (channel.run history).RunsOnTip := by
  induction history with
  | nil =>
    intro _ id
    rw [run, empty, JobStore.at?_empty, JobStore.at?_empty]
    exact ⟨rfl, rfl⟩
  | cons operation earlier ih => exact ih.after operation

/-! ## Shares -/

/-- A share that names a job is judged on some chain tip. -/
theorem RunsOnTip.exists_tip
    {channel : ExtendedChannel}
    (runs : channel.RunsOnTip)
    {id : UInt32}
    {job : ExtendedJob}
    (found : channel.jobs.forShare id = .ok job) :
    ∃ tip, channel.tip = some tip := by
  refine Option.ne_none_iff_exists'.mp fun missing => ?_
  rw [JobStore.forShare_eq, (runs missing id).1, (runs missing id).2] at found
  split at found <;> cases found

/-- A share of a job is refused for its extranonce when that is too long or too short. -/
theorem validateShare_of_incomplete
    (channel : ExtendedChannel)
    (submitted : Mining.SubmitSharesExtended)
    (job : ExtendedJob)
    (found : channel.jobs.forShare submitted.jobId = .ok job)
    (incomplete : (extranonceOf job submitted).length ≠ extranonceSize) :
    channel.validateShare submitted = (channel, .error .wrongExtranonceSize) := by
  rw [validateShare_eq, examine, found]
  simp only [if_pos incomplete]

/-- Nothing but a rolled version speaks against a complete share of a job that was put together. -/
theorem examine_error_of_complete
    (channel : ExtendedChannel)
    (submitted : Mining.SubmitSharesExtended)
    (job : ExtendedJob)
    (draft : Draft)
    (assembled : job.Assembled draft)
    (tip : ChainTip)
    (known : channel.tip = some tip)
    (found : channel.jobs.forShare submitted.jobId = .ok job)
    (complete : (extranonceOf job submitted).length = extranonceSize)
    (failure : ShareError)
    (refused : channel.examine submitted = .error failure) :
    failure = .versionRollingNotAllowed := by
  obtain ⟨root, computed⟩ := assembled.exists_root (extranonceOf job submitted) complete
  have measured : ¬ (extranonceOf job submitted).length ≠ extranonceSize := fun short =>
    short complete
  rw [examine, found] at refused
  simp only [if_neg measured, computed, known] at refused
  split at refused
  · exact (Except.error.inj refused).symm
  · cases refused

theorem validateShare_error_of_complete
    (channel : ExtendedChannel)
    (submitted : Mining.SubmitSharesExtended)
    (job : ExtendedJob)
    (draft : Draft)
    (assembled : job.Assembled draft)
    (tip : ChainTip)
    (known : channel.tip = some tip)
    (found : channel.jobs.forShare submitted.jobId = .ok job)
    (complete : (extranonceOf job submitted).length = extranonceSize)
    (failure : ShareError)
    (refused : (channel.validateShare submitted).2 = .error failure) :
    failure = .versionRollingNotAllowed ∨ failure = .aboveTarget ∨ failure = .duplicate := by
  have examined :=
    channel.examine_error_of_complete submitted job draft assembled tip known found complete
  have step := channel.validateShare_eq submitted
  cases outcome : channel.examine submitted with
  | error reason =>
    rw [outcome] at step
    rw [step] at refused
    exact .inl ((Except.error.inj refused).symm.trans (examined reason outcome))
  | ok candidate =>
    rw [outcome] at step
    -- The answers are compared as parts of pairs, so that no hash has to be evaluated.
    have answer := (Prod.mk.inj ((Prod.eta _).trans step)).2
    exact .inr (channel.toChannel.settled_error candidate failure (answer.symm.trans refused))

/-- In no state of a channel does anything but version or hash speak against a complete share. -/
theorem validateShare_error_of_run
    (channel : ExtendedChannel)
    (empty : channel.jobs = .empty)
    (history : List Operation)
    (submitted : Mining.SubmitSharesExtended)
    (job : ExtendedJob)
    (found : (channel.run history).jobs.forShare submitted.jobId = .ok job)
    (complete : (extranonceOf job submitted).length = extranonceSize)
    (failure : ShareError)
    (refused : ((channel.run history).validateShare submitted).2 = .error failure) :
    failure = .versionRollingNotAllowed ∨ failure = .aboveTarget ∨ failure = .duplicate := by
  obtain ⟨draft, assembled⟩ :=
    (channel.all_assembled_run empty history).forShare _ job (by rw [found]; rfl)
  obtain ⟨tip, known⟩ := (channel.runsOnTip_run empty history).exists_tip found
  exact (channel.run history).validateShare_error_of_complete submitted job draft assembled tip
    known found complete failure refused

/-- In no state of a channel does a share fail for a coinbase or for want of a chain tip. -/
theorem validateShare_ne_of_run
    (channel : ExtendedChannel)
    (empty : channel.jobs = .empty)
    (history : List Operation)
    (submitted : Mining.SubmitSharesExtended)
    (failure : ShareError)
    (refused : ((channel.run history).validateShare submitted).2 = .error failure) :
    failure ≠ .invalid ∧ failure ≠ .noChainTip ∧ failure ≠ .invalidCoinbase := by
  cases found : (channel.run history).jobs.forShare submitted.jobId with
  | error reason =>
    rw [validateShare_of_unfound _ submitted reason found] at refused
    obtain rfl := Except.error.inj refused
    rcases JobStore.forShare_error _ _ _ found with rfl | rfl <;> decide
  | ok job =>
    by_cases complete : (extranonceOf job submitted).length = extranonceSize
    · rcases channel.validateShare_error_of_run empty history submitted job found complete
        failure refused with rfl | rfl | rfl <;> decide
    · rw [validateShare_of_incomplete _ submitted job found complete] at refused
      obtain rfl := Except.error.inj refused
      decide

/-- A channel that was just opened for a miner who wants to roll some bytes at least. -/
inductive OpenedFor (minRollableSize : UInt16) : ExtendedChannel → Prop
  /-- Its extranonces start as they were handed out before. -/
  | created
      (opening : Channel.Opening)
      (versionRolling : Bool)
      (channel : ExtendedChannel)
      (done : create opening versionRolling minRollableSize = .ok channel) :
      OpenedFor minRollableSize channel
  /-- The start of its extranonces was handed out for it. -/
  | requested
      (id : UInt32)
      (request : Mining.OpenExtendedMiningChannel)
      (allocator : ExtranonceAllocator)
      (policy : Policy)
      (channel : ExtendedChannel)
      (asked : request.minExtranonceSize = minRollableSize)
      (done : (openFor id request allocator policy).2 = .ok channel) :
      OpenedFor minRollableSize channel

theorem OpenedFor.exists_create
    {minRollableSize : UInt16}
    {channel : ExtendedChannel}
    (opened : OpenedFor minRollableSize channel) :
    ∃ opening versionRolling, create opening versionRolling minRollableSize = .ok channel := by
  cases opened with
  | created opening versionRolling _ done => exact ⟨opening, versionRolling, done⟩
  | requested id request allocator policy _ asked done =>
    unfold openFor at done
    split at done
    · cases done
    · dsimp only at done
      split at done
      · cases done
      · split at done
        · cases done
        · exact ⟨_, _, asked ▸ done⟩

/--
The sizes of extranonces agree, whatever is done with a channel and whether it succeeds or
fails.  The start and what the miner rolls are a whole extranonce, the miner rolls as many
bytes as it asked for and its target is one that it accepts.  Every job was made with the
start of that time, which leaves the miner as much.  A share is refused for its extranonce
exactly when that does not complete the start of its job, and a share that does is only
refused for its version or its hash; so no share fails for a coinbase that cannot be read or
for want of a chain tip.  As long as ids do not start over, all jobs that are active or past
take shares under their ids.
-/
theorem extranonces_complete
    (minRollableSize : UInt16)
    (channel : ExtendedChannel)
    (opened : OpenedFor minRollableSize channel)
    (history : List Operation) :
    let now := channel.run history
    (now.extranoncePrefix.length + now.rollableSize.toNat = extranonceSize ∧
      minRollableSize ≤ now.rollableSize ∧
      now.target ≤ now.maxTarget) ∧
    (∀ stage id job, now.jobs.at? stage id = some job →
      channel.CreatedIn history job ∧
      job.extranoncePrefix.length + minRollableSize.toNat ≤ extranonceSize ∧
      (channel.idsTaken history < UInt32.size →
        stage = .active ∨ stage = .past → now.jobs.forShare id = .ok job)) ∧
    (∀ submitted job, now.jobs.forShare submitted.jobId = .ok job →
      channel.CreatedIn history job ∧
      job.extranoncePrefix.length + minRollableSize.toNat ≤ extranonceSize ∧
      (submitted.extranonce.bytes.length ≠ extranonceSize - job.extranoncePrefix.length →
        now.validateShare submitted = (now, .error .wrongExtranonceSize)) ∧
      (submitted.extranonce.bytes.length = extranonceSize - job.extranoncePrefix.length →
        ∀ failure, (now.validateShare submitted).2 = .error failure →
          failure = .versionRollingNotAllowed ∨ failure = .aboveTarget ∨
            failure = .duplicate)) ∧
    ∀ submitted failure, (now.validateShare submitted).2 = .error failure →
      failure ≠ .invalid ∧ failure ≠ .noChainTip ∧ failure ≠ .invalidCoinbase := by
  intro now
  obtain ⟨opening, versionRolling, done⟩ := opened.exists_create
  obtain ⟨empty, -, unused⟩ := create_ok opening versionRolling minRollableSize channel done
  obtain ⟨agreed, asked⟩ := agreed_create opening versionRolling minRollableSize channel done
  obtain ⟨⟨whole, enough, acceptable⟩, kept⟩ := channel.agreed_run agreed history
  rw [kept] at enough
  have all := channel.all_createdIn empty history
  refine ⟨⟨whole, asked ▸ enough, acceptable⟩, ?_, ?_, ?_⟩
  · intro stage id job held
    have created := all stage id job held
    refine ⟨created, asked ▸ created.roomy agreed, fun bounded running => ?_⟩
    exact (channel.run_consistent unused empty history bounded).forShare running held
  · intro submitted job found
    have created := all.forShare submitted.jobId job (by rw [found]; rfl)
    have roomy := created.roomy agreed
    have size : (extranonceOf job submitted).length =
        job.extranoncePrefix.length + submitted.extranonce.bytes.length := List.length_append
    refine ⟨created, asked ▸ roomy, fun differs => ?_, fun same => ?_⟩
    · exact now.validateShare_of_incomplete submitted job found (by omega)
    · exact channel.validateShare_error_of_run empty history submitted job found (by omega)
  · exact fun submitted failure refused =>
      channel.validateShare_ne_of_run empty history submitted failure refused

/-- The waiting job of the template becomes active, and extranonces start longer from then on. -/
def longerHistory : List Operation :=
  .setExtranoncePrefix [7, 8] :: soloHistory

/-- A share of the first job, with an extranonce that completes the longer start. -/
def longerShare : Mining.SubmitSharesExtended where
  channelId := 1
  sequenceNumber := 0
  jobId := 1
  nonce := 0
  ntime := 1700000000
  version := 0x20000000
  extranonce := ⟨List.replicate 30 0, by decide⟩

theorem extranonces_complete_longer :
    ∃ channel, create soloOpening true 4 = .ok channel ∧
      let now := channel.run longerHistory
      now.extranoncePrefix = [7, 8] ∧
        now.extranoncePrefix.length + now.rollableSize.toNat = extranonceSize ∧
        now.validateShare longerShare = (now, .error .wrongExtranonceSize) := by
  have starts : ((create soloOpening true 4).toOption.map fun channel =>
      ((channel.run longerHistory).extranoncePrefix,
        ((channel.run longerHistory).jobs.forShare 1).toOption.map
          ExtendedJob.extranoncePrefix)) = some ([7, 8], some [7]) := by
    decide +kernel
  cases done : create soloOpening true 4 with
  | error failure =>
    rw [done] at starts
    cases starts
  | ok channel =>
    rw [done] at starts
    obtain ⟨now, named⟩ := Prod.mk.inj (Option.some.inj starts)
    obtain ⟨sizes, -, shares, -⟩ :=
      extranonces_complete 4 channel (.created soloOpening true channel done) longerHistory
    cases found : (channel.run longerHistory).jobs.forShare 1 with
    | error failure =>
      rw [found] at named
      cases named
    | ok job =>
      rw [found] at named
      have start : job.extranoncePrefix = [7] := Option.some.inj named
      refine ⟨channel, rfl, now, sizes.1, (shares longerShare job found).2.2.1 ?_⟩
      rw [start]
      decide

end ExtendedChannel

end MiningPool
