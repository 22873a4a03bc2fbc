import MiningPool.Proofs.Channel.Course
import MiningPool.Proofs.Job.Assembly

/-!
# Blocks that are found

Every job of a channel is put together from one draft of a coinbase, however the channel
came to it and whatever was done since.  So when a share is a block, what is returned of
it is the very transaction that its header commits to, and the block can be submitted.
-/

namespace MiningPool

open MiningPool.Bitcoin MiningPool.Coinbase MiningPool.Wire MiningPool.Message

namespace AnyJob

/-- Where the content of a job comes from; with a fixed root it is always a template. -/
def origin : AnyJob → JobOrigin
  | .inl job => .template job.template
  | .inr job => job.origin

/-- The hashes that lead from the coinbase to the root of the tree of transactions. -/
def merklePath : AnyJob → List Hash
  | .inl job => job.template.merklePath.items
  | .inr job => job.message.merklePath.items

/-- A job is put together from one coinbase. -/
def Assembled : AnyJob → Prop
  | .inl job => ∃ transaction, job.Assembled transaction
  | .inr job => ∃ draft, job.Assembled draft

theorem templateId_eq (job : AnyJob) : Job.templateId job = job.origin.templateId := by
  cases job <;> rfl

end AnyJob

/-- Only the jobs of miners' own come from no template. -/
theorem JobOrigin.templateId_eq_none (origin : JobOrigin) :
    origin.templateId = none ↔ ∃ request, origin = .custom request := by
  cases origin with
  | template source => simp [templateId]
  | custom request => simp [templateId]

/-- Shares that are no blocks are never answered as such. -/
theorem ShareAccounting.outcome_ne_blockFound
    (shares : ShareAccounting)
    (templateId : Option UInt64)
    (coinbase : Bytes) :
    shares.outcome ≠ .blockFound templateId coinbase := by
  unfold outcome
  split <;> exact ShareOutcome.noConfusion

theorem Channel.all_addJob
    {J : Type}
    [Job J]
    {holds : J → Prop}
    (channel : Channel J)
    (all : channel.jobs.All holds)
    (templateId : UInt64)
    (job : J)
    (new : holds job) :
    (channel.addJob templateId job).jobs.All holds := by
  unfold addJob
  dsimp only
  split
  · exact all.addFuture templateId job new
  · exact all.addActive job new

/-- Shares can only name jobs of the store. -/
theorem JobStore.All.forShare
    {J : Type}
    [Job J]
    {store : JobStore J}
    {holds : J → Prop}
    (all : store.All holds)
    (id : UInt32)
    (job : J)
    (found : (store.forShare id).toOption = some job) :
    holds job := by
  rw [forShare_eq] at found
  split at found
  · cases found
  · split at found
    · cases found
    next held =>
      cases found
      rcases Option.or_eq_some_iff.mp held with active | ⟨-, past⟩
      · exact all _ _ _ active
      · exact all _ _ _ past

namespace AnyChannel

/-- The jobs of a channel are put together, and a standard channel has whole extranonces. -/
inductive Sound : AnyChannel → Prop
  | standard
      (channel : StandardChannel)
      (whole : channel.extranoncePrefix.length = extranonceSize)
      (jobs : channel.jobs.All fun job => ∃ transaction, job.Assembled transaction) :
      Sound (.standard channel)
  | extended
      (channel : ExtendedChannel)
      (jobs : channel.jobs.All fun job => ∃ draft, job.Assembled draft) :
      Sound (.extended channel)

theorem Opened.sound
    {channel : AnyChannel}
    (opened : Opened channel) :
    channel.Sound := by
  cases opened.fresh with
  | standard channel _ jobs _ _ whole =>
    refine .standard channel whole ?_
    rw [jobs]
    exact JobStore.all_empty _
  | extended channel _ jobs =>
    refine .extended channel ?_
    rw [jobs]
    exact JobStore.all_empty _

theorem Sound.assembled
    {channel : AnyChannel}
    (sound : channel.Sound)
    (id : UInt32)
    (job : AnyJob)
    (found : channel.running? id = some job) :
    job.Assembled := by
  cases sound with
  | standard channel whole jobs =>
    obtain ⟨standard, known, rfl⟩ := Option.map_eq_some_iff.mp found
    exact jobs.forShare id standard known
  | extended channel jobs =>
    obtain ⟨extended, known, rfl⟩ := Option.map_eq_some_iff.mp found
    exact jobs.forShare id extended known

/-! ## Operations -/

theorem Sound.withShares
    {channel : AnyChannel}
    (sound : channel.Sound)
    (shares : ShareAccounting) :
    (channel.withShares shares).Sound := by
  cases sound with
  | standard channel whole jobs => exact .standard _ whole jobs
  | extended channel jobs => exact .extended _ jobs

theorem Sound.validateShare
    {channel : AnyChannel}
    (sound : channel.Sound)
    (submission : Submission) :
    (channel.validateShare submission).1.Sound := by
  have validates := channel.validates_validateShare submission
  generalize channel.validateShare submission = result at validates ⊢
  cases validates with
  | refused => exact sound
  | judged => exact sound.withShares _

section Standard

variable
  {channel : StandardChannel}
  (whole : channel.extranoncePrefix.length = extranonceSize)
  (jobs : channel.jobs.All fun job => ∃ transaction, job.Assembled transaction)

include whole jobs

theorem sound_newTemplate
    (template : TemplateDistribution.NewTemplate)
    (rewards : List Output) :
    ((standard channel).newTemplate template rewards).1.Sound := by
  have exits := StandardChannel.attempts_newTemplate channel template rewards
  rw [newTemplate]
  generalize StandardChannel.newTemplate channel template rewards = outcome at exits ⊢
  cases exits with
  | failed => exact .standard _ whole jobs
  | succeeded factory job made =>
    refine .standard _ whole (Channel.all_addJob _ jobs _ job ?_)
    exact JobFactory.assembled_standardJob _ _ _ _ _ _ _ job whole made

theorem sound_groupJob
    (job : ExtendedJob)
    (made : job.Made) :
    ((standard channel).groupJob job).1.Sound := by
  have exits := StandardChannel.receives_groupJob channel job
  rw [groupJob]
  generalize StandardChannel.groupJob channel job = outcome at exits ⊢
  cases exits with
  | refused => exact .standard _ whole jobs
  | received own converted =>
    obtain ⟨draft, assembled⟩ := made.assembled
    refine .standard _ whole (Channel.all_addJob _ jobs _ own ?_)
    exact ⟨_, assembled.toStandard _ _ whole own converted⟩

theorem sound_setNewPrevHash (message : TemplateDistribution.SetNewPrevHash) :
    ((standard channel).setNewPrevHash message).1.Sound := by
  have exits := Channel.announces_setNewPrevHash channel message
  rw [setNewPrevHash]
  generalize Channel.setNewPrevHash channel message = outcome at exits ⊢
  cases exits with
  | unknown => exact .standard _ whole jobs
  | activated later activated =>
    refine .standard _ whole (jobs.activate? later _ _ ?_ activated)
    rintro job ⟨transaction, assembled⟩
    exact ⟨transaction, assembled.activate _⟩

theorem sound_setExtranoncePrefix (extranoncePrefix : Bytes) :
    ((standard channel).setExtranoncePrefix extranoncePrefix).1.Sound := by
  have exits := StandardChannel.restarts_setExtranoncePrefix channel extranoncePrefix
  rw [setExtranoncePrefix]
  generalize StandardChannel.setExtranoncePrefix channel extranoncePrefix = outcome at exits ⊢
  cases exits with
  | refused => exact .standard _ whole jobs
  | restarted size => exact .standard _ size jobs

theorem sound_update (hashRate : Single) (maxTarget : Option Target) :
    ((standard channel).update hashRate maxTarget).1.Sound := by
  have exits := Channel.retargets_update channel hashRate maxTarget
  rw [update]
  generalize Channel.update channel hashRate maxTarget = outcome at exits ⊢
  cases exits <;> exact .standard _ whole jobs

end Standard

end AnyChannel

namespace ExtendedChannel

/-- A job that an operation creates is made. -/
theorem made_of_created
    (channel : ExtendedChannel)
    (operation : Operation)
    (job : ExtendedJob)
    (created : channel.created? operation = some job) :
    job.Made := by
  rcases factory_of_created created with ⟨_, _, _, -, made⟩ | ⟨_, _, -, made⟩
  · exact .template _ _ _ _ _ _ _ job made
  · exact .custom _ _ _ _ job made

/-- Whatever is done with a channel, its jobs stay put together. -/
theorem all_assembled_after
    (channel : ExtendedChannel)
    (jobs : channel.jobs.All fun job => ∃ draft, job.Assembled draft)
    (operation : Operation) :
    (channel.after operation).jobs.All fun job => ∃ draft, job.Assembled draft := by
  cases channel.change_after operation with
  | kept _ _ nothing same =>
    rw [same]
    exact jobs
  | tipped tip _ same =>
    rw [same]
    exact jobs
  | waiting template rewards job _ created future makes added =>
    rw [added]
    exact jobs.addFuture _ job (channel.made_of_created _ job created).assembled
  | running template rewards job tip _ created current makes added =>
    rw [added]
    exact jobs.addActive job (channel.made_of_created _ job created).assembled
  | custom request job _ created makes added =>
    have active := jobs.addActive job (channel.made_of_created _ job created).assembled
    rw [added]
    split
    · exact active.markPastStale
    · exact active
  | activated message _ done =>
    refine jobs.activate? _ _ _ ?_ done
    rintro job ⟨draft, assembled⟩
    exact ⟨draft, assembled.activate _⟩

end ExtendedChannel

namespace AnyChannel

/-- The operation that an extended channel has for one of any kind. -/
def Operation.extended? : Operation → Option ExtendedChannel.Operation
  | newTemplate template rewards => some (.newTemplate template rewards)
  | groupJob _ => none
  | setNewPrevHash message => some (.setNewPrevHash message)
  | setCustomJob request => some (.setCustomJob request)
  | setTip tip => some (.setTip tip)
  | setExtranoncePrefix extranoncePrefix => some (.setExtranoncePrefix extranoncePrefix)
  | update hashRate maxTarget => some (.update hashRate maxTarget)
  | validateShare (.extended share) => some (.validateShare share)
  | validateShare (.standard _) => none

/-- Operations that extended channels do not have leave them as they are. -/
theorem after_extended (channel : ExtendedChannel) (operation : Operation) :
    (extended channel).after operation =
      extended (operation.extended?.elim channel channel.after) := by
  cases operation with
  | newTemplate | groupJob | setNewPrevHash | setCustomJob | setTip | setExtranoncePrefix
  | update => rfl
  | validateShare submission => cases submission <;> rfl

/-- Whatever is done with a channel, it stays sound, as long as groups give it jobs they made. -/
theorem Sound.after
    {channel : AnyChannel}
    (sound : channel.Sound)
    (operation : Operation)
    (made : ∀ job, operation = .groupJob job → job.Made) :
    (channel.after operation).Sound := by
  cases sound with
  | standard channel whole jobs =>
    cases operation with
    | newTemplate template rewards => exact sound_newTemplate whole jobs template rewards
    | groupJob job => exact sound_groupJob whole jobs job (made job rfl)
    | setNewPrevHash message => exact sound_setNewPrevHash whole jobs message
    | setCustomJob request => exact .standard channel whole jobs
    | setTip tip => exact .standard _ whole jobs
    | setExtranoncePrefix extranoncePrefix =>
      exact sound_setExtranoncePrefix whole jobs extranoncePrefix
    | update hashRate maxTarget => exact sound_update whole jobs hashRate maxTarget
    | validateShare submission => exact (Sound.standard channel whole jobs).validateShare submission
  | extended channel jobs =>
    rw [after_extended]
    refine .extended _ ?_
    cases operation.extended? with
    | none => exact jobs
    | some operation => exact channel.all_assembled_after jobs operation

theorem sound_run
    (channel : AnyChannel)
    (sound : channel.Sound)
    (course : List Operation)
    (made : ∀ job, .groupJob job ∈ course → job.Made) :
    (channel.run course).Sound := by
  induction course with
  | nil => exact sound
  | cons operation earlier ih =>
    refine (ih fun job member => made job (List.mem_cons_of_mem _ member)).after operation ?_
    rintro job rfl
    exact made job List.mem_cons_self

/-! ## Blocks -/

/-- A coinbase and a template suffice to submit the block that a share for a job found. -/
structure Submittable
    (channel : AnyChannel)
    (submission : Submission)
    (templateId : Option UInt64)
    (coinbase : Bytes)
    (job : AnyJob)
    (tip : ChainTip)
    (root : Hash)
    (transaction : Transaction) :
    Prop where
  found : channel.running? submission.jobId = some job
  known : channel.tip = some tip
  computed : job.merkleRoot? (job.extranoncePrefix ++ submission.rolled) = some root
  /-- The hash of the header is not above the target of the chain. -/
  meets :
    Target.ofBlob
      (Header.hash
        { version := submission.version
          previous := tip.prevHash
          merkleRoot := root
          time := submission.ntime
          bits := tip.nbits
          nonce := submission.nonce }) ≤ targetOfBits tip.nbits
  whole : (job.extranoncePrefix ++ submission.rolled).length = extranonceSize
  /-- The coinbase is one transaction with the extranonce, and leads to the root. -/
  commits :
    Commits coinbase (job.extranoncePrefix ++ submission.rolled) job.merklePath root transaction
  made : templateId = job.origin.templateId
  custom : templateId = none ↔ ∃ request, job.origin = .custom request

/-- The candidate of a share for a job that is put together has the coinbase of its root. -/
theorem Completes.commits
    {channel : AnyChannel}
    {submission : Submission}
    {job : AnyJob}
    {candidate : Candidate}
    (completes : channel.Completes submission job candidate)
    (assembled : job.Assembled) :
    (job.extranoncePrefix ++ submission.rolled).length = extranonceSize ∧
      ∃ transaction,
        Commits candidate.coinbase (job.extranoncePrefix ++ submission.rolled) job.merklePath
          candidate.share.merkleRoot transaction := by
  rw [completes.coinbase]
  cases job with
  | inl job =>
    obtain ⟨transaction, assembled⟩ := assembled
    have root := Option.some.inj completes.root
    rw [completes.fixed rfl, List.append_nil, ← root]
    exact ⟨assembled.whole, transaction, assembled.commits⟩
  | inr job =>
    obtain ⟨draft, assembled⟩ := assembled
    have whole := completes.size rfl
    exact ⟨whole, _, assembled.commits _ whole _ completes.root⟩

/--
A block that is found can be submitted.  Whatever was done with a channel since it was
opened, when a share is answered as a block, the header it completes meets the target of
the chain, and the coinbase that comes with the answer is the form with witnesses of a
transaction that ends its script with the whole extranonce and whose identifier leads to
the root in that header.  The template is that of the job, if it has one.
-/
theorem block_submittable
    (opened : AnyChannel)
    (opens : Opened opened)
    (course : List Operation)
    (made : ∀ job, .groupJob job ∈ course → job.Made)
    (submission : Submission)
    (templateId : Option UInt64)
    (coinbase : Bytes)
    (answer : ((opened.run course).validateShare submission).2 =
      .ok (.blockFound templateId coinbase)) :
    ∃ job tip root transaction,
      (opened.run course).Submittable submission templateId coinbase job tip root transaction := by
  have sound := opened.sound_run opens.sound course made
  generalize opened.run course = channel at sound answer ⊢
  obtain ⟨candidate, examined⟩ := channel.examined_of_accepted submission _ answer
  obtain ⟨job, completes⟩ := channel.completes_examine submission candidate examined
  obtain ⟨shares, target, known, aimed⟩ :=
    channel.remembered_of_examined submission candidate examined
  obtain ⟨later, -, -, judged⟩ := counted_of_accepted examined known aimed _ answer
  rcases judged with ⟨block, same⟩ | ⟨-, -, -, same⟩
  · obtain ⟨rfl, rfl⟩ := ShareOutcome.blockFound.inj same
    obtain ⟨whole, transaction, commits⟩ :=
      completes.commits (sound.assembled submission.jobId job completes.found)
    have template : candidate.templateId = job.origin.templateId :=
      completes.templateId.trans job.templateId_eq
    refine ⟨job, candidate.tip, candidate.share.merkleRoot, transaction, completes.found,
      completes.tip, completes.root, ?_, whole, commits, template, ?_⟩
    · rw [Candidate.IsBlock, Candidate.hash, completes.share] at block
      exact block
    · rw [template]
      exact JobOrigin.templateId_eq_none _
  · exact absurd same.symm (later.outcome_ne_blockFound _ _)

/-- The course of a member on the easy chain that takes a job of its group. -/
def memberCourse (job : ExtendedJob) : List Operation :=
  [.groupJob job, .setTip easyTip]

theorem exists_member_onEasyChain :
    ∃ opened job shares coinbase, Opened opened ∧ job.Made ∧
      (opened.run (memberCourse job)).OnEasyChain shares coinbase := by
  have computed :
      ((JobFactory.start true none).templateJob 9 (some easyTip) []
        { ExtendedChannel.soloTemplate with futureTemplate := false }
        [⟨50, [0x51]⟩]).2.toOption.any (fun job =>
          (createStandard easyOpening).toOption.any fun opened =>
            (opened.run (memberCourse job)).startsEasy) = true := by
    decide +kernel
  rcases made : (JobFactory.start true none).templateJob 9 (some easyTip) []
    { ExtendedChannel.soloTemplate with futureTemplate := false } [⟨50, [0x51]⟩] with
    ⟨later, failure | job⟩
  · rw [made] at computed
    cases computed
  · rw [made] at computed
    cases done : createStandard easyOpening with
    | error failure =>
      rw [done] at computed
      cases computed
    | ok opened =>
      rw [done] at computed
      obtain ⟨shares, coinbase, easy⟩ := onEasyChain_of_startsEasy _ computed
      exact ⟨opened, job, shares, coinbase, .standard easyOpening opened done,
        .template _ _ _ _ _ _ _ job made, easy⟩

/-- A member of a group finds a block with a job of the group. -/
theorem block_submittable_easy :
    ∃ opened job coinbase, Opened opened ∧ job.Made ∧
      let channel := opened.run (memberCourse job)
      (channel.validateShare (easyShare 1 1 0)).2 = .ok (.blockFound (some 5) coinbase) ∧
      ∃ own tip root transaction,
        channel.Submittable (easyShare 1 1 0) (some 5) coinbase own tip root transaction := by
  obtain ⟨opened, job, shares, coinbase, opens, made, easy⟩ := exists_member_onEasyChain
  obtain ⟨later, done, -⟩ := easy.finds shares 1 0 easyHash_nonces.1
  rw [easy.start] at done
  have answer := congrArg Prod.snd done
  refine ⟨opened, job, coinbase, opens, made, answer, ?_⟩
  refine block_submittable opened opens (memberCourse job) ?_ (easyShare 1 1 0) (some 5) coinbase
    answer
  intro other member
  have same : other = job := by simpa [memberCourse] using member
  exact same ▸ made

end AnyChannel

end MiningPool
