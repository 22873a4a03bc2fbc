import MiningPool.Proofs.Channel.Numbering
import MiningPool.Proofs.Channel.Opening
import MiningPool.Proofs.Channel.Rollable
import MiningPool.Proofs.Job.Script

/-!
# Scripts of channels

A channel or a group is only opened when the script of its coinbases has room for its tag
beside every height, and a policy is only accepted when its tag leaves this room.  Nothing
that is done with a channel changes the tag, so the room stays.

Main result: what is checked of a tag when a channel is opened, when the tag is pushed and
when a coinbase is made is the same limit, for tags of all lengths.  So in every state a
template with a height makes a job, or it is refused for something besides its script.
-/

namespace MiningPool

open MiningPool.Bitcoin MiningPool.Coinbase MiningPool.Message
open MiningPool.Message.TemplateDistribution (NewTemplate)
open MiningPool.JobFactory (InOrder Short Yields)

/-- Whether there is room for the tag does not depend on the jobs that were made. -/
theorem JobFactory.fits_of_step
    {factory later : JobFactory}
    (step : later = factory ∨ later = factory.advance)
    (fits : factory.maxScriptLength ≤ maxScriptSize) :
    later.maxScriptLength ≤ maxScriptSize := by
  rcases step with rfl | rfl
  · exact fits
  · exact fits

/-! ## Standard channels -/

/-- A standard channel has whole extranonces. -/
def AnyChannel.Whole : AnyChannel → Prop
  | standard channel => channel.extranoncePrefix.length = extranonceSize
  | extended _ | group _ => True

theorem AnyChannel.whole_withShares (channel : AnyChannel) (shares : ShareAccounting) :
    (channel.withShares shares).Whole ↔ channel.Whole := by
  cases channel <;> exact Iff.rfl

theorem AnyChannel.Change.factory
    {channel later : StandardChannel}
    {operation : Operation}
    (change : Change channel operation later) :
    later.factory = channel.factory ∨ later.factory = channel.factory.advance := by
  cases change with
  | kept _ _ nothing jobs factory => exact .inl factory
  | made template rewards job _ arrival numbered jobs factory => exact .inr factory
  | handed job member _ arrival numbered jobs factory => exact .inl factory
  | activated message _ jobs factory => exact .inl factory

namespace StandardChannel

/-- A channel that was just opened for a miner. -/
inductive Opened : StandardChannel → Prop
  /-- Its extranonce was handed out before. -/
  | created
      (opening : Channel.Opening)
      (channel : StandardChannel)
      (done : create opening = .ok channel) :
      Opened channel
  /-- Its extranonce was handed out for it. -/
  | requested
      (id : UInt32)
      (request : Mining.OpenStandardMiningChannel)
      (allocator : ExtranonceAllocator)
      (policy : Policy)
      (channel : StandardChannel)
      (done : (openFor id request allocator policy).2 = .ok channel) :
      Opened channel

theorem Opened.exists_create
    {channel : StandardChannel}
    (opened : Opened channel) :
    ∃ opening, create opening = .ok channel := by
  cases opened with
  | created opening _ done => exact ⟨opening, done⟩
  | requested id request allocator policy _ done =>
    unfold openFor at done
    split at done
    · cases done
    · dsimp only at done
      split at done
      · cases done
      · split at done
        · cases done
        · exact ⟨_, done⟩

/-- The script has room for the tag, and the channel has whole extranonces. -/
structure Equipped (channel : StandardChannel) : Prop where
  fits : channel.factory.maxScriptLength ≤ maxScriptSize
  whole : channel.extranoncePrefix.length = extranonceSize

theorem equipped_create
    {opening : Channel.Opening}
    {channel : StandardChannel}
    (created : create opening = .ok channel) :
    channel.Equipped := by
  unfold create at created
  split at created
  · cases created
  · dsimp only at created
    split at created
    · cases created
    next whole =>
      split at created
      · cases created
      next room =>
        cases created
        rw [Bool.not_eq_true, Bool.not_eq_false', JobFactory.fitsScript_iff] at room
        exact ⟨room, Classical.not_not.mp whole⟩

/-- Extranonces stay whole, since a shorter or longer one is refused. -/
theorem whole_after
    {channel : StandardChannel}
    (whole : channel.extranoncePrefix.length = extranonceSize)
    (operation : AnyChannel.Operation) :
    ((AnyChannel.standard channel).after operation).Whole := by
  cases operation with
  | newTemplate template rewards =>
    have exits := attempts_newTemplate channel template rewards
    rw [AnyChannel.after, AnyChannel.newTemplate]
    generalize newTemplate channel template rewards = outcome at exits ⊢
    cases exits <;> exact whole
  | groupJob job =>
    have exits := receives_groupJob channel job
    rw [AnyChannel.after, AnyChannel.groupJob]
    generalize groupJob channel job = outcome at exits ⊢
    cases exits <;> exact whole
  | setNewPrevHash message =>
    have exits := Channel.announces_setNewPrevHash channel message
    rw [AnyChannel.after, AnyChannel.setNewPrevHash]
    generalize Channel.setNewPrevHash channel message = outcome at exits ⊢
    cases exits <;> exact whole
  | setCustomJob | setTip => exact whole
  | setExtranoncePrefix extranoncePrefix =>
    have exits := restarts_setExtranoncePrefix channel extranoncePrefix
    rw [AnyChannel.after, AnyChannel.setExtranoncePrefix]
    generalize setExtranoncePrefix channel extranoncePrefix = outcome at exits ⊢
    cases exits with
    | refused => exact whole
    | restarted size => exact size
  | update hashRate maxTarget =>
    have exits := Channel.retargets_update channel hashRate maxTarget
    rw [AnyChannel.after, AnyChannel.update]
    generalize Channel.update channel hashRate maxTarget = outcome at exits ⊢
    cases exits <;> exact whole
  | validateShare submission =>
    have validates := (AnyChannel.standard channel).validates_validateShare submission
    rw [AnyChannel.after]
    generalize (AnyChannel.standard channel).validateShare submission = result at validates ⊢
    cases validates with
    | refused => exact whole
    | judged =>
      -- What is remembered of shares is left closed, as its hashes must not be evaluated.
      exact (AnyChannel.whole_withShares (.standard channel) _).mpr whole

/-- Whatever is done with a channel, it stays equipped. -/
theorem Equipped.after
    {channel : StandardChannel}
    (equipped : channel.Equipped)
    (operation : AnyChannel.Operation) :
    ∃ later, (AnyChannel.standard channel).after operation = .standard later ∧
      later.Equipped := by
  obtain ⟨later, done, change⟩ := AnyChannel.change_after channel operation
  have whole := whole_after equipped.whole operation
  rw [done] at whole
  exact ⟨later, done, JobFactory.fits_of_step change.factory equipped.fits, whole⟩

theorem Equipped.run
    {first : StandardChannel}
    (equipped : first.Equipped)
    (course : List AnyChannel.Operation) :
    ∃ channel, (AnyChannel.standard first).run course = .standard channel ∧
      channel.Equipped := by
  induction course with
  | nil => exact ⟨first, rfl, equipped⟩
  | cons operation earlier ih =>
    obtain ⟨channel, reached, before⟩ := ih
    rw [AnyChannel.run, reached]
    exact before.after operation

theorem Equipped.yields_newTemplate
    {channel : StandardChannel}
    (equipped : channel.Equipped)
    (template : NewTemplate)
    (rewards : List Output)
    (short : Short template) :
    Yields .ofJob template channel.tip rewards UInt64.size .noMerkleRoot
      (newTemplate channel template rewards).2 := by
  have yields :=
    JobFactory.yields_standardJob equipped.fits short channel.id channel.tip equipped.whole rewards
  unfold newTemplate
  generalize channel.factory.standardJob channel.id channel.tip channel.extranoncePrefix template
    rewards = made at yields ⊢
  obtain ⟨factory, result⟩ := made
  cases yields with
  | made job => exact .made ()
  | hindered failure hindered => exact .hindered failure hindered

end StandardChannel

/-! ## Extended channels -/

namespace ExtendedChannel

theorem fits_create
    {opening : Channel.Opening}
    {versionRolling : Bool}
    {minRollableSize : UInt16}
    {channel : ExtendedChannel}
    (created : create opening versionRolling minRollableSize = .ok channel) :
    channel.factory.maxScriptLength ≤ maxScriptSize := by
  unfold create at created
  split at created
  · cases created
  · dsimp only at created
    split at created
    · cases created
    · split at created
      · cases created
      · split at created
        · cases created
        next room =>
          cases created
          rwa [Bool.not_eq_true, Bool.not_eq_false', JobFactory.fitsScript_iff] at room

/-- Whatever is done with a channel, the script keeps room for the tag. -/
theorem fits_run
    {first : ExtendedChannel}
    (fits : first.factory.maxScriptLength ≤ maxScriptSize)
    (history : List Operation) :
    (first.run history).factory.maxScriptLength ≤ maxScriptSize := by
  induction history with
  | nil => exact fits
  | cons operation earlier ih =>
    exact JobFactory.fits_of_step ((first.run earlier).change_after operation).factory ih

theorem yields_newTemplate
    {channel : ExtendedChannel}
    (fits : channel.factory.maxScriptLength ≤ maxScriptSize)
    (template : NewTemplate)
    (rewards : List Output)
    (short : Short template) :
    Yields .ofJob template channel.tip rewards UInt16.size .invalidBack
      (channel.newTemplate template rewards).2 := by
  have yields := JobFactory.yields_templateJob fits short channel.id channel.tip
    channel.extranoncePrefix rewards
  unfold newTemplate
  generalize channel.factory.templateJob channel.id channel.tip channel.extranoncePrefix template
    rewards = made at yields ⊢
  obtain ⟨factory, result⟩ := made
  cases yields with
  | made job => exact .made ()
  | hindered failure hindered => exact .hindered failure hindered

end ExtendedChannel

/-! ## Groups -/

namespace GroupChannel

/-- A group is opened exactly when its tag is pushed. -/
theorem exists_create_iff (id : UInt32) (tag : Option String) :
    (∃ group, create id tag = .ok group) ↔
      ∃ push, (JobFactory.start true tag).pushTag = .ok push := by
  rw [← JobFactory.fits_iff_exists_pushTag, ← JobFactory.fitsScript_iff, create]
  cases (JobFactory.start true tag).fitsScript <;> simp

theorem fits_create
    {id : UInt32}
    {tag : Option String}
    {group : GroupChannel}
    (created : create id tag = .ok group) :
    group.factory.maxScriptLength ≤ maxScriptSize := by
  have fits := (JobFactory.fits_iff_exists_pushTag _).mpr
    ((exists_create_iff id tag).mp ⟨group, created⟩)
  unfold create at created
  dsimp only at created
  split at created
  · cases created
  · cases created
    exact fits

/-- Whatever is done with a group, the script keeps room for the tag. -/
theorem fits_run
    {first : GroupChannel}
    (fits : first.factory.maxScriptLength ≤ maxScriptSize)
    (course : List Operation) :
    (first.run course).factory.maxScriptLength ≤ maxScriptSize := by
  induction course with
  | nil => exact fits
  | cons operation earlier ih =>
    rcases (first.run earlier).numbering_after operation with ⟨advanced, -⟩ | ⟨same, -⟩
    · exact JobFactory.fits_of_step (.inr advanced) ih
    · exact JobFactory.fits_of_step (.inl same) ih

theorem yields_newTemplate
    {group : GroupChannel}
    (fits : group.factory.maxScriptLength ≤ maxScriptSize)
    (template : NewTemplate)
    (rewards : List Output)
    (short : Short template) :
    Yields .ofJob template group.tip rewards UInt16.size .invalidBack
      (group.newTemplate template rewards).2 := by
  have yields := JobFactory.yields_templateJob fits short group.id group.tip [] rewards
  unfold newTemplate
  generalize group.factory.templateJob group.id group.tip [] template rewards = made at yields ⊢
  obtain ⟨factory, result⟩ := made
  cases yields with
  | made job => exact .made job
  | hindered failure hindered => exact .hindered failure hindered

end GroupChannel

/-! ## Policies -/

namespace Channel

theorem openingTarget_ne_scriptTooLong
    (hashRate sharesPerMinute : Wire.Single)
    (maxTarget : Target) :
    openingTarget hashRate sharesPerMinute maxTarget ≠ .error .scriptTooLong := by
  unfold openingTarget targetFor
  cases Target.ofHashRate (Number.doubleOfSingle hashRate)
    (Number.doubleOfSingle sharesPerMinute) with
  | error failure => cases failure <;> exact nofun
  | ok target =>
    dsimp only
    split <;> exact nofun

/-- A request is only refused for its script when the channel is. -/
theorem openWith_ne_scriptTooLong
    {C : Type}
    (request : Request)
    (allocator : ExtranonceAllocator)
    (policy : Policy)
    (report : ExtranonceError → ChannelError)
    (create : String → Bytes → Except ChannelError C)
    (reports : ∀ failure, report failure ≠ .scriptTooLong)
    (creates : ∀ userIdentity start, create userIdentity start ≠ .error .scriptTooLong) :
    (openWith request allocator policy report create).2 ≠ .error .scriptTooLong := by
  unfold openWith
  split
  · exact nofun
  · split
    next failure failed =>
      rintro ⟨⟩
      exact openingTarget_ne_scriptTooLong _ _ _ failed
    · split
      · exact fun same => reports _ (Except.error.inj same)
      · exact creates _ _

end Channel

theorem StandardChannel.create_ne_scriptTooLong
    (opening : Channel.Opening)
    (fits : (JobFactory.start true opening.tag).maxScriptLength ≤ maxScriptSize) :
    create opening ≠ .error .scriptTooLong := by
  rw [← JobFactory.fitsScript_iff] at fits
  unfold create
  split
  next failure failed =>
    rintro ⟨⟩
    exact Channel.openingTarget_ne_scriptTooLong _ _ _ failed
  · simp only [fits, Bool.not_true, Bool.false_eq_true, if_false]
    split <;> exact nofun

theorem ExtendedChannel.create_ne_scriptTooLong
    (opening : Channel.Opening)
    (versionRolling : Bool)
    (minRollableSize : UInt16)
    (fits : (JobFactory.start versionRolling opening.tag).maxScriptLength ≤ maxScriptSize) :
    create opening versionRolling minRollableSize ≠ .error .scriptTooLong := by
  rw [← JobFactory.fitsScript_iff] at fits
  unfold create
  split
  next failure failed =>
    rintro ⟨⟩
    exact Channel.openingTarget_ne_scriptTooLong _ _ _ failed
  · simp only [fits, Bool.not_true, Bool.false_eq_true, if_false]
    split
    · exact nofun
    · split <;> exact nofun

namespace Policy.Sound

variable
  {policy : Policy}
  (sound : policy.Sound)

include sound

theorem fits (versionRolling : Bool) :
    (JobFactory.start versionRolling policy.poolTag).maxScriptLength ≤ maxScriptSize := by
  rw [← JobFactory.fitsScript_iff, JobFactory.fitsScript_start]
  exact sound.tag

theorem openStandard_ne_scriptTooLong
    (id : UInt32)
    (request : Mining.OpenStandardMiningChannel)
    (allocator : ExtranonceAllocator) :
    (StandardChannel.openFor id request allocator policy).2 ≠ .error .scriptTooLong := by
  refine Channel.openWith_ne_scriptTooLong (.ofStandard request) allocator policy .extranonce
    (fun userIdentity extranoncePrefix => StandardChannel.create
      ⟨id, userIdentity, extranoncePrefix, _, _, _, _, policy.poolTag⟩)
    (fun _ => nofun) ?_
  exact fun _ _ => StandardChannel.create_ne_scriptTooLong _ (sound.fits true)

theorem openExtended_ne_scriptTooLong
    (id : UInt32)
    (request : Mining.OpenExtendedMiningChannel)
    (allocator : ExtranonceAllocator) :
    (ExtendedChannel.openFor id request allocator policy).2 ≠ .error .scriptTooLong := by
  refine Channel.openWith_ne_scriptTooLong (.ofExtended request) allocator policy .ofExtranonce
    (fun userIdentity extranoncePrefix => ExtendedChannel.create
      ⟨id, userIdentity, extranoncePrefix, _, _, _, _, policy.poolTag⟩
      policy.versionRolling request.minExtranonceSize)
    ?_ ?_
  · intro failure
    cases failure <;> exact nofun
  · exact fun _ _ => ExtendedChannel.create_ne_scriptTooLong _ _ _ (sound.fits _)

end Policy.Sound

namespace Channel

/--
The script of a coinbase is measured where a tag is given, where it is pushed and where the
coinbase is made, and always against the same limit.  So a channel or a group that was opened
makes a job of every template with a height, whatever was done with it before and whether that
succeeded or failed, unless something besides the script hinders it; and under a policy that
was checked no channel or group is refused for its script.  The first half of a coinbase,
without the witness, always fits into a message.
-/
theorem script_limits_agree :
    (∀ factory : JobFactory, factory.MeasuresAlike) ∧
    (∀ request halves, JobFactory.customHalves request = .ok halves → halves.FrontFits) ∧
    (∀ first, StandardChannel.Opened first →
      ∀ course, ∃ channel, (AnyChannel.standard first).run course = .standard channel ∧
        ∀ template rewards, Short template →
          Yields .ofJob template channel.tip rewards UInt64.size .noMerkleRoot
            (StandardChannel.newTemplate channel template rewards).2) ∧
    (∀ minRollableSize first, ExtendedChannel.OpenedFor minRollableSize first →
      ∀ history template rewards, Short template →
        let channel := first.run history
        Yields .ofJob template channel.tip rewards UInt16.size .invalidBack
          (channel.newTemplate template rewards).2) ∧
    (∀ id tag,
      ((∃ group, GroupChannel.create id tag = .ok group) ↔
        ∃ push, (JobFactory.start true tag).pushTag = .ok push) ∧
      ∀ first, GroupChannel.create id tag = .ok first →
        ∀ course template rewards, Short template →
          let group := first.run course
          Yields .ofJob template group.tip rewards UInt16.size .invalidBack
            (group.newTemplate template rewards).2) ∧
    ∀ settings policy, Policy.ofSettings settings = .ok policy →
      (∀ versionRolling, ∃ push,
        (JobFactory.start versionRolling policy.poolTag).pushTag = .ok push) ∧
      ∀ id,
        (∃ group, GroupChannel.create id policy.poolTag = .ok group) ∧
        ∀ allocator,
          (∀ request,
            (StandardChannel.openFor id request allocator policy).2 ≠ .error .scriptTooLong) ∧
          ∀ request,
            (ExtendedChannel.openFor id request allocator policy).2 ≠ .error .scriptTooLong := by
  refine ⟨JobFactory.measuresAlike, JobFactory.frontFits_of_customHalves, ?_, ?_, ?_, ?_⟩
  · intro first opened course
    obtain ⟨opening, created⟩ := opened.exists_create
    obtain ⟨channel, reached, equipped⟩ :=
      (StandardChannel.equipped_create created).run course
    exact ⟨channel, reached, equipped.yields_newTemplate⟩
  · intro minRollableSize first opened history template rewards short
    obtain ⟨opening, versionRolling, created⟩ := opened.exists_create
    have fits := ExtendedChannel.fits_run (ExtendedChannel.fits_create created) history
    exact ExtendedChannel.yields_newTemplate fits template rewards short
  · intro id tag
    refine ⟨GroupChannel.exists_create_iff id tag, ?_⟩
    intro first created course template rewards short
    have fits := GroupChannel.fits_run (GroupChannel.fits_create created) course
    exact GroupChannel.yields_newTemplate fits template rewards short
  · intro settings policy checked
    have sound := Policy.sound_of_checked settings policy checked
    refine ⟨fun versionRolling => ?_, fun id => ⟨?_, fun allocator => ⟨?_, ?_⟩⟩⟩
    · exact ⟨_, JobFactory.pushTag_of_fits (sound.fits versionRolling)⟩
    · rw [GroupChannel.exists_create_iff, ← JobFactory.fits_iff_exists_pushTag]
      exact sound.fits true
    · exact fun request => sound.openStandard_ne_scriptTooLong id request allocator
    · exact fun request => sound.openExtended_ne_scriptTooLong id request allocator

theorem exists_of_isOk
    {ε α : Type}
    {result : Except ε α}
    (ok : result.isOk = true) :
    ∃ value, result = .ok value := by
  cases result with
  | error => cases ok
  | ok value => exact ⟨value, rfl⟩

/-- A tag of 58 bytes. -/
def longestTag : String :=
  "a tag that takes up all of a script that any height leaves"

/-- Settings with this tag. -/
def longestSettings : Settings :=
  { steadySettings with tag := longestTag }

/-- The policy that they are checked to be. -/
def longestPolicy : Policy :=
  { steadyPolicy with tag := longestTag }

/-- A template with the longest height. -/
def heightTemplate : NewTemplate :=
  { JobFactory.outputTemplate with
    coinbasePrefix := ⟨[0x04, 0x00, 0x00, 0x00, 0x01], by decide⟩ }

/-- A template that asks for one byte more. -/
def longTemplate : NewTemplate :=
  { JobFactory.outputTemplate with
    coinbasePrefix := ⟨[0x05, 0x00, 0x00, 0x00, 0x00, 0x01], by decide⟩ }

/-- The rewards of both templates. -/
def heightRewards : List Output :=
  [⟨50, [0x51]⟩]

/--
With the longest tag a height fills the script, and one byte more is too long.  Channels and
groups are opened with it.
-/
theorem script_limits_agree_longestTag :
    ∃ push halves custom standard extended group,
      let factory := JobFactory.start true longestPolicy.poolTag
      (factory.pushTag = .ok push ∧
        PushesDirectly push factory.delimitedTag ∧
        JobFactory.scriptLength heightTemplate push = 100 ∧
        factory.templateHalves heightTemplate heightRewards = .ok halves ∧
        halves.Scripted (JobFactory.scriptStart heightTemplate push ++ ·) ∧
        halves.FrontFits ∧
        factory.templateHalves longTemplate heightRewards = .error (.scriptTooLong 101)) ∧
      (JobFactory.customHalves JobFactory.outputRequest = .ok custom ∧ custom.FrontFits) ∧
      Policy.ofSettings longestSettings = .ok longestPolicy ∧
      ((StandardChannel.openFor 1 steadyStandardRequest ⟨[7], 0, 0, by decide⟩
          longestPolicy).2 = .ok standard ∧
        Yields .ofJob heightTemplate standard.tip heightRewards UInt64.size .noMerkleRoot
          (StandardChannel.newTemplate standard heightTemplate heightRewards).2) ∧
      ((ExtendedChannel.openFor 1 (steadyRequest 8) ⟨[7], 8, 0, by decide⟩
          longestPolicy).2 = .ok extended ∧
        Yields .ofJob heightTemplate extended.tip heightRewards UInt16.size .invalidBack
          (extended.newTemplate heightTemplate heightRewards).2) ∧
      GroupChannel.create 1 longestPolicy.poolTag = .ok group ∧
      Yields .ofJob heightTemplate group.tip heightRewards UInt16.size .invalidBack
        (group.newTemplate heightTemplate heightRewards).2 := by
  have checked : Policy.ofSettings longestSettings = .ok longestPolicy := by decide +kernel
  have wished : (JobFactory.customHalves JobFactory.outputRequest).isOk = true := by
    decide +kernel
  have granted :
      (StandardChannel.openFor 1 steadyStandardRequest ⟨[7], 0, 0, by decide⟩
          longestPolicy).2.isOk = true ∧
        (ExtendedChannel.openFor 1 (steadyRequest 8) ⟨[7], 8, 0, by decide⟩
          longestPolicy).2.isOk = true := by
    decide +kernel
  have size : (JobFactory.start true longestPolicy.poolTag).tagBytes.length = 58 := by
    decide +kernel
  have listed : Lists (Output.write ⟨0, [0x6a]⟩) 1 [⟨0, [0x6a]⟩] := ⟨rfl, List.prefix_refl _⟩
  have short : Short heightTemplate := by decide
  obtain ⟨alike, customs, standards, extendeds, groups, policies⟩ := script_limits_agree
  obtain ⟨pushes, creates⟩ := policies longestSettings longestPolicy checked
  obtain ⟨push, pushed⟩ := pushes true
  obtain ⟨group, created⟩ := (creates 1).1
  have tagged := alike (.start true longestPolicy.poolTag)
  have length : push.length = 62 := by
    rw [JobFactory.length_push pushed, size]
  obtain ⟨halves, built⟩ :=
    tagged.built push heightTemplate heightRewards pushed ⟨rfl, _, listed⟩ short
  obtain ⟨scripted, fits⟩ := tagged.scripted push heightTemplate heightRewards halves pushed built
  have filled : JobFactory.scriptLength heightTemplate push = 100 := by
    rw [JobFactory.scriptLength_eq, length]
    rfl
  have long : JobFactory.scriptLength longTemplate push = 101 := by
    rw [JobFactory.scriptLength_eq, length]
    rfl
  have refused := tagged.refused push longTemplate heightRewards (.scriptTooLong 101) pushed
    ⟨rfl, _, listed⟩
  rw [long] at refused
  obtain ⟨custom, customBuilt⟩ := exists_of_isOk wished
  obtain ⟨standard, standardOpened⟩ := exists_of_isOk granted.1
  obtain ⟨extended, extendedOpened⟩ := exists_of_isOk granted.2
  obtain ⟨_, reached, standardYields⟩ :=
    standards standard (.requested _ _ _ _ standard standardOpened) []
  cases reached
  refine ⟨push, halves, custom, standard, extended, group, ?_,
    ⟨customBuilt, customs _ _ customBuilt⟩, checked,
    ⟨standardOpened, standardYields heightTemplate heightRewards short⟩,
    ⟨extendedOpened, ?_⟩, created, ?_⟩
  · exact ⟨pushed, tagged.direct push pushed, filled, built, scripted, fits,
      refused.mpr (by decide)⟩
  · exact extendeds 8 extended (.requested _ _ _ _ extended rfl extendedOpened) []
      heightTemplate heightRewards short
  · exact (groups 1 longestPolicy.poolTag).2 group created [] heightTemplate heightRewards short

end Channel

end MiningPool
