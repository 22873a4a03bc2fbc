import MiningPool.Channel.Extended
import MiningPool.Channel.Group
import MiningPool.Channel.Standard

/-!
# Exits of operations

An operation on a channel has a few exits: it is refused for a reason and leaves the channel as it
was, or it succeeds and leaves a channel that differs from it in a few things.  An attempt to make
a job that fails leaves the factory that it reached.  The exits of each operation are listed once,
with what holds when they are taken, and whatever is said of a channel after an operation goes by
them.
-/

namespace MiningPool

open MiningPool.Bitcoin MiningPool.Wire MiningPool.Message

/-! ## Standard and extended channels -/

namespace Channel

variable {J : Type} [Job J] (channel : Channel J)

/-- The exits of announcing a block. -/
inductive Announces
    (message : TemplateDistribution.SetNewPrevHash) :
    Channel J × Except ChannelError Unit → Prop
  | unknown
      (unknown : channel.jobs.activate? message.templateId message.headerTimestamp = none) :
      Announces message (channel, .error .unknownTemplate)
  | activated
      (jobs : JobStore J)
      (activated :
        channel.jobs.activate? message.templateId message.headerTimestamp = some jobs) :
      Announces message
        ({ channel with
            jobs
            shares := channel.shares.flush
            tip := some (.ofTemplate message) },
          .ok ())

theorem announces_setNewPrevHash (message : TemplateDistribution.SetNewPrevHash) :
    channel.Announces message (channel.setNewPrevHash message) := by
  unfold setNewPrevHash
  split
  next unknown => exact .unknown unknown
  next jobs activated => exact .activated jobs activated

omit [Job J]

/-- The exits of giving a channel another hash rate. -/
inductive Retargets
    (hashRate : Single)
    (maxTarget : Option Target) :
    Channel J × Except ChannelError Unit → Prop
  | refused
      (failure : ChannelError)
      (aimless : targetFor hashRate channel.sharesPerMinute = .error failure) :
      Retargets hashRate maxTarget (channel, .error failure)
  | retargeted
      (target : Target)
      (aimed : targetFor hashRate channel.sharesPerMinute = .ok target) :
      Retargets hashRate maxTarget
        ({ channel with
            hashRate
            maxTarget := maxTarget.getD channel.maxTarget
            target := min target (maxTarget.getD channel.maxTarget) },
          .ok ())

theorem retargets_update (hashRate : Single) (maxTarget : Option Target) :
    channel.Retargets hashRate maxTarget (channel.update hashRate maxTarget) := by
  unfold update
  split
  next failure aimless => exact .refused failure aimless
  next target aimed => exact .retargeted target aimed

end Channel

/-! ## Standard channels -/

namespace StandardChannel

variable (channel : StandardChannel)

/-- The exits of making a job from a template. -/
inductive Attempts
    (template : TemplateDistribution.NewTemplate)
    (rewards : List Output) :
    StandardChannel × Except ChannelError Unit → Prop
  | failed
      (factory : JobFactory)
      (failure : JobError)
      (made : channel.factory.standardJob channel.id channel.tip channel.extranoncePrefix template
        rewards = (factory, .error failure)) :
      Attempts template rewards ({ channel with factory }, .error (.ofJob failure))
  | succeeded
      (factory : JobFactory)
      (job : StandardJob)
      (made : channel.factory.standardJob channel.id channel.tip channel.extranoncePrefix template
        rewards = (factory, .ok job)) :
      Attempts template rewards
        (Channel.addJob { channel with factory } template.templateId job, .ok ())

theorem attempts_newTemplate
    (template : TemplateDistribution.NewTemplate)
    (rewards : List Output) :
    Attempts channel template rewards (channel.newTemplate template rewards) := by
  unfold newTemplate
  split
  next factory failure made => exact .failed factory failure made
  next factory job made => exact .succeeded factory job made

/-- The exits of changing the extranonce. -/
inductive Restarts
    (extranoncePrefix : Bytes) :
    StandardChannel × Except ChannelError Unit → Prop
  | refused
      (other : extranoncePrefix.length ≠ extranonceSize) :
      Restarts extranoncePrefix (channel, .error .extranonceNotWhole)
  | restarted
      (whole : extranoncePrefix.length = extranonceSize) :
      Restarts extranoncePrefix ({ channel with extranoncePrefix }, .ok ())

theorem restarts_setExtranoncePrefix (extranoncePrefix : Bytes) :
    Restarts channel extranoncePrefix (channel.setExtranoncePrefix extranoncePrefix) := by
  unfold setExtranoncePrefix
  split
  next other => exact .refused other
  next whole => exact .restarted (Classical.not_not.mp whole)

/-- The exits of taking a job of a group. -/
inductive Receives
    (job : ExtendedJob) :
    StandardChannel × Except ChannelError Unit → Prop
  | refused
      (failure : ConversionError)
      (unconverted : job.toStandard channel.id channel.extranoncePrefix = .error failure) :
      Receives job (channel, .error (.conversion failure))
  | received
      (own : StandardJob)
      (converted : job.toStandard channel.id channel.extranoncePrefix = .ok own) :
      Receives job (channel.addJob own.template.templateId own, .ok ())

theorem receives_groupJob (job : ExtendedJob) :
    Receives channel job (channel.groupJob job) := by
  unfold groupJob
  split
  next failure unconverted => exact .refused failure unconverted
  next own converted => exact .received own converted

end StandardChannel

/-! ## Extended channels -/

namespace ExtendedChannel

variable (channel : ExtendedChannel)

/-- The exits of making a job from a template. -/
inductive Attempts
    (template : TemplateDistribution.NewTemplate)
    (rewards : List Output) :
    ExtendedChannel × Except ChannelError Unit → Prop
  | failed
      (factory : JobFactory)
      (failure : JobError)
      (made : channel.factory.templateJob channel.id channel.tip channel.extranoncePrefix template
        rewards = (factory, .error failure)) :
      Attempts template rewards ({ channel with factory }, .error (.ofJob failure))
  | succeeded
      (factory : JobFactory)
      (job : ExtendedJob)
      (made : channel.factory.templateJob channel.id channel.tip channel.extranoncePrefix template
        rewards = (factory, .ok job)) :
      Attempts template rewards
        (channel.withChannel
          (Channel.addJob { channel.toChannel with factory } template.templateId job), .ok ())

theorem attempts_newTemplate
    (template : TemplateDistribution.NewTemplate)
    (rewards : List Output) :
    channel.Attempts template rewards (channel.newTemplate template rewards) := by
  unfold newTemplate
  split
  next factory failure made => exact .failed factory failure made
  next factory job made => exact .succeeded factory job made

/-- The exits of making a job as the miner wishes. -/
inductive Grants
    (request : Mining.SetCustomMiningJob) :
    ExtendedChannel × Except ChannelError UInt32 → Prop
  | foreign
      (other : request.channelId ≠ channel.id) :
      Grants request (channel, .error .foreignJob)
  | failed
      (own : request.channelId = channel.id)
      (factory : JobFactory)
      (failure : JobError)
      (made : channel.factory.customJob request channel.extranoncePrefix =
        (factory, .error failure)) :
      Grants request ({ channel with factory }, .error (.ofJob failure))
  | succeeded
      (own : request.channelId = channel.id)
      (factory : JobFactory)
      (job : ExtendedJob)
      (made : channel.factory.customJob request channel.extranoncePrefix = (factory, .ok job)) :
      Grants request
        ({ channel with
            factory
            jobs :=
              if channel.movesTip (.ofCustomJob request) then
                (channel.jobs.addActive job).markPastStale
              else channel.jobs.addActive job
            shares :=
              if channel.movesTip (.ofCustomJob request) then channel.shares.flush
              else channel.shares
            tip := some (.ofCustomJob request) },
          .ok job.message.jobId)

theorem grants_setCustomJob (request : Mining.SetCustomMiningJob) :
    channel.Grants request (channel.setCustomJob request) := by
  unfold setCustomJob
  split
  next other => exact .foreign other
  next own =>
    split
    next factory failure made => exact .failed (Classical.not_not.mp own) factory failure made
    next factory job made => exact .succeeded (Classical.not_not.mp own) factory job made

/-- The exits of changing the start of the extranonces. -/
inductive Restarts
    (extranoncePrefix : Bytes) :
    ExtendedChannel × Except ChannelError Unit → Prop
  | tooLong
      (long : extranonceSize < extranoncePrefix.length) :
      Restarts extranoncePrefix (channel, .error .extranonceTooLong)
  | tooLittle
      (little : rollableBeside extranoncePrefix < channel.minRollableSize) :
      Restarts extranoncePrefix (channel, .error .extranonceTooLong)
  | restarted
      (fits : extranoncePrefix.length ≤ extranonceSize)
      (enough : channel.minRollableSize ≤ rollableBeside extranoncePrefix) :
      Restarts extranoncePrefix
        ({ channel with extranoncePrefix, rollableSize := rollableBeside extranoncePrefix },
          .ok ())

theorem restarts_setExtranoncePrefix (extranoncePrefix : Bytes) :
    channel.Restarts extranoncePrefix (channel.setExtranoncePrefix extranoncePrefix) := by
  unfold setExtranoncePrefix
  dsimp only
  split
  next long => exact .tooLong long
  next fits =>
    split
    next little => exact .tooLittle little
    next enough => exact .restarted (Nat.not_lt.mp fits) (UInt16.not_lt.mp enough)

end ExtendedChannel

/-! ## Groups -/

namespace GroupChannel

variable (group : GroupChannel)

/-- The exits of making a job to be handed to the members. -/
inductive Attempts
    (template : TemplateDistribution.NewTemplate)
    (rewards : List Output) :
    GroupChannel × Except ChannelError ExtendedJob → Prop
  | failed
      (factory : JobFactory)
      (failure : JobError)
      (made : group.factory.templateJob group.id group.tip [] template rewards =
        (factory, .error failure)) :
      Attempts template rewards ({ group with factory }, .error (.ofJob failure))
  | succeeded
      (factory : JobFactory)
      (job : ExtendedJob)
      (made : group.factory.templateJob group.id group.tip [] template rewards =
        (factory, .ok job)) :
      Attempts template rewards
        ({ group with
            factory
            jobs :=
              if Job.isFuture job then group.jobs.addFuture template.templateId job
              else group.jobs.addActive job },
          .ok job)

theorem attempts_newTemplate
    (template : TemplateDistribution.NewTemplate)
    (rewards : List Output) :
    group.Attempts template rewards (group.newTemplate template rewards) := by
  unfold newTemplate
  split
  next factory failure made => exact .failed factory failure made
  next factory job made => exact .succeeded factory job made

/-- The exits of announcing a block to a group. -/
inductive Announces
    (message : TemplateDistribution.SetNewPrevHash) :
    GroupChannel × Except ChannelError Unit → Prop
  | unknown
      (unknown : group.jobs.activate? message.templateId message.headerTimestamp = none) :
      Announces message (group, .error .unknownTemplate)
  | activated
      (jobs : JobStore ExtendedJob)
      (activated : group.jobs.activate? message.templateId message.headerTimestamp = some jobs) :
      Announces message ({ group with jobs, tip := some (.ofTemplate message) }, .ok ())

theorem announces_setNewPrevHash (message : TemplateDistribution.SetNewPrevHash) :
    group.Announces message (group.setNewPrevHash message) := by
  unfold setNewPrevHash
  split
  next unknown => exact .unknown unknown
  next jobs activated => exact .activated jobs activated

end GroupChannel

end MiningPool
