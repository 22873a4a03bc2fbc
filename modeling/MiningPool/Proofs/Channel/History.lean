import MiningPool.Proofs.Channel.Exits
import MiningPool.Proofs.Channel.Validation
import MiningPool.Proofs.Job.Factory
import MiningPool.Proofs.Job.Store

/-!
# Histories of extended channels

A history lists the operations on a channel, the latest first.  An operation that fails
is part of it like any other.  What an operation can do to the jobs, the chain tip and
the numbering of a channel is said once, and all that holds of histories follows from it.
-/

namespace MiningPool.ExtendedChannel

open MiningPool.Bitcoin MiningPool.Wire MiningPool.Message

/-- An operation on a channel. -/
inductive Operation
  | newTemplate (template : TemplateDistribution.NewTemplate) (rewards : List Output)
  | setNewPrevHash (message : TemplateDistribution.SetNewPrevHash)
  | setCustomJob (request : Mining.SetCustomMiningJob)
  | setTip (tip : ChainTip)
  | setExtranoncePrefix (extranoncePrefix : Bytes)
  | update (hashRate : Single) (maxTarget : Option Target)
  | validateShare (submitted : Mining.SubmitSharesExtended)

/-- The channel after an operation. -/
def after (channel : ExtendedChannel) : Operation → ExtendedChannel
  | .newTemplate template rewards => (channel.newTemplate template rewards).1
  | .setNewPrevHash message => (channel.setNewPrevHash message).1
  | .setCustomJob request => (channel.setCustomJob request).1
  | .setTip tip => channel.withChannel (channel.toChannel.setTip tip)
  | .setExtranoncePrefix extranoncePrefix => (channel.setExtranoncePrefix extranoncePrefix).1
  | .update hashRate maxTarget => (channel.update hashRate maxTarget).1
  | .validateShare submitted => (channel.validateShare submitted).1

/-- The channel after a history. -/
def run (channel : ExtendedChannel) : List Operation → ExtendedChannel
  | [] => channel
  | operation :: earlier => (channel.run earlier).after operation

/-- The job that an operation creates. -/
def created? (channel : ExtendedChannel) : Operation → Option ExtendedJob
  | .newTemplate template rewards =>
    (channel.factory.templateJob channel.id channel.tip channel.extranoncePrefix template
      rewards).2.toOption
  | .setCustomJob request =>
    if request.channelId ≠ channel.id then none
    else (channel.factory.customJob request channel.extranoncePrefix).2.toOption
  | _ => none

/-- A job that an operation creates comes from the factory. -/
theorem factory_of_created
    {channel : ExtendedChannel}
    {operation : Operation}
    {job : ExtendedJob}
    (created : channel.created? operation = some job) :
    (∃ template rewards factory, operation = .newTemplate template rewards ∧
      channel.factory.templateJob channel.id channel.tip channel.extranoncePrefix template rewards =
        (factory, .ok job)) ∨
    ∃ request factory, operation = .setCustomJob request ∧
      channel.factory.customJob request channel.extranoncePrefix = (factory, .ok job) := by
  cases operation with
  | newTemplate template rewards =>
    rcases made : channel.factory.templateJob channel.id channel.tip channel.extranoncePrefix
      template rewards with ⟨factory, failure | other⟩ <;>
    simp only [created?, made, Except.toOption] at created
    · cases created
    · cases created
      exact .inl ⟨template, rewards, factory, rfl, made⟩
  | setCustomJob request =>
    simp only [created?] at created
    split at created
    · cases created
    · rcases made : channel.factory.customJob request channel.extranoncePrefix with
        ⟨factory, failure | other⟩ <;>
      simp only [made, Except.toOption] at created
      · cases created
      · cases created
        exact .inr ⟨request, factory, rfl, made⟩
  | setNewPrevHash | setTip | setExtranoncePrefix | update | validateShare => cases created

/-- What an operation can do to the jobs, the chain tip and the factory of a channel. -/
inductive Change (channel : ExtendedChannel) : Operation → ExtendedChannel → Prop
  /-- Jobs and chain tip stay; an attempt to make a job may have taken up an id. -/
  | kept
      (operation : Operation)
      (later : ExtendedChannel)
      (nothing : channel.created? operation = none)
      (jobs : later.jobs = channel.jobs)
      (tip : later.tip = channel.tip)
      (factory : later.factory = channel.factory ∨ later.factory = channel.factory.advance) :
      Change channel operation later
  /-- The chain tip is set from outside. -/
  | tipped
      (tip : ChainTip)
      (later : ExtendedChannel)
      (jobs : later.jobs = channel.jobs)
      (tip_eq : later.tip = some tip)
      (factory : later.factory = channel.factory) :
      Change channel (.setTip tip) later
  /-- A job waits for the block of its template. -/
  | waiting
      (template : TemplateDistribution.NewTemplate)
      (rewards : List Output)
      (job : ExtendedJob)
      (later : ExtendedChannel)
      (created : channel.created? (.newTemplate template rewards) = some job)
      (future : template.futureTemplate = true)
      (makes : channel.factory.Makes later.factory (.template template) none job)
      (jobs : later.jobs = channel.jobs.addFuture template.templateId job)
      (tip : later.tip = channel.tip) :
      Change channel (.newTemplate template rewards) later
  /-- A job of a template becomes active on the chain tip. -/
  | running
      (template : TemplateDistribution.NewTemplate)
      (rewards : List Output)
      (job : ExtendedJob)
      (tip : ChainTip)
      (later : ExtendedChannel)
      (created : channel.created? (.newTemplate template rewards) = some job)
      (current : template.futureTemplate = false)
      (makes : channel.factory.Makes later.factory (.template template) (some tip.minNtime) job)
      (jobs : later.jobs = channel.jobs.addActive job)
      (known : channel.tip = some tip)
      (tip_eq : later.tip = channel.tip) :
      Change channel (.newTemplate template rewards) later
  /-- A job of the miner's own becomes active and brings its chain tip. -/
  | custom
      (request : Mining.SetCustomMiningJob)
      (job : ExtendedJob)
      (later : ExtendedChannel)
      (created : channel.created? (.setCustomJob request) = some job)
      (makes : channel.factory.Makes later.factory (.custom request) (some request.minNtime) job)
      (jobs : later.jobs =
        if channel.movesTip (.ofCustomJob request) then
          (channel.jobs.addActive job).markPastStale
        else channel.jobs.addActive job)
      (tip : later.tip = some (.ofCustomJob request)) :
      Change channel (.setCustomJob request) later
  /-- A job that waited becomes active on a new chain tip. -/
  | activated
      (message : TemplateDistribution.SetNewPrevHash)
      (later : ExtendedChannel)
      (jobs : channel.jobs.activate? message.templateId message.headerTimestamp = some later.jobs)
      (tip : later.tip = some (.ofTemplate message))
      (factory : later.factory = channel.factory) :
      Change channel (.setNewPrevHash message) later

theorem change_newTemplate
    (channel : ExtendedChannel)
    (template : TemplateDistribution.NewTemplate)
    (rewards : List Output) :
    Change channel (.newTemplate template rewards)
      (channel.after (.newTemplate template rewards)) := by
  have exits := channel.attempts_newTemplate template rewards
  rw [after]
  generalize channel.newTemplate template rewards = outcome at exits ⊢
  cases exits with
  | failed factory failure made =>
    refine .kept _ _ ?_ rfl rfl ?_
    · simp only [created?, made, Except.toOption]
    · exact (JobFactory.templateJob_error _ _ _ _ _ _ _ _ made).imp_right And.left
  | succeeded factory job made =>
    have created : channel.created? (.newTemplate template rewards) = some job := by
      simp only [created?, made, Except.toOption]
    obtain ⟨time, bound, makes⟩ := JobFactory.templateJob_ok _ _ _ _ _ _ _ _ made
    have waits : Job.isFuture job = time.isNone := by
      rw [Job.isFuture, makes.minNtime_eq]
    rcases JobFactory.minNtime_ok _ _ _ bound with ⟨future, rfl⟩ | ⟨current, tip, known, rfl⟩
    · refine .waiting template rewards job _ created future makes ?_ rfl
      simp only [withChannel, Channel.addJob, waits, Option.isNone_none, if_true]
    · refine .running template rewards job tip _ created current makes ?_ known rfl
      simp [withChannel, Channel.addJob, waits]

theorem change_setCustomJob
    (channel : ExtendedChannel)
    (request : Mining.SetCustomMiningJob) :
    Change channel (.setCustomJob request) (channel.after (.setCustomJob request)) := by
  have exits := channel.grants_setCustomJob request
  rw [after]
  generalize channel.setCustomJob request = outcome at exits ⊢
  cases exits with
  | foreign other => exact .kept _ _ (if_pos other) rfl rfl (.inl rfl)
  | failed own factory failure made =>
    refine .kept _ _ ?_ rfl rfl ?_
    · simp only [created?, if_neg (not_not_intro own), made, Except.toOption]
    · exact (JobFactory.customJob_error _ _ _ _ _ made).imp_right And.left
  | succeeded own factory job made =>
    refine .custom request job _ ?_ (JobFactory.customJob_ok _ _ _ _ _ made) rfl rfl
    simp only [created?, if_neg (not_not_intro own), made, Except.toOption]

theorem change_setNewPrevHash
    (channel : ExtendedChannel)
    (message : TemplateDistribution.SetNewPrevHash) :
    Change channel (.setNewPrevHash message) (channel.after (.setNewPrevHash message)) := by
  have exits := channel.announces_setNewPrevHash message
  rw [after, setNewPrevHash]
  generalize channel.toChannel.setNewPrevHash message = outcome at exits ⊢
  cases exits with
  | unknown => exact .kept _ _ rfl rfl rfl (.inl rfl)
  | activated jobs activated => exact .activated message _ activated rfl rfl

theorem change_after
    (channel : ExtendedChannel)
    (operation : Operation) :
    Change channel operation (channel.after operation) := by
  cases operation with
  | newTemplate template rewards => exact change_newTemplate channel template rewards
  | setNewPrevHash message => exact change_setNewPrevHash channel message
  | setCustomJob request => exact change_setCustomJob channel request
  | setTip tip => exact .tipped tip _ rfl rfl rfl
  | setExtranoncePrefix extranoncePrefix =>
    have exits := channel.restarts_setExtranoncePrefix extranoncePrefix
    rw [after]
    generalize channel.setExtranoncePrefix extranoncePrefix = outcome at exits ⊢
    cases exits <;> exact .kept _ _ rfl rfl rfl (.inl rfl)
  | update hashRate maxTarget =>
    have exits := channel.retargets_update hashRate maxTarget
    rw [after, update]
    generalize channel.toChannel.update hashRate maxTarget = outcome at exits ⊢
    cases exits <;> exact .kept _ _ rfl rfl rfl (.inl rfl)
  | validateShare submitted =>
    have validates := channel.validates_validateShare submitted
    rw [after]
    generalize channel.validateShare submitted = result at validates ⊢
    cases validates
    case refused => exact .kept _ _ rfl rfl rfl (.inl rfl)
    case judged =>
      obtain ⟨shares, judged⟩ := channel.judgement_fst submitted _ _ _
      rw [judged]
      exact .kept _ _ rfl rfl rfl (.inl rfl)

/-! ## Ids -/

/-- The ids that the attempts of a history to make jobs took up. -/
def idsTaken (channel : ExtendedChannel) : List Operation → Nat
  | [] => 0
  | operation :: earlier =>
    channel.idsTaken earlier +
      if (channel.run (operation :: earlier)).factory.lastId =
          (channel.run earlier).factory.lastId then 0
      else 1

theorem idsTaken_le (channel : ExtendedChannel) (operation : Operation) (earlier : List Operation) :
    channel.idsTaken earlier ≤ channel.idsTaken (operation :: earlier) :=
  Nat.le_add_right _ _

theorem idsTaken_append
    (channel : ExtendedChannel)
    (later earlier : List Operation) :
    channel.idsTaken earlier ≤ channel.idsTaken (later ++ earlier) := by
  induction later with
  | nil => exact Nat.le_refl _
  | cons operation later ih => exact Nat.le_trans ih (channel.idsTaken_le operation _)

/-- The factory keeps its last id or takes up the next one. -/
theorem Change.factory
    {channel later : ExtendedChannel}
    {operation : Operation}
    (change : Change channel operation later) :
    later.factory = channel.factory ∨ later.factory = channel.factory.advance := by
  cases change with
  | kept _ _ nothing jobs tip factory => exact factory
  | tipped tip _ jobs tip_eq factory => exact .inl factory
  | waiting template rewards job _ created future makes => exact .inr makes.later_eq
  | running template rewards job tip _ created current makes => exact .inr makes.later_eq
  | custom request job _ created makes => exact .inr makes.later_eq
  | activated message _ jobs tip factory => exact .inl factory

end MiningPool.ExtendedChannel
