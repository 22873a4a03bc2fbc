import MiningPool.Proofs.Channel.Course
import MiningPool.Proofs.Job.Factory

/-!
# Refused operations

An operation that is refused leaves a channel as it was, whatever its kind and whatever
state it is in: its jobs, its chain tip, its targets and hash rate, the start of its
extranonces and all that is remembered of shares.  Only one thing can be lost.  An extended
job is numbered before its halves are put into a message, so when they are too long for
it the id is not given again.
-/

namespace MiningPool

/-- A job that failed because its halves are too long is reported as such. -/
theorem ChannelError.ofJob_of_tooLong
    {failure : JobError}
    (long : JobFactory.TooLong failure) :
    ofJob failure = .job failure := by
  rcases long with rfl | rfl <;> rfl

open MiningPool.Bitcoin MiningPool.Wire MiningPool.Message

/-! ## Channels of one kind -/

/-- A change of a channel that fails leaves it as it was. -/
def KeptOnFailure {C : Type} (channel : C) (outcome : C × Except ChannelError Unit) : Prop :=
  ∀ failure, outcome.2 = .error failure → outcome.1 = channel

namespace KeptOnFailure

variable {C : Type} {channel : C}

theorem of_error (failure : ChannelError) : KeptOnFailure channel (channel, .error failure) :=
  fun _ _ => rfl

theorem of_ok (later : C) : KeptOnFailure channel (later, .ok ()) :=
  nofun

/-- What an extended channel has in common with others is kept, and so is the channel. -/
theorem withChannel
    {channel : ExtendedChannel}
    {outcome : Channel ExtendedJob × Except ChannelError Unit}
    (kept : KeptOnFailure channel.toChannel outcome) :
    KeptOnFailure channel (channel.withChannel outcome.1, outcome.2) := by
  intro failure failed
  exact congrArg channel.withChannel (kept failure failed)

/-- A channel is kept whatever its refusal is reported as. -/
theorem of_mapError
    {outcome : C × Except ChannelError Unit}
    (kept : KeptOnFailure channel outcome)
    {reword : ChannelError → Refusal}
    {refusal : Refusal}
    (refused : outcome.2.mapError reword = .error refusal) :
    outcome.1 = channel := by
  cases result : outcome.2 with
  | error failure => exact kept failure result
  | ok =>
    rw [result] at refused
    cases refused

end KeptOnFailure

namespace Channel

variable {J : Type} {channel : Channel J}

theorem Announces.keptOnFailure
    [Job J]
    {message : TemplateDistribution.SetNewPrevHash}
    {outcome : Channel J × Except ChannelError Unit}
    (exits : channel.Announces message outcome) :
    KeptOnFailure channel outcome := by
  cases exits with
  | unknown => exact .of_error _
  | activated => exact .of_ok _

theorem Retargets.keptOnFailure
    {hashRate : Single}
    {maxTarget : Option Target}
    {outcome : Channel J × Except ChannelError Unit}
    (exits : channel.Retargets hashRate maxTarget outcome) :
    KeptOnFailure channel outcome := by
  cases exits with
  | refused failure => exact .of_error failure
  | retargeted => exact .of_ok _

end Channel

namespace StandardChannel

variable {channel : StandardChannel} {outcome : StandardChannel × Except ChannelError Unit}

theorem Restarts.keptOnFailure
    {extranoncePrefix : Bytes}
    (exits : Restarts channel extranoncePrefix outcome) :
    KeptOnFailure channel outcome := by
  cases exits with
  | refused => exact .of_error _
  | restarted => exact .of_ok _

theorem Receives.keptOnFailure
    {job : ExtendedJob}
    (exits : Receives channel job outcome) :
    KeptOnFailure channel outcome := by
  cases exits with
  | refused failure => exact .of_error _
  | received => exact .of_ok _

end StandardChannel

theorem ExtendedChannel.Restarts.keptOnFailure
    {channel : ExtendedChannel}
    {outcome : ExtendedChannel × Except ChannelError Unit}
    {extranoncePrefix : Bytes}
    (exits : channel.Restarts extranoncePrefix outcome) :
    KeptOnFailure channel outcome := by
  cases exits with
  | tooLong | tooLittle => exact .of_error _
  | restarted => exact .of_ok _

theorem GroupChannel.Announces.keptOnFailure
    {group : GroupChannel}
    {message : TemplateDistribution.SetNewPrevHash}
    {outcome : GroupChannel × Except ChannelError Unit}
    (exits : group.Announces message outcome) :
    KeptOnFailure group outcome := by
  cases exits with
  | unknown => exact .of_error _
  | activated => exact .of_ok _

/-! ## Channels of any kind -/

namespace AnyChannel

/-- What makes the jobs of the channel. -/
def factory : AnyChannel → JobFactory
  | standard channel => channel.factory
  | extended channel => channel.factory
  | group channel => channel.factory

/-- The channel with another factory, and everything else as it is. -/
def withFactory (channel : AnyChannel) (factory : JobFactory) : AnyChannel :=
  match channel with
  | standard channel => standard { channel with factory }
  | extended channel => extended { channel with factory }
  | group channel => group { channel with factory }

theorem withFactory_self (channel : AnyChannel) :
    channel.withFactory channel.factory = channel := by
  cases channel <;> rfl

/-- An operation is refused; a chain tip can always be set. -/
def Refuses (channel : AnyChannel) (refusal : Refusal) : Operation → Prop
  | .newTemplate template rewards => (channel.newTemplate template rewards).2 = .error refusal
  | .groupJob job => (channel.groupJob job).2 = .error refusal
  | .setNewPrevHash message => (channel.setNewPrevHash message).2 = .error refusal
  | .setCustomJob request => (channel.setCustomJob request).2 = .error refusal
  | .setTip _ => False
  | .setExtranoncePrefix extranoncePrefix =>
    (channel.setExtranoncePrefix extranoncePrefix).2 = .error refusal
  | .update hashRate maxTarget => (channel.update hashRate maxTarget).2 = .error refusal
  | .validateShare submission => (channel.validateShare submission).2 = .error refusal

/-- An extended job was refused because its halves are too long for its message. -/
def RefusesLength (refusal : Refusal) : Prop :=
  ∃ failure, JobFactory.TooLong failure ∧
    (refusal = .extended (.job failure) ∨ refusal = .group (.job failure))

/-- What a refused operation can leave of a channel. -/
def Leaves (channel : AnyChannel) (refusal : Refusal) (later : AnyChannel) : Prop :=
  later = channel ∨
    RefusesLength refusal ∧ later = channel.withFactory channel.factory.advance

/-! ## Jobs that are not made -/

section Jobs

variable
  (channel : AnyChannel)
  (refusal : Refusal)

/-- A channel whose factory failed to make an extended job. -/
theorem leaves_of_failure
    {later : JobFactory}
    {failure : JobError}
    (factories : later = channel.factory ∨
      later = channel.factory.advance ∧ JobFactory.TooLong failure)
    (reported : refusal = .extended (.ofJob failure) ∨ refusal = .group (.ofJob failure)) :
    channel.Leaves refusal (channel.withFactory later) := by
  rcases factories with rfl | ⟨rfl, long⟩
  · exact .inl channel.withFactory_self
  · rw [ChannelError.ofJob_of_tooLong long] at reported
    exact .inr ⟨⟨failure, long, reported⟩, rfl⟩

theorem leaves_newTemplate
    (template : TemplateDistribution.NewTemplate)
    (rewards : List Output)
    (refused : (channel.newTemplate template rewards).2 = .error refusal) :
    channel.Leaves refusal (channel.newTemplate template rewards).1 := by
  cases channel with
  | standard channel =>
    have exits := StandardChannel.attempts_newTemplate channel template rewards
    rw [newTemplate] at refused ⊢
    generalize StandardChannel.newTemplate channel template rewards = outcome at exits refused ⊢
    cases exits with
    | failed factory failure made =>
      obtain rfl := JobFactory.standardJob_error _ _ _ _ _ _ _ _ made
      exact .inl rfl
    | succeeded => cases refused
  | extended channel =>
    have exits := channel.attempts_newTemplate template rewards
    rw [newTemplate] at refused ⊢
    generalize channel.newTemplate template rewards = outcome at exits refused ⊢
    cases exits with
    | failed factory failure made =>
      cases refused
      exact leaves_of_failure (extended channel) _
        (JobFactory.templateJob_error _ _ _ _ _ _ _ _ made) (.inl rfl)
    | succeeded => cases refused
  | group channel =>
    have exits := channel.attempts_newTemplate template rewards
    rw [newTemplate] at refused ⊢
    generalize channel.newTemplate template rewards = outcome at exits refused ⊢
    cases exits with
    | failed factory failure made =>
      cases refused
      exact leaves_of_failure (group channel) _
        (JobFactory.templateJob_error _ _ _ _ _ _ _ _ made) (.inr rfl)
    | succeeded => cases refused

theorem leaves_setCustomJob
    (request : Mining.SetCustomMiningJob)
    (refused : (channel.setCustomJob request).2 = .error refusal) :
    channel.Leaves refusal (channel.setCustomJob request).1 := by
  cases channel with
  | standard | group => exact .inl rfl
  | extended channel =>
    have exits := channel.grants_setCustomJob request
    rw [setCustomJob] at refused ⊢
    generalize channel.setCustomJob request = outcome at exits refused ⊢
    cases exits with
    | foreign => exact .inl rfl
    | failed own factory failure made =>
      cases refused
      exact leaves_of_failure (extended channel) _
        (JobFactory.customJob_error _ _ _ _ _ made) (.inl rfl)
    | succeeded => cases refused

end Jobs

/--
Whatever operation is refused, and for whatever reason, the channel is as it was; only the
last id of its jobs may have moved on, and only when an extended job came out too long.
-/
theorem after_refused
    (channel : AnyChannel)
    (operation : Operation)
    (refusal : Refusal)
    (refused : channel.Refuses refusal operation) :
    channel.after operation = channel ∨
      RefusesLength refusal ∧
        channel.after operation = channel.withFactory channel.factory.advance := by
  cases operation with
  | newTemplate template rewards =>
    exact channel.leaves_newTemplate refusal template rewards refused
  | setCustomJob request => exact channel.leaves_setCustomJob refusal request refused
  | setTip => exact refused.elim
  | validateShare submission =>
    exact .inl (channel.validateShare_of_rejected submission refusal refused)
  | groupJob job =>
    cases channel with
    | standard channel =>
      have kept := (StandardChannel.receives_groupJob channel job).keptOnFailure
      exact .inl (congrArg standard (kept.of_mapError refused))
    | extended | group => exact .inl rfl
  | setNewPrevHash message =>
    cases channel with
    | standard channel =>
      have kept := (Channel.announces_setNewPrevHash channel message).keptOnFailure
      exact .inl (congrArg standard (kept.of_mapError refused))
    | extended channel =>
      have kept := (channel.toChannel.announces_setNewPrevHash message).keptOnFailure
      exact .inl (congrArg extended (kept.withChannel.of_mapError refused))
    | group channel =>
      have kept := (channel.announces_setNewPrevHash message).keptOnFailure
      exact .inl (congrArg group (kept.of_mapError refused))
  | setExtranoncePrefix extranoncePrefix =>
    cases channel with
    | standard channel =>
      have exits := StandardChannel.restarts_setExtranoncePrefix channel extranoncePrefix
      exact .inl (congrArg standard (exits.keptOnFailure.of_mapError refused))
    | extended channel =>
      have exits := channel.restarts_setExtranoncePrefix extranoncePrefix
      exact .inl (congrArg extended (exits.keptOnFailure.of_mapError refused))
    | group => exact .inl rfl
  | update hashRate maxTarget =>
    cases channel with
    | standard channel =>
      have kept := (Channel.retargets_update channel hashRate maxTarget).keptOnFailure
      exact .inl (congrArg standard (kept.of_mapError refused))
    | extended channel =>
      have kept := (channel.toChannel.retargets_update hashRate maxTarget).keptOnFailure
      exact .inl (congrArg extended (kept.withChannel.of_mapError refused))
    | group => exact .inl rfl

/-- A share is credited and sent again under another number. -/
theorem after_refused_duplicate :
    ∃ opened, Opened opened ∧
      let channel := (opened.run easyCourse).after (.validateShare (easyShare 1 1 1))
      channel.Refuses ((easyShare 2 1 1).refusal .duplicate) (.validateShare (easyShare 2 1 1)) ∧
        channel.after (.validateShare (easyShare 2 1 1)) = channel := by
  obtain ⟨opened, shares, coinbase, opens, easy⟩ := exists_onEasyChain
  obtain ⟨later, done, counted⟩ := easy.counts shares 1 1 easyHash_nonces.2.1 (easy.unseen _)
  have ordinary : ¬ (easyCandidate coinbase 2 1).IsBlock := by
    rw [Candidate.IsBlock, hash_easyCandidate]
    exact easyHash_nonces.2.1
  have seen : later.hasSeen (easyCandidate coinbase 2 1).hash.value = true := by
    rw [hash_easyCandidate, counted.seen, beq_self_eq_true, Bool.true_or]
  have again := validateShare_of_seen (easy.examined later 2 1)
    (accounting?_withShares _ shares later easy.remembered)
    ((target?_withShares _ later).trans easy.aimed) ordinary seen
  have within : ¬ Target.easiest < (easyCandidate coinbase 2 1).hash :=
    Nat.not_lt.mpr (Nat.le_sub_one_of_lt (Target.isLt _))
  rw [if_neg within] at again
  rw [easy.start] at done
  have reached : (opened.run easyCourse).after (.validateShare (easyShare 1 1 1)) =
      (opened.run easyCourse).withShares later :=
    congrArg Prod.fst done
  refine ⟨opened, opens, ?_⟩
  dsimp only
  rw [reached]
  refine ⟨congrArg Prod.snd again, ?_⟩
  rcases after_refused _ (.validateShare (easyShare 2 1 1)) _ (congrArg Prod.snd again) with
    same | ⟨⟨failure, -, ofExtended | ofGroup⟩, -⟩
  · exact same
  · cases ofExtended
  · cases ofGroup

end AnyChannel

end MiningPool
