import MiningPool.Channel.Extended
import MiningPool.Channel.Standard
import MiningPool.Proofs.Extranonce.Allocation
import MiningPool.Proofs.Number.Widening

/-!
# Opening channels

A channel is opened at the request of a miner, under a policy that was checked and with the
next start of an extranonce.  The start is taken after all that can speak against the
request was looked at.  A new channel looks at most of it once more, in other words, and
finds nothing: a start is taken exactly when the channel is opened.
-/

namespace MiningPool

open MiningPool.Wire MiningPool.Message

/-! ## Policies -/

/-- What is known of a policy that was checked. -/
structure Policy.Sound (policy : Policy) : Prop where
  rate : Number.Format.single.isPositiveFinite policy.sharesPerMinute.bits.toNat = true
  batchSize : 0 < policy.batchSize
  tag : (JobFactory.start true policy.poolTag).fitsScript = true
  payoutScript : policy.payoutScript ≠ []

theorem Policy.sound_of_checked
    (settings : Settings)
    (policy : Policy)
    (checked : ofSettings settings = .ok policy) :
    policy.Sound := by
  unfold ofSettings at checked
  split at checked
  · cases checked
  next rate =>
    split at checked
    · cases checked
    next batch =>
      split at checked
      · cases checked
      next tag =>
        split at checked
        · cases checked
        · cases checked
        next script empty _ =>
          cases checked
          exact ⟨by simpa using rate, Nat.pos_of_ne_zero batch, by simpa [poolTag] using tag, empty⟩

/-- Whether miners may roll the version makes no difference to the script. -/
theorem JobFactory.fitsScript_start (versionRolling : Bool) (tag : Option String) :
    (start versionRolling tag).fitsScript = (start true tag).fitsScript :=
  rfl

namespace Channel

/-! ## Targets -/

/-- A checked rate of shares never stands in the way of a target. -/
theorem targetFor_of_rate
    (hashRate sharesPerMinute : Single)
    (rate : Number.Format.single.isPositiveFinite sharesPerMinute.bits.toNat = true) :
    Number.Format.single.isPositiveFinite hashRate.bits.toNat = false ∧
        targetFor hashRate sharesPerMinute = .error .invalidHashRate ∨
      ∃ target, targetFor hashRate sharesPerMinute = .ok target := by
  rw [targetFor, Target.ofHashRate, Number.isRate_doubleOfSingle, Number.isRate_doubleOfSingle,
    rate]
  cases Number.Format.single.isPositiveFinite hashRate.bits.toNat with
  | true => exact .inr ⟨_, rfl⟩
  | false => exact .inl ⟨rfl, rfl⟩

/-! ## Requests -/

/-- What a miner asks for when it opens a channel, of whichever kind. -/
structure Request where
  userIdentity : Option String
  hashRate : Single
  maxTarget : Target
  /-- The least number of bytes it wants to roll. -/
  minimum : Nat

/-- What a request for an extended channel asks for. -/
def Request.ofExtended (request : Mining.OpenExtendedMiningChannel) : Request where
  userIdentity := request.userIdentity.text?
  hashRate := request.nominalHashRate
  maxTarget := .ofBlob request.maxTarget
  minimum := request.minExtranonceSize.toNat

/-- What a request for a standard channel asks for; its miner rolls nothing. -/
def Request.ofStandard (request : Mining.OpenStandardMiningChannel) : Request where
  userIdentity := request.userIdentity.text?
  hashRate := request.nominalHashRate
  maxTarget := .ofBlob request.maxTarget
  minimum := 0

/-- Check a request, take a start and create a channel with it. -/
def openWith
    {C : Type}
    (request : Request)
    (allocator : ExtranonceAllocator)
    (policy : Policy)
    (report : ExtranonceError → ChannelError)
    (create : String → Bytes → Except ChannelError C) :
    ExtranonceAllocator × Except ChannelError C :=
  match request.userIdentity with
  | none => (allocator, .error .notCreated)
  | some userIdentity =>
    match openingTarget request.hashRate policy.sharesPerMinute request.maxTarget with
    | .error failure => (allocator, .error failure)
    | .ok _ =>
      match allocator.next request.minimum with
      | (allocator, .error failure) => (allocator, .error (report failure))
      | (allocator, .ok start) => (allocator, create userIdentity start)

/-- What a request comes to: a channel with the next start, or no channel and no start. -/
inductive Opens
    {C : Type}
    (request : Request)
    (allocator : ExtranonceAllocator)
    (policy : Policy)
    (report : ExtranonceError → ChannelError)
    (Grants : String → Target → Bytes → C → Prop) :
    ExtranonceAllocator × Except ChannelError C → Prop
  | unnamed (unreadable : request.userIdentity = none) :
      Opens request allocator policy report Grants (allocator, .error .notCreated)
  | unrated
      (rateless :
        Number.Format.single.isPositiveFinite request.hashRate.bits.toNat = false) :
      Opens request allocator policy report Grants (allocator, .error .invalidHashRate)
  | unmet
      (target : Target)
      (aimed : targetFor request.hashRate policy.sharesPerMinute = .ok target)
      (above : request.maxTarget < target) :
      Opens request allocator policy report Grants (allocator, .error .maxTargetOutOfRange)
  | unstarted
      (failure : ExtranonceError)
      (failed : allocator.next request.minimum = (allocator, .error failure)) :
      Opens request allocator policy report Grants (allocator, .error (report failure))
  | granted
      (userIdentity : String)
      (target : Target)
      (channel : C)
      (named : request.userIdentity = some userIdentity)
      (aimed : targetFor request.hashRate policy.sharesPerMinute = .ok target)
      (met : ¬ request.maxTarget < target)
      (rolls : request.minimum ≤ allocator.allocation)
      (room : allocator.HasRoom (allocator.counter + 1))
      (known : Grants userIdentity target (allocator.startOf (allocator.counter + 1)) channel) :
      Opens request allocator policy report Grants
        ({ allocator with counter := allocator.counter + 1 }, .ok channel)

section Open

variable
  {C : Type}
  {request : Request}
  {allocator : ExtranonceAllocator}
  {policy : Policy}
  {report : ExtranonceError → ChannelError}
  {Grants : String → Target → Bytes → C → Prop}

/-- When no start that is taken can make the creation fail, no start is taken in vain. -/
theorem opens_openWith
    (sound : policy.Sound)
    (create : String → Bytes → Except ChannelError C)
    (creates : ∀ userIdentity target start,
      openingTarget request.hashRate policy.sharesPerMinute request.maxTarget = .ok target →
      request.minimum ≤ allocator.allocation →
      start.length = extranonceSize - allocator.allocation →
      ∃ channel, create userIdentity start = .ok channel ∧
        Grants userIdentity target start channel) :
    Opens request allocator policy report Grants
      (openWith request allocator policy report create) := by
  unfold openWith
  cases named : request.userIdentity with
  | none => exact .unnamed named
  | some userIdentity =>
    dsimp only
    rcases targetFor_of_rate request.hashRate policy.sharesPerMinute sound.rate with
      ⟨rateless, failed⟩ | ⟨target, aimed⟩
    · rw [openingTarget, failed]
      exact .unrated rateless
    · by_cases above : request.maxTarget < target
      · rw [openingTarget, aimed]
        dsimp only
        rw [if_pos above]
        exact .unmet target aimed above
      · have opening : openingTarget request.hashRate policy.sharesPerMinute request.maxTarget =
            .ok target := by
          rw [openingTarget, aimed]
          exact if_neg above
        have answers := allocator.answers_next request.minimum
        rw [opening]
        dsimp only
        generalize answered : allocator.next request.minimum = answer at answers
        cases answers with
        | refused tooLarge => exact .unstarted _ answered
        | exhausted rolls full => exact .unstarted _ answered
        | handed rolls room =>
          obtain ⟨channel, created, known⟩ := creates userIdentity target _ opening rolls
            (allocator.isStart_startOf _ room).length
          dsimp only
          rw [created]
          exact .granted userIdentity target channel named aimed above rolls room known

/-- The counter counts the channels that are opened. -/
theorem Opens.counter_eq
    {outcome : ExtranonceAllocator × Except ChannelError C}
    (opens : Opens request allocator policy report Grants outcome) :
    outcome.1.counter = allocator.counter + if outcome.2.isOk then 1 else 0 := by
  cases opens <;> rfl

end Open

/-- A channel has the name, the target and the start that it was opened with. -/
structure Granted
    {J : Type}
    (userIdentity : String)
    (target : Target)
    (start : Bytes)
    (channel : Channel J) :
    Prop where
  userIdentity_eq : channel.userIdentity = userIdentity
  target_eq : channel.target = target
  extranoncePrefix_eq : channel.extranoncePrefix = start

end Channel

/-! ## Extended channels -/

namespace ExtendedChannel

/-- All that the start leaves of an extranonce is rolled by the miner, and it is enough. -/
structure Granted
    (minimum : UInt16)
    (userIdentity : String)
    (target : Target)
    (start : Bytes)
    (channel : ExtendedChannel) :
    Prop
    extends Channel.Granted userIdentity target start channel.toChannel where
  whole : start.length + channel.rollableSize.toNat = extranonceSize
  rolls : minimum ≤ channel.rollableSize

theorem create_of_room
    (opening : Channel.Opening)
    (versionRolling : Bool)
    (minimum : UInt16)
    (target : Target)
    (aimed : Channel.openingTarget opening.hashRate opening.sharesPerMinute opening.maxTarget =
      .ok target)
    (fits : (JobFactory.start true opening.tag).fitsScript = true)
    (room : opening.extranoncePrefix.length + minimum.toNat ≤ extranonceSize) :
    ∃ channel, create opening versionRolling minimum = .ok channel ∧
      Granted minimum opening.userIdentity target opening.extranoncePrefix channel := by
  have size : extranonceSize = 32 := rfl
  have rollable : (rollableBeside opening.extranoncePrefix).toNat =
      extranonceSize - opening.extranoncePrefix.length := by
    rw [rollableBeside, UInt16.toNat_ofNat']
    exact Nat.mod_eq_of_lt (by omega)
  have rolls : minimum ≤ rollableBeside opening.extranoncePrefix := by
    rw [UInt16.le_iff_toNat_le, rollable]
    omega
  have short : ¬ extranonceSize < opening.extranoncePrefix.length := by omega
  rw [create, aimed]
  simp only [JobFactory.fitsScript_start, fits, if_neg short, if_neg (UInt16.not_lt.mpr rolls)]
  exact ⟨_, rfl, ⟨rfl, rfl, rfl⟩, by rw [rollable]; omega, rolls⟩

theorem opens_openFor
    (id : UInt32)
    (request : Mining.OpenExtendedMiningChannel)
    (allocator : ExtranonceAllocator)
    (policy : Policy)
    (sound : policy.Sound) :
    Channel.Opens (.ofExtended request) allocator policy .ofExtranonce
      (Granted request.minExtranonceSize) (openFor id request allocator policy) := by
  refine Channel.opens_openWith sound
    (fun userIdentity extranoncePrefix => create
      { id
        userIdentity
        extranoncePrefix
        maxTarget := .ofBlob request.maxTarget
        hashRate := request.nominalHashRate
        batchSize := policy.batchSize
        sharesPerMinute := policy.sharesPerMinute
        tag := policy.poolTag }
      policy.versionRolling request.minExtranonceSize) ?_
  intro userIdentity target start aimed rolls length
  have roomy := allocator.roomy
  refine create_of_room _ _ _ target aimed sound.tag ?_
  change start.length + request.minExtranonceSize.toNat ≤ extranonceSize
  change request.minExtranonceSize.toNat ≤ allocator.allocation at rolls
  omega

end ExtendedChannel

/-! ## Standard channels -/

namespace StandardChannel

/-- The start is a whole extranonce. -/
structure Granted
    (userIdentity : String)
    (target : Target)
    (start : Bytes)
    (channel : StandardChannel) :
    Prop
    extends Channel.Granted userIdentity target start channel where
  whole : start.length = extranonceSize

theorem create_of_whole
    (opening : Channel.Opening)
    (target : Target)
    (aimed : Channel.openingTarget opening.hashRate opening.sharesPerMinute opening.maxTarget =
      .ok target)
    (fits : (JobFactory.start true opening.tag).fitsScript = true)
    (whole : opening.extranoncePrefix.length = extranonceSize) :
    ∃ channel, create opening = .ok channel ∧
      Granted opening.userIdentity target opening.extranoncePrefix channel := by
  rw [create, aimed]
  simp only [fits, whole]
  exact ⟨_, rfl, ⟨rfl, rfl, rfl⟩, whole⟩

/-- An allocator of whole extranonces leaves nothing to miners. -/
theorem opens_openFor
    (id : UInt32)
    (request : Mining.OpenStandardMiningChannel)
    (allocator : ExtranonceAllocator)
    (whole : allocator.allocation = 0)
    (policy : Policy)
    (sound : policy.Sound) :
    Channel.Opens (.ofStandard request) allocator policy .extranonce Granted
      (openFor id request allocator policy) := by
  refine Channel.opens_openWith sound
    (fun userIdentity extranoncePrefix => create
      { id
        userIdentity
        extranoncePrefix
        maxTarget := .ofBlob request.maxTarget
        hashRate := request.nominalHashRate
        batchSize := policy.batchSize
        sharesPerMinute := policy.sharesPerMinute
        tag := policy.poolTag }) ?_
  intro userIdentity target start aimed rolls length
  rw [whole] at length
  exact create_of_whole _ target aimed sound.tag length

end StandardChannel

namespace Channel

/--
Under a policy that was checked, a request takes a start exactly when its channel is opened:
then the counter of the allocator moves by one, and else nothing changes.  A request is
refused because its name is no text, its hash rate is not a number above zero, the target for
it is above the greatest one that the miner accepts, or there is no start for it, and for
nothing else; the rate of shares and the tag of the policy never stand in the way.  An extended
channel leaves as many bytes to the miner as it wants to roll.
-/
theorem start_taken_iff_opened
    (settings : Settings)
    (policy : Policy)
    (checked : Policy.ofSettings settings = .ok policy)
    (id : UInt32) :
    (∀ (request : Mining.OpenExtendedMiningChannel) (allocator : ExtranonceAllocator),
      let outcome := ExtendedChannel.openFor id request allocator policy
      Opens (.ofExtended request) allocator policy .ofExtranonce
          (ExtendedChannel.Granted request.minExtranonceSize) outcome ∧
        outcome.1.counter = allocator.counter + if outcome.2.isOk then 1 else 0) ∧
    ∀ (request : Mining.OpenStandardMiningChannel) (allocator : ExtranonceAllocator),
      allocator.allocation = 0 →
      let outcome := StandardChannel.openFor id request allocator policy
      Opens (.ofStandard request) allocator policy .extranonce StandardChannel.Granted outcome ∧
        outcome.1.counter = allocator.counter + if outcome.2.isOk then 1 else 0 := by
  have sound := Policy.sound_of_checked settings policy checked
  constructor
  · intro request allocator
    have opens := ExtendedChannel.opens_openFor id request allocator policy sound
    exact ⟨opens, opens.counter_eq⟩
  · intro request allocator whole
    have opens := StandardChannel.opens_openFor id request allocator whole policy sound
    exact ⟨opens, opens.counter_eq⟩

/-- Settings that ask for six shares a minute. -/
def steadySettings : Settings where
  sharesPerMinute := ⟨0x40c00000⟩
  batchSize := 10
  tag := "pool"
  payoutScript := "51"
  versionRolling := true

/-- The policy that they are checked to be. -/
def steadyPolicy : Policy where
  sharesPerMinute := ⟨0x40c00000⟩
  batchSize := 10
  tag := "pool"
  payoutScript := [0x51]
  versionRolling := true

/-- A request for an extended channel with a thousand hashes a second. -/
def steadyRequest (minimum : UInt16) : Mining.OpenExtendedMiningChannel where
  requestId := 1
  userIdentity := ⟨[0x73, 0x6f, 0x6c, 0x6f], by decide⟩
  nominalHashRate := ⟨0x447a0000⟩
  maxTarget := ⟨List.replicate 32 0xff, by decide⟩
  minExtranonceSize := minimum

/-- A request of the same miner for a standard channel. -/
def steadyStandardRequest : Mining.OpenStandardMiningChannel where
  requestId := 1
  userIdentity := (steadyRequest 0).userIdentity
  nominalHashRate := (steadyRequest 0).nominalHashRate
  maxTarget := (steadyRequest 0).maxTarget

/-- With 8 bytes left to miners, a miner that wants 8 takes a start, and one that wants 9 none. -/
theorem start_taken_iff_opened_steady :
    ∃ allocator whole,
      ExtranonceAllocator.extended 8 [7] = .ok allocator ∧
      ExtranonceAllocator.standard [7] = .ok whole ∧
      Policy.ofSettings steadySettings = .ok steadyPolicy ∧
      (ExtendedChannel.openFor 1 (steadyRequest 8) allocator steadyPolicy).1.counter = 1 ∧
      (ExtendedChannel.openFor 1 (steadyRequest 9) allocator steadyPolicy).1.counter = 0 ∧
      (StandardChannel.openFor 1 steadyStandardRequest whole steadyPolicy).1.counter = 1 := by
  have checked : Policy.ofSettings steadySettings = .ok steadyPolicy := by decide +kernel
  obtain ⟨extended, standard⟩ := start_taken_iff_opened steadySettings steadyPolicy checked 1
  refine ⟨⟨[7], 8, 0, by decide⟩, ⟨[7], 0, 0, by decide⟩, rfl, rfl, checked, ?_, ?_, ?_⟩
  · have opened : (ExtendedChannel.openFor 1 (steadyRequest 8) ⟨[7], 8, 0, by decide⟩
        steadyPolicy).2.isOk = true := by
      decide +kernel
    rw [(extended (steadyRequest 8) ⟨[7], 8, 0, by decide⟩).2, opened]
    rfl
  · have refused : (ExtendedChannel.openFor 1 (steadyRequest 9) ⟨[7], 8, 0, by decide⟩
        steadyPolicy).2.isOk = false := by
      decide +kernel
    rw [(extended (steadyRequest 9) ⟨[7], 8, 0, by decide⟩).2, refused]
    rfl
  · have opened : (StandardChannel.openFor 1 steadyStandardRequest ⟨[7], 0, 0, by decide⟩
        steadyPolicy).2.isOk = true := by
      decide +kernel
    rw [(standard steadyStandardRequest ⟨[7], 0, 0, by decide⟩ rfl).2, opened]
    rfl

end Channel

end MiningPool
