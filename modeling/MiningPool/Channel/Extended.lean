import MiningPool.Channel.Basic

/-!
# Extended channels

The miner of an extended channel rolls the end of the extranonce and computes the root
of the tree of transactions itself.  Besides jobs from templates it may be given jobs of
its own making.
-/

namespace MiningPool

open MiningPool.Bitcoin MiningPool.Wire MiningPool.Message

/-- A channel on which the miner rolls part of the extranonce. -/
structure ExtendedChannel extends Channel ExtendedJob where
  /-- The number of bytes the miner rolls. -/
  rollableSize : UInt16
  /-- The least number of bytes the miner wants to roll. -/
  minRollableSize : UInt16

namespace ExtendedChannel

/-- The number of bytes that the start of an extranonce leaves to the miner. -/
def rollableBeside (extranoncePrefix : Bytes) : UInt16 :=
  UInt16.ofNat (extranonceSize - extranoncePrefix.length)

/-- Open a channel with the start of an extranonce that was handed out. -/
def create
    (opening : Channel.Opening)
    (versionRolling : Bool)
    (minRollableSize : UInt16) :
    Except ChannelError ExtendedChannel :=
  match Channel.openingTarget opening.hashRate opening.sharesPerMinute opening.maxTarget with
  | .error failure => .error failure
  | .ok target =>
    let factory := JobFactory.start versionRolling opening.tag
    let rollableSize := rollableBeside opening.extranoncePrefix
    if extranonceSize < opening.extranoncePrefix.length then .error .extranonceTooLong
    else if rollableSize < minRollableSize then .error .minimumTooLarge
    else if !factory.fitsScript then .error .scriptTooLong
    else
      .ok
        { toChannel := Channel.ofOpening opening target factory
          rollableSize
          minRollableSize }

/-- Open a channel at the request of a miner; a refused request takes no extranonce. -/
def openFor
    (id : UInt32)
    (request : Mining.OpenExtendedMiningChannel)
    (allocator : ExtranonceAllocator)
    (policy : Policy) :
    ExtranonceAllocator × Except ChannelError ExtendedChannel :=
  match request.userIdentity.text? with
  | none => (allocator, .error .notCreated)
  | some userIdentity =>
    let maxTarget := Target.ofBlob request.maxTarget
    match
      Channel.openingTarget request.nominalHashRate policy.sharesPerMinute maxTarget
    with
    | .error failure => (allocator, .error failure)
    | .ok _ =>
      match allocator.next request.minExtranonceSize.toNat with
      | (allocator, .error failure) => (allocator, .error (.ofExtranonce failure))
      | (allocator, .ok extranoncePrefix) =>
        let opening : Channel.Opening :=
          { id
            userIdentity
            extranoncePrefix
            maxTarget
            hashRate := request.nominalHashRate
            batchSize := policy.batchSize
            sharesPerMinute := policy.sharesPerMinute
            tag := policy.poolTag }
        (allocator, create opening policy.versionRolling request.minExtranonceSize)

/-- The message that grants the channel. -/
def openSuccess
    (channel : ExtendedChannel)
    (requestId : UInt32) :
    Except ChannelError Mining.OpenExtendedMiningChannelSuccess :=
  match Blob.ofBytes channel.extranoncePrefix with
  | .error _ => .error .extranonceTooLong
  | .ok extranoncePrefix =>
    .ok
      { requestId
        channelId := channel.id
        target := channel.target.toBlob
        extranonceSize := channel.rollableSize
        extranoncePrefix }

/-- Change the start of the extranonces of the jobs to come. -/
def setExtranoncePrefix
    (channel : ExtendedChannel)
    (extranoncePrefix : Bytes) :
    ExtendedChannel × Except ChannelError Unit :=
  let rollableSize := rollableBeside extranoncePrefix
  if extranonceSize < extranoncePrefix.length then (channel, .error .extranonceTooLong)
  else if rollableSize < channel.minRollableSize then (channel, .error .extranonceTooLong)
  else ({ channel with extranoncePrefix, rollableSize }, .ok ())

/-- Change what the channel has in common with standard channels. -/
def withChannel (channel : ExtendedChannel) (toChannel : Channel ExtendedJob) :
    ExtendedChannel :=
  { channel with toChannel }

/-- Give the channel the target of a new hash rate. -/
def update
    (channel : ExtendedChannel)
    (hashRate : Single)
    (maxTarget : Option Target) :
    ExtendedChannel × Except ChannelError Unit :=
  let updated := channel.toChannel.update hashRate maxTarget
  (channel.withChannel updated.1, updated.2)

/-- Make a job from a template. -/
def newTemplate
    (channel : ExtendedChannel)
    (template : TemplateDistribution.NewTemplate)
    (rewards : List Output) :
    ExtendedChannel × Except ChannelError Unit :=
  match
    channel.factory.templateJob channel.id channel.tip channel.extranoncePrefix template rewards
  with
  | (factory, .error failure) => ({ channel with factory }, .error (.ofJob failure))
  | (factory, .ok job) =>
    (channel.withChannel
      (Channel.addJob { channel.toChannel with factory } template.templateId job), .ok ())

/-- A block was found: activate the job that waits for it on the new chain tip. -/
def setNewPrevHash
    (channel : ExtendedChannel)
    (message : TemplateDistribution.SetNewPrevHash) :
    ExtendedChannel × Except ChannelError Unit :=
  let activated := channel.toChannel.setNewPrevHash message
  (channel.withChannel activated.1, activated.2)

/-- Whether a chain tip builds on another block than that of the channel. -/
def movesTip (channel : ExtendedChannel) (tip : ChainTip) : Bool :=
  match channel.tip with
  | none => true
  | some current => current.prevHash ≠ tip.prevHash

/--
Make a job as the miner wishes, active from now on, on the chain tip that it names; when
that is another one, the jobs before are stale.
-/
def setCustomJob
    (channel : ExtendedChannel)
    (request : Mining.SetCustomMiningJob) :
    ExtendedChannel × Except ChannelError UInt32 :=
  if request.channelId ≠ channel.id then (channel, .error .foreignJob)
  else
    match channel.factory.customJob request channel.extranoncePrefix with
    | (factory, .error failure) => ({ channel with factory }, .error (.ofJob failure))
    | (factory, .ok job) =>
      let tip := ChainTip.ofCustomJob request
      let jobs := channel.jobs.addActive job
      let moved := channel.movesTip tip
      ({ channel with
          factory
          jobs := if moved then jobs.markPastStale else jobs
          shares := if moved then channel.shares.flush else channel.shares
          tip := some tip },
        .ok job.message.jobId)

/-- Validate a share and account for it. -/
def validateShare
    (channel : ExtendedChannel)
    (submitted : Mining.SubmitSharesExtended) :
    ExtendedChannel × Except ShareError ShareOutcome :=
  match channel.jobs.forShare submitted.jobId with
  | .error failure => (channel, .error failure)
  | .ok job =>
    let extranonce := job.extranoncePrefix ++ submitted.extranonce.bytes
    if extranonce.length ≠ extranonceSize then (channel, .error .wrongExtranonceSize)
    else
      match job.merkleRoot? extranonce with
      | none => (channel, .error .invalid)
      | some merkleRoot =>
        match channel.tip with
        | none => (channel, .error .noChainTip)
        | some tip =>
          if !job.message.versionRollingAllowed &&
              submitted.version &&& versionRollingMask != 0 then
            (channel, .error .versionRollingNotAllowed)
          else
            let share : Share :=
              { sequenceNumber := submitted.sequenceNumber
                version := submitted.version
                merkleRoot
                ntime := submitted.ntime
                nonce := submitted.nonce }
            let judged := channel.toChannel.judge tip share job (job.coinbase extranonce)
            (channel.withChannel judged.1, judged.2)

end ExtendedChannel

end MiningPool
