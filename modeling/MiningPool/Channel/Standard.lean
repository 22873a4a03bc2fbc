import MiningPool.Channel.Basic

/-!
# Standard channels

The miner of a standard channel changes only the header, so the pool chooses the whole
extranonce.  The channel makes its own jobs or takes those of a group.
-/

namespace MiningPool

open MiningPool.Bitcoin MiningPool.Wire MiningPool.Message

/-- A channel for mining headers. -/
abbrev StandardChannel := Channel StandardJob

namespace StandardChannel

/-- Open a channel with an extranonce that was handed out. -/
def create (opening : Channel.Opening) : Except ChannelError StandardChannel :=
  match Channel.openingTarget opening.hashRate opening.sharesPerMinute opening.maxTarget with
  | .error failure => .error failure
  | .ok target =>
    let factory := JobFactory.start true opening.tag
    if opening.extranoncePrefix.length ≠ extranonceSize then .error .extranonceNotWhole
    else if !factory.fitsScript then .error .scriptTooLong
    else .ok (Channel.ofOpening opening target factory)

/-- Open a channel at the request of a miner; a refused request takes no extranonce. -/
def openFor
    (id : UInt32)
    (request : Mining.OpenStandardMiningChannel)
    (allocator : ExtranonceAllocator)
    (policy : Policy) :
    ExtranonceAllocator × Except ChannelError StandardChannel :=
  match request.userIdentity.text? with
  | none => (allocator, .error .notCreated)
  | some userIdentity =>
    let maxTarget := Target.ofBlob request.maxTarget
    match
      Channel.openingTarget request.nominalHashRate policy.sharesPerMinute maxTarget
    with
    | .error failure => (allocator, .error failure)
    | .ok _ =>
      match allocator.next 0 with
      | (allocator, .error failure) => (allocator, .error (.extranonce failure))
      | (allocator, .ok extranoncePrefix) =>
        (allocator, create
          { id
            userIdentity
            extranoncePrefix
            maxTarget
            hashRate := request.nominalHashRate
            batchSize := policy.batchSize
            sharesPerMinute := policy.sharesPerMinute
            tag := policy.poolTag })

/-- The message that grants the channel. -/
def openSuccess
    (channel : StandardChannel)
    (requestId groupChannelId : UInt32) :
    Except ChannelError Mining.OpenStandardMiningChannelSuccess :=
  match Blob.ofBytes channel.extranoncePrefix with
  | .error _ => .error .extranonceNotWhole
  | .ok extranoncePrefix =>
    .ok
      { requestId
        channelId := channel.id
        target := channel.target.toBlob
        extranoncePrefix
        groupChannelId }

/-- Change the extranonce of the jobs to come. -/
def setExtranoncePrefix
    (channel : StandardChannel)
    (extranoncePrefix : Bytes) :
    StandardChannel × Except ChannelError Unit :=
  if extranoncePrefix.length ≠ extranonceSize then (channel, .error .extranonceNotWhole)
  else ({ channel with extranoncePrefix }, .ok ())

/-- Make a job from a template. -/
def newTemplate
    (channel : StandardChannel)
    (template : TemplateDistribution.NewTemplate)
    (rewards : List Output) :
    StandardChannel × Except ChannelError Unit :=
  match
    channel.factory.standardJob channel.id channel.tip channel.extranoncePrefix template rewards
  with
  | (factory, .error failure) => ({ channel with factory }, .error (.ofJob failure))
  | (factory, .ok job) =>
    (Channel.addJob { channel with factory } template.templateId job, .ok ())

/-- Take a job of a group; it keeps its id. -/
def groupJob
    (channel : StandardChannel)
    (job : ExtendedJob) :
    StandardChannel × Except ChannelError Unit :=
  match job.toStandard channel.id channel.extranoncePrefix with
  | .error failure => (channel, .error (.conversion failure))
  | .ok job => (channel.addJob job.template.templateId job, .ok ())

/-- Validate a share and account for it. -/
def validateShare
    (channel : StandardChannel)
    (submitted : Mining.SubmitSharesStandard) :
    StandardChannel × Except ShareError ShareOutcome :=
  match channel.jobs.forShare submitted.jobId with
  | .error failure => (channel, .error failure)
  | .ok job =>
    match channel.tip with
    | none => (channel, .error .noChainTip)
    | some tip =>
      let share : Share :=
        { sequenceNumber := submitted.sequenceNumber
          version := submitted.version
          merkleRoot := job.message.merkleRoot
          ntime := submitted.ntime
          nonce := submitted.nonce }
      channel.judge tip share job job.coinbase

end StandardChannel

end MiningPool
