import MiningPool.Channel.Extended
import MiningPool.Channel.Group
import MiningPool.Channel.Standard
import MiningPool.Message.Basic

/-!
# Channels of any kind

A pool keeps its channels together, whatever their kind.  An operation on one of them is
refused when its kind does not have it; otherwise it is that of the kind.
-/

namespace MiningPool

open MiningPool.Bitcoin MiningPool.Wire MiningPool.Message

/-- Why an operation on a channel of any kind is refused. -/
inductive Refusal
  /-- Channels of the kind have no such operation. -/
  | otherKind
  | standard (failure : ChannelError)
  | extended (failure : ChannelError)
  | group (failure : ChannelError)
  /-- The share of a miner is rejected. -/
  | share (channelId sequenceNumber : UInt32) (failure : ShareError)
  deriving DecidableEq, Repr

namespace Refusal

/-- The name of a failure. -/
def name : Refusal → String
  | otherKind => "BadInput"
  | standard failure => failure.name
  | extended failure => failure.name
  | group failure => failure.name
  | share _ _ failure => failure.name

/-- The wording of a failure. -/
def message : Refusal → String
  | otherKind => ""
  | standard failure => failure.message
  | extended failure => failure.message
  | group failure => failure.message
  | share _ _ failure => failure.message

instance : Failure Refusal := ⟨name, message⟩

/-- The code that the miner is told, if there is a miner. -/
def code? : Refusal → Option String
  | standard failure => some failure.standardCode
  | extended failure => some failure.extendedCode
  | share _ _ failure => some failure.code
  | otherKind | group _ => none

/-- The message that tells the miner the code. -/
def reply? (requestId : UInt32) : Refusal → Option Message
  | standard failure =>
    some
      ⟨.openMiningChannelError,
        Mining.OpenMiningChannelError.ofCode requestId failure.standardCode⟩
  | extended failure =>
    some
      ⟨.openMiningChannelError,
        Mining.OpenMiningChannelError.ofCode requestId failure.extendedCode⟩
  | share channelId sequenceNumber failure =>
    some ⟨.submitSharesError, failure.reply channelId sequenceNumber⟩
  | otherKind | group _ => none

end Refusal

/-- A channel of any kind. -/
inductive AnyChannel
  | standard (channel : StandardChannel)
  | extended (channel : ExtendedChannel)
  | group (channel : GroupChannel)

/-- A share as a miner sends it. -/
inductive Submission
  | standard (share : Mining.SubmitSharesStandard)
  | extended (share : Mining.SubmitSharesExtended)
  deriving DecidableEq, Repr

/-- The share that comes some nonces later. -/
def Submission.later (count : UInt32) : Submission → Submission
  | standard share =>
    .standard
      { share with
        nonce := share.nonce + count
        sequenceNumber := share.sequenceNumber + count }
  | extended share =>
    .extended
      { share with
        nonce := share.nonce + count
        sequenceNumber := share.sequenceNumber + count }

namespace AnyChannel

/-- What an operation leaves of a channel, and its result. -/
abbrev Outcome (α : Type) := AnyChannel × Except Refusal α

/-- Take the outcome of a standard channel for one of any kind. -/
def ofStandard {α : Type} : StandardChannel × Except ChannelError α → Outcome α
  | (channel, result) => (standard channel, result.mapError .standard)

/-- Take the outcome of an extended channel for one of any kind. -/
def ofExtended {α : Type} : ExtendedChannel × Except ChannelError α → Outcome α
  | (channel, result) => (extended channel, result.mapError .extended)

/-- Take the outcome of a group for one of any kind. -/
def ofGroup {α : Type} : GroupChannel × Except ChannelError α → Outcome α
  | (channel, result) => (group channel, result.mapError .group)

/-- Open a standard channel with an extranonce that was handed out. -/
def createStandard (opening : Channel.Opening) : Except Refusal AnyChannel :=
  (StandardChannel.create opening).map standard |>.mapError .standard

/-- Open an extended channel with the start of an extranonce that was handed out. -/
def createExtended
    (opening : Channel.Opening)
    (versionRolling : Bool)
    (minRollableSize : UInt16) :
    Except Refusal AnyChannel :=
  (ExtendedChannel.create opening versionRolling minRollableSize).map extended
    |>.mapError .extended

/-- A group without members. -/
def createGroup (id : UInt32) (tag : Option String) : Except Refusal AnyChannel :=
  (GroupChannel.create id tag).map group |>.mapError .group

/-- Open a standard channel at the request of a miner. -/
def openStandard
    (id : UInt32)
    (request : Mining.OpenStandardMiningChannel)
    (allocator : ExtranonceAllocator)
    (policy : Policy) :
    ExtranonceAllocator × Except Refusal AnyChannel :=
  let (allocator, result) := StandardChannel.openFor id request allocator policy
  (allocator, result.map standard |>.mapError .standard)

/-- Open an extended channel at the request of a miner. -/
def openExtended
    (id : UInt32)
    (request : Mining.OpenExtendedMiningChannel)
    (allocator : ExtranonceAllocator)
    (policy : Policy) :
    ExtranonceAllocator × Except Refusal AnyChannel :=
  let (allocator, result) := ExtendedChannel.openFor id request allocator policy
  (allocator, result.map extended |>.mapError .extended)

/-- Make a job from a template; a group answers it, to be handed to its members. -/
def newTemplate
    (channel : AnyChannel)
    (template : TemplateDistribution.NewTemplate)
    (rewards : List Output) :
    Outcome (Option ExtendedJob) :=
  match channel with
  | standard channel =>
    let (channel, result) := channel.newTemplate template rewards
    ofStandard (channel, result.map fun _ => none)
  | extended channel =>
    let (channel, result) := channel.newTemplate template rewards
    ofExtended (channel, result.map fun _ => none)
  | group channel =>
    let (channel, result) := channel.newTemplate template rewards
    ofGroup (channel, result.map some)

/-- Take a job of a group. -/
def groupJob (channel : AnyChannel) (job : ExtendedJob) : Outcome Unit :=
  match channel with
  | standard channel => ofStandard (channel.groupJob job)
  | channel => (channel, .error .otherKind)

/-- A block was found. -/
def setNewPrevHash
    (channel : AnyChannel)
    (message : TemplateDistribution.SetNewPrevHash) :
    Outcome Unit :=
  match channel with
  | standard channel => ofStandard (channel.setNewPrevHash message)
  | extended channel => ofExtended (channel.setNewPrevHash message)
  | group channel => ofGroup (channel.setNewPrevHash message)

/-- Make a job as the miner wishes, and answer its id. -/
def setCustomJob
    (channel : AnyChannel)
    (request : Mining.SetCustomMiningJob) :
    Outcome UInt32 :=
  match channel with
  | extended channel => ofExtended (channel.setCustomJob request)
  | channel => (channel, .error .otherKind)

/-- Set the chain tip of a channel that was not there when it was announced. -/
def setTip (channel : AnyChannel) (tip : ChainTip) : AnyChannel :=
  match channel with
  | standard channel => standard (channel.setTip tip)
  | extended channel => extended (channel.withChannel (channel.setTip tip))
  | group channel => group (channel.setTip tip)

/-- Change the start of the extranonces of the jobs to come. -/
def setExtranoncePrefix (channel : AnyChannel) (extranoncePrefix : Bytes) : Outcome Unit :=
  match channel with
  | standard channel => ofStandard (channel.setExtranoncePrefix extranoncePrefix)
  | extended channel => ofExtended (channel.setExtranoncePrefix extranoncePrefix)
  | channel => (channel, .error .otherKind)

/-- Give the channel the target of a new hash rate. -/
def update
    (channel : AnyChannel)
    (hashRate : Single)
    (maxTarget : Option Target) :
    Outcome Unit :=
  match channel with
  | standard channel => ofStandard (channel.update hashRate maxTarget)
  | extended channel => ofExtended (channel.update hashRate maxTarget)
  | channel => (channel, .error .otherKind)

/-- Validate a share and account for it. -/
def validateShare (channel : AnyChannel) (submission : Submission) : Outcome ShareOutcome :=
  match channel, submission with
  | standard channel, .standard share =>
    let (channel, verdict) := channel.validateShare share
    (standard channel, verdict.mapError (.share share.channelId share.sequenceNumber))
  | extended channel, .extended share =>
    let (channel, verdict) := channel.validateShare share
    (extended channel, verdict.mapError (.share share.channelId share.sequenceNumber))
  | channel, _ => (channel, .error .otherKind)

/-- The active job, or the job of an id in any other stage; a group keeps waiting ones only. -/
def job? (channel : AnyChannel) (id : Option UInt32) : Option (StandardJob ⊕ ExtendedJob) :=
  match channel with
  | standard channel => (id.elim channel.jobs.active channel.jobs.kept?).map .inl
  | extended channel => (id.elim channel.jobs.active channel.jobs.kept?).map .inr
  | group channel => (id.elim channel.jobs.active (channel.jobs.future[·]?)).map .inr

/-- The message that grants the channel. -/
def openSuccess
    (channel : AnyChannel)
    (requestId groupChannelId : UInt32) :
    Except Refusal Message :=
  match channel with
  | standard channel =>
    match channel.openSuccess requestId groupChannelId with
    | .error failure => .error (.standard failure)
    | .ok message => .ok ⟨.openStandardMiningChannelSuccess, message⟩
  | extended channel =>
    match channel.openSuccess requestId with
    | .error failure => .error (.extended failure)
    | .ok message => .ok ⟨.openExtendedMiningChannelSuccess, message⟩
  | group _ => .error .otherKind

/-- The message that tells the miner its target. -/
def targetMessage (channel : AnyChannel) : Except Refusal Mining.SetTarget :=
  match channel with
  | standard channel => .ok channel.targetMessage
  | extended channel => .ok channel.targetMessage
  | group _ => .error .otherKind

end AnyChannel

end MiningPool
