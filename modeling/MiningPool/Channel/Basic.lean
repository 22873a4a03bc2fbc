import MiningPool.Channel.Error
import MiningPool.Job.Factory
import MiningPool.Policy.Basic
import MiningPool.Share.Validation

/-!
# Channels

A channel is what a pool knows of the work of one miner: who it is, which extranonces
are its own, how hard its shares must be, which jobs it was given on which chain tip, and
what it found.  Here is what standard and extended channels have in common.
-/

namespace MiningPool

open MiningPool.Wire MiningPool.Message

/-- A channel whose jobs are of a given kind. -/
structure Channel (J : Type) where
  id : UInt32
  userIdentity : String
  /-- The start of the extranonces of new jobs. -/
  extranoncePrefix : Bytes
  /-- The greatest target the miner accepts. -/
  maxTarget : Target
  target : Target
  hashRate : Single
  sharesPerMinute : Single
  jobs : JobStore J
  factory : JobFactory
  shares : ShareAccounting
  tip : Option ChainTip

namespace Channel

/-- The target for a hash rate and a number of shares a minute. -/
def targetFor (hashRate sharesPerMinute : Single) : Except ChannelError Target :=
  match
    Target.ofHashRate (Number.doubleOfSingle hashRate) (Number.doubleOfSingle sharesPerMinute)
  with
  | .ok target => .ok target
  | .error .invalidHashRate => .error .invalidHashRate
  | .error .invalidSharesPerMinute => .error .notCreated

/-- The target of a new channel, which the miner must accept. -/
def openingTarget
    (hashRate sharesPerMinute : Single)
    (maxTarget : Target) :
    Except ChannelError Target :=
  match targetFor hashRate sharesPerMinute with
  | .error failure => .error failure
  | .ok target => if maxTarget < target then .error .maxTargetOutOfRange else .ok target

/-- What a channel is opened with. -/
structure Opening where
  id : UInt32
  userIdentity : String
  extranoncePrefix : Bytes
  maxTarget : Target
  hashRate : Single
  batchSize : Nat
  sharesPerMinute : Single
  tag : Option String
  deriving DecidableEq, Repr

variable {J : Type}

/-- A channel that has no jobs, shares and chain tip yet. -/
def ofOpening (opening : Opening) (target : Target) (factory : JobFactory) : Channel J where
  id := opening.id
  userIdentity := opening.userIdentity
  extranoncePrefix := opening.extranoncePrefix
  maxTarget := opening.maxTarget
  target := target
  hashRate := opening.hashRate
  sharesPerMinute := opening.sharesPerMinute
  jobs := .empty
  factory := factory
  shares := .start opening.batchSize
  tip := none

/-- Set the chain tip of a channel that was not there when it was announced. -/
def setTip (channel : Channel J) (tip : ChainTip) : Channel J :=
  { channel with tip := some tip }

/-- Give the channel the target of a new hash rate, at most the greatest one accepted. -/
def update
    (channel : Channel J)
    (hashRate : Single)
    (maxTarget : Option Target) :
    Channel J × Except ChannelError Unit :=
  match targetFor hashRate channel.sharesPerMinute with
  | .error failure => (channel, .error failure)
  | .ok target =>
    let maxTarget := maxTarget.getD channel.maxTarget
    ({ channel with hashRate, maxTarget, target := min target maxTarget }, .ok ())

/-- The message that tells the miner its target. -/
def targetMessage (channel : Channel J) : Mining.SetTarget :=
  ⟨channel.id, channel.target.toBlob⟩

variable [Job J]

/-- Keep a new job: it waits for the block of its template or becomes the active one. -/
def addJob (channel : Channel J) (templateId : UInt64) (job : J) : Channel J :=
  { channel with
    jobs :=
      if Job.isFuture job then channel.jobs.addFuture templateId job
      else channel.jobs.addActive job }

/-- A block was found: activate the job that waits for it on the new chain tip. -/
def setNewPrevHash
    (channel : Channel J)
    (message : TemplateDistribution.SetNewPrevHash) :
    Channel J × Except ChannelError Unit :=
  match channel.jobs.activate? message.templateId message.headerTimestamp with
  | none => (channel, .error .unknownTemplate)
  | some jobs =>
    ({ channel with
        jobs
        shares := channel.shares.flush
        tip := some (.ofTemplate message) },
      .ok ())

/-- Judge a share of a job of the channel. -/
def judge
    (channel : Channel J)
    (tip : ChainTip)
    (share : Share)
    (job : J)
    (coinbase : Bytes) :
    Channel J × Except ShareError ShareOutcome :=
  let judged := channel.shares.judge channel.target tip share (Job.templateId job) coinbase
  ({ channel with shares := judged.1 }, judged.2)

end Channel

end MiningPool
