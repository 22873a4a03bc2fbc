import MiningPool.Channel.Error
import MiningPool.Job.Factory
import MiningPool.Job.Store
import Std.Data.TreeSet

/-!
# Group channels

A group makes one job for all of its members, which are standard channels.  The start of
the extranonce is left empty, and each member puts its own in.  Shares are a matter of
the members.
-/

namespace MiningPool

open MiningPool.Bitcoin MiningPool.Message

/-- The jobs that a set of standard channels shares. -/
structure GroupChannel where
  id : UInt32
  members : Std.TreeSet UInt32
  jobs : JobStore ExtendedJob
  factory : JobFactory
  tip : Option ChainTip

namespace GroupChannel

/-- A group without members. -/
def create (id : UInt32) (tag : Option String) : Except ChannelError GroupChannel :=
  let factory := JobFactory.start true tag
  if !factory.fitsScript then .error .scriptTooLong
  else .ok ⟨id, ∅, .empty, factory, none⟩

/-- Take a channel into the group. -/
def addMember (group : GroupChannel) (channelId : UInt32) : GroupChannel :=
  { group with members := group.members.insert channelId }

/-- Take the channels whose ids lie between two, both included, into the group. -/
def addMembers (group : GroupChannel) (first last : UInt32) : GroupChannel :=
  (List.range (last.toNat + 1 - first.toNat)).foldl
    (fun group offset => group.addMember (first + .ofNat offset)) group

/-- Take a channel out of the group. -/
def removeMember (group : GroupChannel) (channelId : UInt32) : GroupChannel :=
  { group with members := group.members.erase channelId }

/-- The message that lists the members, in the order of their ids. -/
def membersMessage (group : GroupChannel) : Except ChannelError Mining.SetGroupChannel :=
  match Wire.Sequence.ofList group.members.toList with
  | .error _ => .error .tooManyMembers
  | .ok channelIds => .ok ⟨group.id, channelIds⟩

/-- Set the chain tip of a group that was not there when it was announced. -/
def setTip (group : GroupChannel) (tip : ChainTip) : GroupChannel :=
  { group with tip := some tip }

/-- Make a job from a template, to be handed to every member. -/
def newTemplate
    (group : GroupChannel)
    (template : TemplateDistribution.NewTemplate)
    (rewards : List Output) :
    GroupChannel × Except ChannelError ExtendedJob :=
  match group.factory.templateJob group.id group.tip [] template rewards with
  | (factory, .error failure) => ({ group with factory }, .error (.ofJob failure))
  | (factory, .ok job) =>
    let jobs :=
      if Job.isFuture job then group.jobs.addFuture template.templateId job
      else group.jobs.addActive job
    ({ group with factory, jobs }, .ok job)

/-- A block was found: activate the job that waits for it on the new chain tip. -/
def setNewPrevHash
    (group : GroupChannel)
    (message : TemplateDistribution.SetNewPrevHash) :
    GroupChannel × Except ChannelError Unit :=
  match group.jobs.activate? message.templateId message.headerTimestamp with
  | none => (group, .error .unknownTemplate)
  | some jobs => ({ group with jobs, tip := some (.ofTemplate message) }, .ok ())

end GroupChannel

end MiningPool
