import MiningPool.Ids
import MiningPool.Job.Basic

/-!
# Making jobs

A factory makes the jobs of one channel from templates and from the wishes of miners,
and numbers them.  The script of a coinbase starts with what the template asks for; the
tag of the pool follows, and the extranonce ends it.  The outputs are the rewards and
then those of the template.
-/

namespace MiningPool

open MiningPool.Bitcoin MiningPool.Coinbase MiningPool.Message.Mining
open MiningPool.Message.TemplateDistribution

/-- What makes the jobs of a channel. -/
structure JobFactory where
  /-- The id of the last job; none was made when it is zero. -/
  lastId : UInt32
  /-- Whether miners may roll the version of extended jobs. -/
  versionRolling : Bool
  /-- The text by which a pool marks its blocks. -/
  tag : Option String
  deriving DecidableEq, Repr

namespace JobFactory

/-- The longest start of a script that a template asks for, the height of the block. -/
def maxHeightSize : Nat := 5

/-- A factory that made no job yet. -/
def start (versionRolling : Bool) (tag : Option String) : JobFactory :=
  ⟨0, versionRolling, tag⟩

/-- Number the next job. -/
def advance (factory : JobFactory) : JobFactory :=
  { factory with lastId := idAfter factory.lastId }

/-- The bytes of the tag. -/
def tagBytes (factory : JobFactory) : Bytes :=
  match factory.tag with
  | none => []
  | some tag => tag.toUTF8.toList

/-- The tag between its delimiters. -/
def delimitedTag (factory : JobFactory) : Bytes :=
  0x2f :: factory.tagBytes ++ [0x2f, 0x2f]

/-- The longest delimited tag: what height, extranonce and two lengths leave of the script. -/
def maxTagSize : Nat :=
  maxScriptSize - maxHeightSize - 1 - 1 - extranonceSize

/-- The delimited tag behind its length. -/
def pushTag (factory : JobFactory) : Except JobError Bytes :=
  let tag := factory.delimitedTag
  if maxTagSize < tag.length then .error .invalidFront
  else .ok (UInt8.ofNat tag.length :: tag)

/-- The length of the script of a template job with the longest height. -/
def maxScriptLength (factory : JobFactory) : Nat :=
  maxHeightSize + 1 + 3 + factory.tagBytes.length + 1 + extranonceSize

/-- Whether every template job of the factory has a script that is short enough. -/
def fitsScript (factory : JobFactory) : Bool :=
  factory.maxScriptLength ≤ maxScriptSize

/-- The least time of a job: none for one that waits, else that of the chain tip. -/
def minNtime
    (template : NewTemplate)
    (tip : Option ChainTip) :
    Except JobError (Option UInt32) :=
  if template.futureTemplate then .ok none
  else
    match tip with
    | none => .error .chainTipRequired
    | some tip => .ok (some tip.minNtime)

/-- The value of the rewards. -/
def rewardSum (rewards : List Output) : Nat :=
  rewards.foldl (fun sum reward => sum + reward.value.toNat) 0

/-- Check that the rewards spend exactly what the template leaves to them. -/
def checkRewards (template : NewTemplate) (rewards : List Output) : Except JobError Unit :=
  let sum := rewardSum rewards
  let expected := template.coinbaseTxValueRemaining.toNat
  if UInt64.size ≤ sum then .error .rewardOverflow
  else if sum ≠ expected then .error (.wrongReward expected sum)
  else .ok ()

/-- Cut a coinbase around its extranonce. -/
def halves
    (version lockTime sequence : UInt32)
    (scriptStart : Bytes)
    (outputs : List Output) :
    Except JobError Halves :=
  match Halves.build version lockTime sequence scriptStart outputs with
  | .error length => .error (.scriptTooLong length)
  | .ok halves => .ok halves

/-- The coinbase of a template with the rewards of the pool. -/
def templateHalves
    (factory : JobFactory)
    (template : NewTemplate)
    (rewards : List Output) :
    Except JobError Halves :=
  match checkRewards template rewards with
  | .error failure => .error failure
  | .ok () =>
    match
      templateOutputs template.coinbaseTxOutputs.bytes template.coinbaseTxOutputsCount
    with
    | .error failure => .error (.malformedOutputs failure)
    | .ok outputs =>
      match factory.pushTag with
      | .error failure => .error failure
      | .ok tag =>
        halves template.coinbaseTxVersion template.coinbaseTxLocktime
          template.coinbaseTxInputSequence
          (template.coinbasePrefix.bytes ++ tag ++ [UInt8.ofNat extranonceSize])
          (rewards ++ outputs)

/-- The coinbase that a miner chose. -/
def customHalves (request : SetCustomMiningJob) : Except JobError Halves :=
  match customOutputs request.coinbaseTxOutputs.bytes with
  | .error failure => .error (.malformedOutputs failure)
  | .ok outputs =>
    halves request.coinbaseTxVersion request.coinbaseTxLocktime
      request.coinbaseTxInputNsequence request.coinbasePrefix.bytes outputs

/-- Make a standard job from a template; only success takes up an id. -/
def standardJob
    (factory : JobFactory)
    (channelId : UInt32)
    (tip : Option ChainTip)
    (extranoncePrefix : Bytes)
    (template : NewTemplate)
    (rewards : List Output) :
    JobFactory × Except JobError StandardJob :=
  match minNtime template tip with
  | .error failure => (factory, .error failure)
  | .ok minNtime =>
    match factory.templateHalves template rewards with
    | .error failure => (factory, .error failure)
    | .ok halves =>
      match
        merkleRoot? halves.front halves.back extranoncePrefix template.merklePath.items
      with
      | none => (factory, .error .noMerkleRoot)
      | some merkleRoot =>
        let factory := factory.advance
        (factory, .ok
          { template
            extranoncePrefix
            outputs := halves.outputs
            fullFront := halves.front
            fullBack := halves.back
            message :=
              { channelId
                jobId := factory.lastId
                minNtime
                version := template.version
                merkleRoot } })

/-- What an extended job takes from its origin. -/
structure ExtendedContent where
  origin : JobOrigin
  channelId : UInt32
  minNtime : Option UInt32
  version : UInt32
  merklePath : Wire.Sequence .seq0255 Hash

/-- Make an extended job of a coinbase; an id is taken up when its witness comes out. -/
def extendedJob
    (factory : JobFactory)
    (content : ExtendedContent)
    (extranoncePrefix : Bytes)
    (halves : Halves) :
    JobFactory × Except JobError ExtendedJob :=
  match stripWitness halves.front halves.back with
  | .error failure => (factory, .error (.witness failure))
  | .ok (front, back) =>
    let factory := factory.advance
    match Wire.Blob.ofBytes front, Wire.Blob.ofBytes back with
    | .error _, _ => (factory, .error .invalidFront)
    | .ok _, .error _ => (factory, .error .invalidBack)
    | .ok front, .ok back =>
      (factory, .ok
        { origin := content.origin
          extranoncePrefix
          outputs := halves.outputs
          fullFront := halves.front
          fullBack := halves.back
          message :=
            { channelId := content.channelId
              jobId := factory.lastId
              minNtime := content.minNtime
              version := content.version
              versionRollingAllowed := factory.versionRolling
              merklePath := content.merklePath
              coinbaseTxPrefix := front
              coinbaseTxSuffix := back } })

/-- Make an extended job from a template. -/
def templateJob
    (factory : JobFactory)
    (channelId : UInt32)
    (tip : Option ChainTip)
    (extranoncePrefix : Bytes)
    (template : NewTemplate)
    (rewards : List Output) :
    JobFactory × Except JobError ExtendedJob :=
  match minNtime template tip with
  | .error failure => (factory, .error failure)
  | .ok minNtime =>
    match factory.templateHalves template rewards with
    | .error failure => (factory, .error failure)
    | .ok halves =>
      let content :=
        ⟨.template template, channelId, minNtime, template.version, template.merklePath⟩
      factory.extendedJob content extranoncePrefix halves

/-- Make an extended job as a miner wishes; it does not wait. -/
def customJob
    (factory : JobFactory)
    (request : SetCustomMiningJob)
    (extranoncePrefix : Bytes) :
    JobFactory × Except JobError ExtendedJob :=
  match customHalves request with
  | .error failure => (factory, .error failure)
  | .ok halves =>
    let content :=
      ⟨.custom request, request.channelId, some request.minNtime, request.version,
       request.merklePath⟩
    factory.extendedJob content extranoncePrefix halves

end JobFactory

end MiningPool
