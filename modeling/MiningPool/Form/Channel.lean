import MiningPool.Channel.Any
import MiningPool.Form.Failure
import MiningPool.Form.Job

/-!
# Channels in forms

A channel is shown with its target, its extranonce, its chain tip, the ids of its jobs
by the stage of their life and, unless it is a group, its miner and its shares.
-/

namespace MiningPool

/-- A target is shown most significant byte first. -/
instance : ToForm Target where
  toForm target := .bytes target.toBytesBE

/-- A target is entered as messages carry it, least significant byte first. -/
instance : OfForm Target where
  ofForm form := return .ofBytesLE (← form.toBytesOf 32)

instance : OfForm Channel.Opening where
  ofForm form := do
    return {
      id := ← form.get "channel_id"
      userIdentity := ← form.get "user_identity"
      extranoncePrefix := ← form.get "extranonce_prefix"
      maxTarget := ← form.get "max_target"
      hashRate := ← form.get "nominal_hashrate"
      batchSize := ← form.get "batch_size"
      sharesPerMinute := ← form.get "shares_per_minute"
      tag := ← form.get? "tag" }

instance : ToForm ShareAccounting where
  toForm accounting :=
    .fields
      [entry "last_sequence_number" accounting.lastSequenceNumber,
       entry "accepted" accounting.accepted,
       entry "work_sum" accounting.workSum,
       entry "batch_size" accounting.batchSize,
       entry "should_acknowledge" accounting.completesBatch,
       entry "best_diff" accounting.bestDifficulty]

instance : ToForm ShareOutcome where
  toForm outcome :=
    .fields <| entry "kind" outcome.name ::
      match outcome with
      | .valid => []
      | .acknowledged lastSequenceNumber accepted work =>
        [entry "last_sequence_number" lastSequenceNumber, entry "accepted" accepted,
         entry "work" work]
      | .blockFound templateId coinbase =>
        [entry "template_id" templateId, entry "coinbase" coinbase]

instance : OfForm Settings where
  ofForm form := do
    return {
      sharesPerMinute := ← form.get "shares_per_minute"
      batchSize := ← form.get "batch_size"
      tag := ← form.get "tag"
      payoutScript := ← form.get "script"
      versionRolling := (← form.get? "version_rolling").getD true }

instance : ToForm Policy where
  toForm policy :=
    .fields
      [entry "expected_shares_per_minute" policy.sharesPerMinute,
       entry "share_batch_size" policy.batchSize,
       entry "version_rolling_allowed" policy.versionRolling,
       entry "pool_tag" policy.poolTag,
       entry "payout_script" policy.payoutScript]

namespace Form

/-- The ids of jobs in ascending order. -/
def jobIds {J : Type} (jobs : Std.TreeMap UInt32 J) : Form :=
  toForm jobs.keys

/-- What is shown of channels of every kind. -/
def channelEntries
    {J : Type}
    [Job J]
    (id : UInt32)
    (target : Target)
    (extranoncePrefix : Bytes)
    (tip : Option ChainTip)
    (jobs : JobStore J) :
    List (String × Form) :=
  [entry "channel_id" id,
   entry "target" target,
   entry "extranonce_prefix" extranoncePrefix,
   entry "chain_tip" tip,
   entry "active" (jobs.active.map jobSummary),
   ("future", jobIds jobs.future),
   entry "templates" jobs.byTemplate.toList]

end Form

instance {J : Type} [Job J] : ToForm (Channel J) where
  toForm channel :=
    .fields <|
      Form.channelEntries channel.id channel.target channel.extranoncePrefix channel.tip
          channel.jobs ++
        [entry "user_identity" channel.userIdentity,
         entry "requested_max_target" channel.maxTarget,
         entry "nominal_hashrate" channel.hashRate,
         entry "shares_per_minute" channel.sharesPerMinute,
         ("past", Form.jobIds channel.jobs.past),
         ("stale", Form.jobIds channel.jobs.stale),
         entry "shares" channel.shares]

instance : ToForm ExtendedChannel where
  toForm channel :=
    (toForm channel.toChannel).extend [entry "rollable_extranonce_size" channel.rollableSize]

/-- A group has no target and no extranonce of its own: every target and extranonce fits. -/
instance : ToForm GroupChannel where
  toForm group :=
    .fields <| Form.channelEntries group.id .easiest [] group.tip group.jobs ++
      [entry "members" group.members.toList]

/-- Take a share as the kind of the channel asks for it. -/
def Form.toSubmission (form : Form) : AnyChannel → Entered Submission
  | .standard _ => .standard <$> ofForm form
  | .extended _ => .extended <$> ofForm form
  | .group _ => .error .unfit

/-- A store is shown with the ids of its jobs; the active one is shown with its stage. -/
instance {J : Type} [Job J] : ToForm (JobStore J) where
  toForm jobs :=
    .fields
      [entry "active"
        (jobs.active.map fun job => Form.jobSummary job ++ [toForm (Job.isFuture job)]),
       ("future", Form.jobIds jobs.future),
       ("past", Form.jobIds jobs.past),
       ("stale", Form.jobIds jobs.stale),
       entry "templates" jobs.byTemplate.toList]

/-- A refusal is shown with what the miner is told, if there is one. -/
def Form.ofRefusal (requestId : UInt32) (refusal : Refusal) : List (String × Form) :=
  Form.ofFailure refusal ++
    match refusal.code?, refusal.reply? requestId with
    | some code, some message => [entry "code" code, ("reply", Form.ofRecord message.body)]
    | _, _ => []

instance : ToForm AnyChannel where
  toForm
    | .standard channel => toForm channel
    | .extended channel => toForm channel
    | .group channel => toForm channel

end MiningPool
