import MiningPool.Form.Entry
import MiningPool.Job.Basic

/-!
# Jobs in forms

A job is shown with its message and with what the message leaves out: where the job
comes from, whether it waits for a block, and its coinbase with the witness.
-/

namespace MiningPool

open MiningPool.Bitcoin

instance : ToForm Output where
  toForm output := toForm (output.value, output.script)

instance : OfForm Output where
  ofForm form := do
    let (value, script) ← ofForm form
    return ⟨value, script⟩

instance : ToForm ChainTip where
  toForm tip :=
    .fields
      [entry "prev_hash" tip.prevHash, entry "nbits" tip.nbits, entry "min_ntime" tip.minNtime]

instance : OfForm ChainTip where
  ofForm form := do
    return ⟨← form.get "prev_hash", ← form.get "nbits", ← form.get "min_ntime"⟩

instance : ToForm JobOrigin where
  toForm
    | .template source => toForm ("NewTemplate", source.templateId)
    | .custom request => toForm ("SetCustomMiningJob", request.requestId)

/-- What is shown of jobs of every kind. -/
def Form.jobEntries {J : Type} [Job J] (job : J) : List (String × Form) :=
  [entry "job_id" (Job.id job),
   entry "template_id" (Job.templateId job),
   entry "min_ntime" (Job.minNtime job),
   entry "is_future" (Job.isFuture job)]

/-- The id, the template and the least time of a job. -/
def Form.jobSummary {J : Type} [Job J] (job : J) : List Form :=
  [toForm (Job.id job), toForm (Job.templateId job), toForm (Job.minNtime job)]

instance : ToForm StandardJob where
  toForm job :=
    .fields <| Form.jobEntries job ++
      [entry "version" job.message.version,
       entry "merkle_root" job.message.merkleRoot,
       entry "extranonce_prefix" job.extranoncePrefix,
       entry "outputs" job.outputs,
       entry "message" job.message,
       entry "template" job.template,
       entry "coinbase" job.coinbase]

instance : ToForm ExtendedJob where
  toForm job :=
    .fields <| Form.jobEntries job ++
      [entry "version" job.message.version,
       entry "version_rolling_allowed" job.message.versionRollingAllowed,
       entry "origin" job.origin,
       entry "extranonce_prefix" job.extranoncePrefix,
       entry "outputs" job.outputs,
       entry "message" job.message,
       entry "merkle_path" job.message.merklePath.items,
       entry "prefix" job.message.coinbaseTxPrefix,
       entry "suffix" job.message.coinbaseTxSuffix,
       entry "prefix_bip141" job.fullFront,
       entry "suffix_bip141" job.fullBack]

end MiningPool
