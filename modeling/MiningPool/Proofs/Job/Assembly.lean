import MiningPool.Proofs.Coinbase.Draft
import MiningPool.Proofs.Job.Factory
import MiningPool.Proofs.Job.Store

/-!
# How jobs are put together

Whether a job comes from a template or from the wishes of a miner, its coinbase is a
draft that was cut around the extranonce: the job keeps the halves with the witness and
sends those without it.  A job with a fixed root is put together with its extranonce at
once.  So the bytes that a job keeps and the root that its shares commit to belong to the
same transaction, and being activated changes neither.
-/

namespace MiningPool

open MiningPool.Bitcoin MiningPool.Coinbase MiningPool.Message.Mining
open MiningPool.Message.TemplateDistribution

theorem Wire.Blob.bytes_ofBytes
    {width : Wire.Width}
    {bytes : Bytes}
    {blob : Wire.Blob width}
    (taken : Wire.Blob.ofBytes bytes = .ok blob) :
    blob.bytes = bytes := by
  unfold Wire.Blob.ofBytes at taken
  split at taken
  · cases taken
    rfl
  · cases taken

/-- The hashes that lead from the coinbase to the root of the tree of transactions. -/
def JobOrigin.merklePath : JobOrigin → List Hash
  | .template source => source.merklePath.items
  | .custom request => request.merklePath.items

/-- A job for many channels that a factory made, and that may be activated since. -/
inductive ExtendedJob.Made : ExtendedJob → Prop
  | template
      (factory later : JobFactory)
      (channelId : UInt32)
      (tip : Option ChainTip)
      (extranoncePrefix : Bytes)
      (template : NewTemplate)
      (rewards : List Output)
      (job : ExtendedJob)
      (made : factory.templateJob channelId tip extranoncePrefix template rewards =
        (later, .ok job)) :
      Made job
  | custom
      (factory later : JobFactory)
      (request : SetCustomMiningJob)
      (extranoncePrefix : Bytes)
      (job : ExtendedJob)
      (made : factory.customJob request extranoncePrefix = (later, .ok job)) :
      Made job
  | activated
      (job : ExtendedJob)
      (time : UInt32)
      (made : Made job) :
      Made (Job.activate job time)

/-- The halves of a job, with the witness and without it, are those of one draft. -/
structure ExtendedJob.Assembled (job : ExtendedJob) (draft : Draft) : Prop where
  fullFront : job.fullFront = draft.halves.front
  fullBack : job.fullBack = draft.halves.back
  plainFront : job.message.coinbaseTxPrefix.bytes = draft.plainFront
  plainBack : job.message.coinbaseTxSuffix.bytes = draft.plainBack
  merklePath : job.message.merklePath.items = job.origin.merklePath

/-- A job with a fixed root has the whole extranonce, and its coinbase leads to the root. -/
structure StandardJob.Assembled (job : StandardJob) (transaction : Transaction) : Prop where
  whole : job.extranoncePrefix.length = extranonceSize
  commits :
    Commits job.coinbase job.extranoncePrefix job.template.merklePath.items
      job.message.merkleRoot transaction

/-! ## Factories -/

namespace JobFactory

theorem halves_ok
    (version lockTime sequence : UInt32)
    (scriptStart : Bytes)
    (outputs : List Output)
    (cut : Halves)
    (built : halves version lockTime sequence scriptStart outputs = .ok cut) :
    ∃ fits, cut = Draft.halves ⟨version, lockTime, sequence, scriptStart, outputs, fits⟩ := by
  unfold halves at built
  split at built
  · cases built
  next found =>
    cases built
    exact Draft.build_ok _ _ _ _ _ _ found

theorem pushTag_ok
    (factory : JobFactory)
    (push : Bytes)
    (pushed : factory.pushTag = .ok push) :
    push = UInt8.ofNat factory.delimitedTag.length :: factory.delimitedTag := by
  unfold pushTag at pushed
  dsimp only at pushed
  split at pushed
  · cases pushed
  · cases pushed
    rfl

/-- The draft of a template has its outputs behind the rewards, and the tag behind its height. -/
theorem templateHalves_ok
    (factory : JobFactory)
    (template : NewTemplate)
    (rewards : List Output)
    (cut : Halves)
    (built : factory.templateHalves template rewards = .ok cut) :
    ∃ outputs push fits,
      templateOutputs template.coinbaseTxOutputs.bytes template.coinbaseTxOutputsCount =
        .ok outputs ∧
      factory.pushTag = .ok push ∧
      cut = Draft.halves
        ⟨template.coinbaseTxVersion, template.coinbaseTxLocktime,
         template.coinbaseTxInputSequence,
         template.coinbasePrefix.bytes ++ push ++ [UInt8.ofNat extranonceSize],
         rewards ++ outputs, fits⟩ := by
  unfold templateHalves at built
  split at built
  · cases built
  · split at built
    · cases built
    next outputs listed =>
      split at built
      · cases built
      next push pushed =>
        obtain ⟨fits, same⟩ := halves_ok _ _ _ _ _ _ built
        exact ⟨outputs, push, fits, listed, pushed, same⟩

theorem customHalves_ok
    (request : SetCustomMiningJob)
    (cut : Halves)
    (built : customHalves request = .ok cut) :
    ∃ outputs fits,
      customOutputs request.coinbaseTxOutputs.bytes = .ok outputs ∧
      cut = Draft.halves
        ⟨request.coinbaseTxVersion, request.coinbaseTxLocktime,
         request.coinbaseTxInputNsequence, request.coinbasePrefix.bytes, outputs, fits⟩ := by
  unfold customHalves at built
  split at built
  · cases built
  next outputs listed =>
    obtain ⟨fits, same⟩ := halves_ok _ _ _ _ _ _ built
    exact ⟨outputs, fits, listed, same⟩

/-- An extended job is told by its content and the draft, whose halves fit into its message. -/
theorem extendedJob_draft
    (factory later : JobFactory)
    (content : ExtendedContent)
    (extranoncePrefix : Bytes)
    (draft : Draft)
    (job : ExtendedJob)
    (made : factory.extendedJob content extranoncePrefix draft.halves = (later, .ok job)) :
    later = factory.advance ∧
      ∃ front back : Wire.Blob .b064k,
        front.bytes = draft.plainFront ∧ back.bytes = draft.plainBack ∧
        job =
          { origin := content.origin
            extranoncePrefix
            outputs := draft.outputs
            fullFront := draft.halves.front
            fullBack := draft.halves.back
            message :=
              { channelId := content.channelId
                jobId := factory.advance.lastId
                minNtime := content.minNtime
                version := content.version
                versionRollingAllowed := factory.versionRolling
                merklePath := content.merklePath
                coinbaseTxPrefix := front
                coinbaseTxSuffix := back } } := by
  unfold extendedJob at made
  rw [draft.stripWitness_halves] at made
  dsimp only at made
  split at made
  · cases made
  · cases made
  next front back frontTaken backTaken =>
    cases made
    exact ⟨rfl, front, back, Wire.Blob.bytes_ofBytes frontTaken,
      Wire.Blob.bytes_ofBytes backTaken, rfl⟩

/-- An extended job sends the halves of the draft without the witness. -/
theorem assembled_extendedJob
    (factory later : JobFactory)
    (content : ExtendedContent)
    (extranoncePrefix : Bytes)
    (draft : Draft)
    (job : ExtendedJob)
    (sourced : content.merklePath.items = content.origin.merklePath)
    (made : factory.extendedJob content extranoncePrefix draft.halves = (later, .ok job)) :
    job.Assembled draft := by
  obtain ⟨-, front, back, frontTaken, backTaken, rfl⟩ :=
    factory.extendedJob_draft later content extranoncePrefix draft job made
  exact ⟨rfl, rfl, frontTaken, backTaken, sourced⟩

theorem assembled_templateJob
    (factory later : JobFactory)
    (channelId : UInt32)
    (tip : Option ChainTip)
    (extranoncePrefix : Bytes)
    (template : NewTemplate)
    (rewards : List Output)
    (job : ExtendedJob)
    (made : factory.templateJob channelId tip extranoncePrefix template rewards =
      (later, .ok job)) :
    ∃ draft, job.Assembled draft := by
  obtain ⟨time, cut, -, built, made⟩ := (factory.templateJob_eq_ok_iff _ _ _ _ _ _ _).mp made
  obtain ⟨outputs, push, fits, -, -, rfl⟩ := factory.templateHalves_ok template rewards cut built
  exact ⟨_, assembled_extendedJob _ _ _ _ _ job rfl made⟩

theorem assembled_customJob
    (factory later : JobFactory)
    (request : SetCustomMiningJob)
    (extranoncePrefix : Bytes)
    (job : ExtendedJob)
    (made : factory.customJob request extranoncePrefix = (later, .ok job)) :
    ∃ draft, job.Assembled draft := by
  obtain ⟨cut, built, made⟩ := (factory.customJob_eq_ok_iff _ _ _ _).mp made
  obtain ⟨outputs, fits, -, rfl⟩ := customHalves_ok request cut built
  exact ⟨_, assembled_extendedJob _ _ _ _ _ job rfl made⟩

/-- A standard job is put together with the whole extranonce of its channel. -/
theorem assembled_standardJob
    (factory later : JobFactory)
    (channelId : UInt32)
    (tip : Option ChainTip)
    (extranoncePrefix : Bytes)
    (template : NewTemplate)
    (rewards : List Output)
    (job : StandardJob)
    (whole : extranoncePrefix.length = extranonceSize)
    (made : factory.standardJob channelId tip extranoncePrefix template rewards =
      (later, .ok job)) :
    ∃ transaction, job.Assembled transaction := by
  obtain ⟨time, cut, root, -, built, computed, -, rfl⟩ :=
    (factory.standardJob_eq_ok_iff _ _ _ _ _ _ _).mp made
  obtain ⟨outputs, push, fits, -, -, rfl⟩ := factory.templateHalves_ok template rewards cut built
  obtain ⟨transaction, commits⟩ := Draft.commits_of_full whole computed
  exact ⟨transaction, whole, commits⟩

end JobFactory

/-! ## Jobs -/

namespace ExtendedJob

theorem Assembled.activate
    {job : ExtendedJob}
    {draft : Draft}
    (assembled : job.Assembled draft)
    (time : UInt32) :
    ExtendedJob.Assembled (Job.activate job time) draft :=
  ⟨assembled.fullFront, assembled.fullBack, assembled.plainFront, assembled.plainBack,
    assembled.merklePath⟩

theorem Made.assembled {job : ExtendedJob} (made : job.Made) :
    ∃ draft, job.Assembled draft := by
  induction made with
  | template factory later channelId tip extranoncePrefix template rewards job made =>
    exact factory.assembled_templateJob later channelId tip extranoncePrefix template rewards job
      made
  | custom factory later request extranoncePrefix job made =>
    exact factory.assembled_customJob later request extranoncePrefix job made
  | activated job time _ ih =>
    obtain ⟨draft, assembled⟩ := ih
    exact ⟨draft, assembled.activate time⟩

/-- A job of a template becomes that of one channel when its root can be computed. -/
theorem toStandard_eq_ok_iff
    (job : ExtendedJob)
    (channelId : UInt32)
    (extranoncePrefix : Bytes)
    (own : StandardJob) :
    job.toStandard channelId extranoncePrefix = .ok own ↔
      ∃ template root, job.origin = .template template ∧
        job.merkleRoot? extranoncePrefix = some root ∧
        own =
          { template
            extranoncePrefix
            outputs := job.outputs
            fullFront := job.fullFront
            fullBack := job.fullBack
            message :=
              { channelId
                jobId := job.message.jobId
                minNtime := job.message.minNtime
                version := job.message.version
                merkleRoot := root } } := by
  unfold toStandard
  constructor
  · intro converted
    split at converted
    · cases converted
    next template origin =>
      split at converted
      · cases converted
      next root computed =>
        cases converted
        exact ⟨template, root, origin, computed, rfl⟩
  · rintro ⟨template, root, origin, computed, rfl⟩
    rw [origin]
    dsimp only
    rw [computed]

/-- The coinbase of a job with an extranonce leads to the root that a miner computes. -/
theorem Assembled.commits
    {job : ExtendedJob}
    {draft : Draft}
    (assembled : job.Assembled draft)
    (extranonce : Bytes)
    (whole : extranonce.length = extranonceSize)
    (root : Hash)
    (computed : job.merkleRoot? extranonce = some root) :
    Commits (job.coinbase extranonce) extranonce job.message.merklePath.items root
      (draft.transaction extranonce) := by
  rw [merkleRoot?, assembled.plainFront, assembled.plainBack] at computed
  rw [coinbase, assembled.fullFront, assembled.fullBack]
  exact Draft.commits_of_plain whole computed

/-- So does that of the job with a fixed root that it is turned into. -/
theorem Assembled.toStandard
    {job : ExtendedJob}
    {draft : Draft}
    (assembled : job.Assembled draft)
    (channelId : UInt32)
    (extranoncePrefix : Bytes)
    (whole : extranoncePrefix.length = extranonceSize)
    (standard : StandardJob)
    (converted : job.toStandard channelId extranoncePrefix = .ok standard) :
    standard.Assembled (draft.transaction extranoncePrefix) := by
  obtain ⟨template, root, origin, computed, rfl⟩ :=
    (job.toStandard_eq_ok_iff channelId extranoncePrefix standard).mp converted
  have commits := assembled.commits extranoncePrefix whole root computed
  rw [assembled.merklePath, origin] at commits
  exact ⟨whole, commits⟩

end ExtendedJob

theorem StandardJob.Assembled.activate
    {job : StandardJob}
    {transaction : Transaction}
    (assembled : job.Assembled transaction)
    (time : UInt32) :
    StandardJob.Assembled (Job.activate job time) transaction :=
  ⟨assembled.whole, assembled.commits⟩

/-! ## Stores -/

namespace JobStore

variable {J : Type} [Job J]

/-- What holds of every job of a store, at whatever stage. -/
def All (store : JobStore J) (holds : J → Prop) : Prop :=
  ∀ stage id job, store.at? stage id = some job → holds job

variable {store : JobStore J} {holds : J → Prop}

theorem all_empty (holds : J → Prop) : (empty : JobStore J).All holds := by
  intro stage id job held
  rw [at?_empty] at held
  cases held

theorem All.addFuture
    (all : store.All holds)
    (templateId : UInt64)
    (job : J)
    (new : holds job) :
    (store.addFuture templateId job).All holds := by
  intro stage id other held
  rw [at?_addFuture] at held
  split at held
  · cases held
    exact new
  · exact all _ _ _ held

theorem All.addActive
    (all : store.All holds)
    (job : J)
    (new : holds job) :
    (store.addActive job).All holds := by
  intro stage id other held
  rw [at?_addActive] at held
  cases stage with
  | future | stale => exact all _ _ _ held
  | active =>
    simp only [Option.ite_none_right_eq_some, Option.some.injEq] at held
    exact held.2 ▸ new
  | past =>
    rcases Option.or_eq_some_iff.mp held with active | ⟨-, past⟩
    · exact all _ _ _ active
    · exact all _ _ _ past

theorem All.markPastStale (all : store.All holds) : store.markPastStale.All holds := by
  intro stage id job held
  rw [at?_markPastStale] at held
  cases stage with
  | future | active => exact all _ _ _ held
  | past => cases held
  | stale => exact all _ _ _ held

theorem All.activate?
    (all : store.All holds)
    (activated : JobStore J)
    (templateId : UInt64)
    (time : UInt32)
    (kept : ∀ job, holds job → holds (Job.activate job time))
    (done : store.activate? templateId time = some activated) :
    activated.All holds := by
  obtain ⟨id, job, -, waiting, -, -, places⟩ := activate?_eq_some store activated _ _ done
  intro stage other present held
  rw [places] at held
  cases stage with
  | future | past => cases held
  | active =>
    simp only [Option.ite_none_right_eq_some, Option.some.injEq] at held
    exact held.2 ▸ kept job (all _ _ _ waiting)
  | stale =>
    rcases Option.or_eq_some_iff.mp held with active | ⟨-, past⟩
    · exact all _ _ _ active
    · exact all _ _ _ past

end JobStore

end MiningPool
