import MiningPool.Proofs.Job.Coinbase

/-!
# Outputs of jobs

The outputs of a coinbase are the rewards and then those that the message lists.  From a
template as many outputs are taken as it counts, from the front of its bytes, and from the
wishes of a miner the list that its bytes start with; a message whose bytes start with no
such outputs makes no job.  What is taken comes back byte for byte.  What follows is not
looked at: an output that a template lists but does not count is left out of the coinbase.
-/

namespace MiningPool

open MiningPool.Bitcoin MiningPool.Coinbase MiningPool.Message.Mining
open MiningPool.Message.TemplateDistribution

namespace Coinbase

/-- Bytes start with a number of outputs, one after the other. -/
structure Lists (bytes : Bytes) (count : UInt32) (outputs : List Output) : Prop where
  counted : outputs.length = count.toNat
  front : outputs.flatMap Output.write <+: bytes

/-- With any extranonce between them, halves are a transaction that has given outputs. -/
def Carries (front back : Bytes) (outputs : List Output) : Prop :=
  ∀ extranonce, extranonce.length = extranonceSize →
    ∃ transaction : Transaction,
      front ++ extranonce ++ back = transaction.writeFull ∧ transaction.outputs = outputs

theorem Draft.carries (draft : Draft) :
    Carries draft.halves.front draft.halves.back draft.outputs :=
  fun extranonce whole =>
    ⟨draft.transaction extranonce, (draft.writeFull_transaction extranonce whole).symm, rfl⟩

/-! ## Outputs of messages -/

/-- Outputs that fit into the bytes of a message keep to all limits. -/
theorem limits_of_length
    (outputs : List Output)
    (held : (outputs.flatMap Output.write).length ≤ Wire.Width.b064k.max) :
    outputs.length < UInt64.size ∧
      ∀ output ∈ outputs, output.Fits ∧ output.write.length ≤ readLimit := by
  have range : Wire.Width.b064k.max < UInt64.size := by decide
  have room : Wire.Width.b064k.max ≤ readLimit := by decide
  have counted := Output.length_le_flatMap_write outputs
  have fit := Output.fit_of_length outputs (Nat.lt_of_le_of_lt held range)
  refine ⟨by omega, fun output member => ⟨fit output member, ?_⟩⟩
  have part : output.write.length ≤ (outputs.flatMap Output.write).length := by
    rw [List.flatMap_def]
    exact (List.sublist_flatten_of_mem (List.mem_map_of_mem member)).length_le
  omega

section Blob

variable
  (blob : Wire.Blob .b064k)
  (outputs : List Output)

theorem templateOutputs_eq_ok_iff (count : UInt32) :
    templateOutputs blob.bytes count = .ok outputs ↔ Lists blob.bytes count outputs := by
  constructor
  · intro listed
    obtain ⟨counted, front⟩ := templateOutputs_ok _ _ outputs listed
    exact ⟨counted, front⟩
  · rintro ⟨counted, front⟩
    obtain ⟨-, limits⟩ := limits_of_length outputs (Nat.le_trans front.length_le blob.admitted)
    obtain ⟨rest, split⟩ := front
    have taken := (readItems_eq_some exact_readOutput count.toNat blob.bytes rest [] outputs).mpr
      ⟨outputs, rfl, counted, limits, split.symm⟩
    rw [templateOutputs, taken]

theorem customOutputs_eq_ok_iff :
    customOutputs blob.bytes = .ok outputs ↔ writeList Output.write outputs <+: blob.bytes := by
  constructor
  · exact fun listed => (customOutputs_ok _ outputs listed).2
  · rintro ⟨rest, split⟩
    have admitted : blob.bytes.length ≤ Wire.Width.b064k.max := blob.admitted
    have room : Wire.Width.b064k.max ≤ readLimit := by decide
    have written := congrArg List.length split
    rw [writeList, List.length_append, List.length_append] at written
    obtain ⟨bound, limits⟩ := limits_of_length outputs (by omega)
    have taken := (exact_readList Bitcoin.exact_readOutput blob.bytes outputs rest).mpr
      ⟨⟨bound, fun output member => (limits output member).1⟩, split.symm⟩
    rw [customOutputs, taken]
    exact if_pos (by omega)

theorem templateOutputs_eq_error_iff (count : UInt32) (failure : OutputsError) :
    templateOutputs blob.bytes count = .error failure ↔
      ∀ outputs, ¬ Lists blob.bytes count outputs := by
  simp only [← templateOutputs_eq_ok_iff]
  cases failure
  cases templateOutputs blob.bytes count with
  | error failure =>
    cases failure
    simp
  | ok listed => simp

theorem customOutputs_eq_error_iff (failure : OutputsError) :
    customOutputs blob.bytes = .error failure ↔
      ∀ outputs, ¬ writeList Output.write outputs <+: blob.bytes := by
  simp only [← customOutputs_eq_ok_iff]
  cases failure
  cases customOutputs blob.bytes with
  | error failure =>
    cases failure
    simp
  | ok listed => simp

end Blob

end Coinbase

namespace JobFactory

/-- Rewards spend exactly what a template leaves to them. -/
def Rewarded (template : NewTemplate) (rewards : List Output) : Prop :=
  rewardSum rewards = template.coinbaseTxValueRemaining.toNat

/-- The only outputs that the bytes of a template start with, behind rewards of its value. -/
structure FromTemplate (template : NewTemplate) (rewards outputs : List Output) : Prop where
  rewarded : Rewarded template rewards
  listed : ∃ own, outputs = rewards ++ own ∧
    ∀ others,
      Lists template.coinbaseTxOutputs.bytes template.coinbaseTxOutputsCount others ↔
        others = own

/-- The bytes of a template that is due start with fewer outputs than it counts. -/
structure Unlisted
    (template : NewTemplate)
    (tip : Option ChainTip)
    (rewards : List Output) :
    Prop where
  due : ∃ time, minNtime template tip = .ok time
  rewarded : Rewarded template rewards
  unlisted : ∀ outputs,
    ¬ Lists template.coinbaseTxOutputs.bytes template.coinbaseTxOutputsCount outputs

/-- The only list that the bytes of a request start with. -/
def FromRequest (request : SetCustomMiningJob) (outputs : List Output) : Prop :=
  ∀ others, writeList Output.write others <+: request.coinbaseTxOutputs.bytes ↔ others = outputs

/-! ## Coinbases that are made -/

/-- Rewards that spend what a template leaves never overflow a value. -/
theorem checkRewards_eq_ok_iff
    (template : NewTemplate)
    (rewards : List Output) :
    checkRewards template rewards = .ok () ↔ Rewarded template rewards := by
  have bound := template.coinbaseTxValueRemaining.toNat_lt
  have range : UInt64.size = 2 ^ 64 := rfl
  rw [Rewarded, checkRewards]
  constructor
  · intro checked
    split at checked
    · cases checked
    · split at checked
      · cases checked
      next same => exact Classical.not_not.mp same
  · intro same
    rw [if_neg (by omega), if_neg fun other => other same]

/-- The halves of a template are made of rewards that were checked, and of its outputs. -/
theorem templateHalves_fromTemplate
    (factory : JobFactory)
    (template : NewTemplate)
    (rewards : List Output)
    (halves : Halves)
    (built : factory.templateHalves template rewards = .ok halves) :
    FromTemplate template rewards halves.outputs ∧
      Carries halves.front halves.back halves.outputs := by
  have checked : checkRewards template rewards = .ok () := by
    unfold templateHalves at built
    split at built
    · cases built
    next checked => exact checked
  obtain ⟨own, push, fits, listed, -, rfl⟩ :=
    factory.templateHalves_ok template rewards halves built
  refine ⟨⟨(checkRewards_eq_ok_iff _ _).mp checked, own, rfl, fun others => ?_⟩,
    Draft.carries _⟩
  rw [← templateOutputs_eq_ok_iff, listed, Except.ok.injEq, eq_comm]

theorem customHalves_fromRequest
    (request : SetCustomMiningJob)
    (halves : Halves)
    (built : customHalves request = .ok halves) :
    FromRequest request halves.outputs ∧ Carries halves.front halves.back halves.outputs := by
  obtain ⟨outputs, fits, listed, rfl⟩ := customHalves_ok request halves built
  refine ⟨fun others => ?_, Draft.carries _⟩
  rw [← customOutputs_eq_ok_iff, listed, Except.ok.injEq, eq_comm]
  rfl

/-- An extended job has the outputs and the halves that it is made of. -/
theorem extendedJob_halves
    (factory later : JobFactory)
    (content : ExtendedContent)
    (extranoncePrefix : Bytes)
    (halves : Halves)
    (job : ExtendedJob)
    (made : factory.extendedJob content extranoncePrefix halves = (later, .ok job)) :
    job.outputs = halves.outputs ∧ job.fullFront = halves.front ∧
      job.fullBack = halves.back := by
  unfold extendedJob at made
  split at made
  · cases made
  · dsimp only at made
    split at made
    · cases made
    · cases made
    · cases made
      exact ⟨rfl, rfl, rfl⟩

/-! ## Jobs that are refused -/

theorem halves_ne_malformedOutputs
    (version lockTime sequence : UInt32)
    (scriptStart : Bytes)
    (outputs : List Output)
    (failure : OutputsError) :
    halves version lockTime sequence scriptStart outputs ≠ .error (.malformedOutputs failure) := by
  unfold halves
  split <;> exact fun same => nomatch same

theorem pushTag_ne_malformedOutputs
    (factory : JobFactory)
    (failure : OutputsError) :
    factory.pushTag ≠ .error (.malformedOutputs failure) := by
  unfold pushTag
  dsimp only
  split <;> exact fun same => nomatch same

theorem checkRewards_ne_malformedOutputs
    (template : NewTemplate)
    (rewards : List Output)
    (failure : OutputsError) :
    checkRewards template rewards ≠ .error (.malformedOutputs failure) := by
  unfold checkRewards
  dsimp only
  split
  · exact fun same => nomatch same
  · split <;> exact fun same => nomatch same

theorem minNtime_ne_malformedOutputs
    (template : NewTemplate)
    (tip : Option ChainTip)
    (failure : OutputsError) :
    minNtime template tip ≠ .error (.malformedOutputs failure) := by
  unfold minNtime
  split
  · exact fun same => nomatch same
  · split <;> exact fun same => nomatch same

theorem extendedJob_ne_malformedOutputs
    (factory : JobFactory)
    (content : ExtendedContent)
    (extranoncePrefix : Bytes)
    (halves : Halves)
    (failure : OutputsError) :
    (factory.extendedJob content extranoncePrefix halves).2 ≠
      .error (.malformedOutputs failure) := by
  unfold extendedJob
  split
  · exact fun same => nomatch same
  · dsimp only
    split <;> exact fun same => nomatch same

theorem templateHalves_malformed_iff
    (factory : JobFactory)
    (template : NewTemplate)
    (rewards : List Output)
    (failure : OutputsError) :
    factory.templateHalves template rewards = .error (.malformedOutputs failure) ↔
      Rewarded template rewards ∧
        ∀ outputs,
          ¬ Lists template.coinbaseTxOutputs.bytes template.coinbaseTxOutputsCount outputs := by
  have unlisted := templateOutputs_eq_error_iff template.coinbaseTxOutputs
    template.coinbaseTxOutputsCount failure
  have sound := checkRewards_ne_malformedOutputs template rewards failure
  rw [← unlisted, ← checkRewards_eq_ok_iff, templateHalves]
  cases checked : checkRewards template rewards with
  | error other =>
    rw [checked] at sound
    simpa using sound
  | ok =>
    cases templateOutputs template.coinbaseTxOutputs.bytes template.coinbaseTxOutputsCount with
    | error other => simp
    | ok own =>
      have tagged := factory.pushTag_ne_malformedOutputs failure
      cases pushed : factory.pushTag with
      | error other =>
        rw [pushed] at tagged
        simpa using tagged
      | ok tag => simp [halves_ne_malformedOutputs]

theorem customHalves_malformed_iff
    (request : SetCustomMiningJob)
    (failure : OutputsError) :
    customHalves request = .error (.malformedOutputs failure) ↔
      ∀ outputs, ¬ writeList Output.write outputs <+: request.coinbaseTxOutputs.bytes := by
  rw [← customOutputs_eq_error_iff request.coinbaseTxOutputs failure, customHalves]
  cases customOutputs request.coinbaseTxOutputs.bytes with
  | error other => simp
  | ok outputs => simp [halves_ne_malformedOutputs]

theorem unlisted_iff
    (factory : JobFactory)
    (template : NewTemplate)
    (tip : Option ChainTip)
    (rewards : List Output)
    (failure : OutputsError) :
    Unlisted template tip rewards ↔
      (∃ time, minNtime template tip = .ok time) ∧
        factory.templateHalves template rewards = .error (.malformedOutputs failure) := by
  rw [templateHalves_malformed_iff]
  exact ⟨fun ⟨due, rewarded, unlisted⟩ => ⟨due, rewarded, unlisted⟩,
    fun ⟨due, rewarded, unlisted⟩ => ⟨due, rewarded, unlisted⟩⟩

theorem standardJob_malformed_iff
    (factory : JobFactory)
    (channelId : UInt32)
    (tip : Option ChainTip)
    (extranoncePrefix : Bytes)
    (template : NewTemplate)
    (rewards : List Output)
    (failure : OutputsError) :
    (factory.standardJob channelId tip extranoncePrefix template rewards).2 =
        .error (.malformedOutputs failure) ↔
      Unlisted template tip rewards := by
  rw [unlisted_iff factory template tip rewards failure]
  have timed := minNtime_ne_malformedOutputs template tip failure
  unfold standardJob
  cases bound : minNtime template tip with
  | error other =>
    rw [bound] at timed
    simpa using timed
  | ok time =>
    cases factory.templateHalves template rewards with
    | error other => simp
    | ok halves =>
      dsimp only
      split <;> simp

theorem templateJob_malformed_iff
    (factory : JobFactory)
    (channelId : UInt32)
    (tip : Option ChainTip)
    (extranoncePrefix : Bytes)
    (template : NewTemplate)
    (rewards : List Output)
    (failure : OutputsError) :
    (factory.templateJob channelId tip extranoncePrefix template rewards).2 =
        .error (.malformedOutputs failure) ↔
      Unlisted template tip rewards := by
  rw [unlisted_iff factory template tip rewards failure]
  have timed := minNtime_ne_malformedOutputs template tip failure
  unfold templateJob
  cases bound : minNtime template tip with
  | error other =>
    rw [bound] at timed
    simpa using timed
  | ok time =>
    cases factory.templateHalves template rewards with
    | error other => simp
    | ok halves => simp [extendedJob_ne_malformedOutputs]

theorem customJob_malformed_iff
    (factory : JobFactory)
    (request : SetCustomMiningJob)
    (extranoncePrefix : Bytes)
    (failure : OutputsError) :
    (factory.customJob request extranoncePrefix).2 = .error (.malformedOutputs failure) ↔
      ∀ outputs, ¬ writeList Output.write outputs <+: request.coinbaseTxOutputs.bytes := by
  rw [← customHalves_malformed_iff request failure]
  unfold customJob
  cases customHalves request with
  | error other => simp
  | ok halves => simp [extendedJob_ne_malformedOutputs]

/--
The coinbase of a job that is made has the rewards, which spend what the template leaves to
them, and then the outputs that the message starts with, byte for byte.  A message is refused
for its outputs when its bytes do not start with as many as they should; bytes behind them are
not looked at.
-/
theorem outputs_reach_coinbase
    (factory : JobFactory)
    (channelId : UInt32)
    (tip : Option ChainTip)
    (extranoncePrefix : Bytes)
    (template : NewTemplate)
    (rewards : List Output)
    (request : SetCustomMiningJob) :
    (∀ later job,
      factory.standardJob channelId tip extranoncePrefix template rewards = (later, .ok job) →
        FromTemplate template rewards job.outputs ∧
          Carries job.fullFront job.fullBack job.outputs) ∧
    (∀ later job,
      factory.templateJob channelId tip extranoncePrefix template rewards = (later, .ok job) →
        FromTemplate template rewards job.outputs ∧
          Carries job.fullFront job.fullBack job.outputs) ∧
    (∀ later job,
      factory.customJob request extranoncePrefix = (later, .ok job) →
        FromRequest request job.outputs ∧ Carries job.fullFront job.fullBack job.outputs) ∧
    (∀ failure,
      (factory.standardJob channelId tip extranoncePrefix template rewards).2 =
        .error (.malformedOutputs failure) ↔ Unlisted template tip rewards) ∧
    (∀ failure,
      (factory.templateJob channelId tip extranoncePrefix template rewards).2 =
        .error (.malformedOutputs failure) ↔ Unlisted template tip rewards) ∧
    ∀ failure,
      (factory.customJob request extranoncePrefix).2 = .error (.malformedOutputs failure) ↔
        ∀ outputs, ¬ writeList Output.write outputs <+: request.coinbaseTxOutputs.bytes := by
  refine ⟨fun later job made => ?standard, fun later job made => ?template,
    fun later job made => ?custom, factory.standardJob_malformed_iff _ _ _ _ _,
    factory.templateJob_malformed_iff _ _ _ _ _, factory.customJob_malformed_iff _ _⟩
  case standard =>
    obtain ⟨_, halves, _, -, built, -, -, rfl⟩ :=
      (factory.standardJob_eq_ok_iff _ _ _ _ _ _ _).mp made
    exact factory.templateHalves_fromTemplate template rewards halves built
  case template =>
    obtain ⟨_, halves, -, built, made⟩ := (factory.templateJob_eq_ok_iff _ _ _ _ _ _ _).mp made
    obtain ⟨same, front, back⟩ := factory.extendedJob_halves _ _ _ halves job made
    rw [same, front, back]
    exact factory.templateHalves_fromTemplate template rewards halves built
  case custom =>
    obtain ⟨halves, built, made⟩ := (factory.customJob_eq_ok_iff _ _ _ _).mp made
    obtain ⟨same, front, back⟩ := factory.extendedJob_halves _ _ _ halves job made
    rw [same, front, back]
    exact customHalves_fromRequest request halves built

/-- The jobs of a template and of a request have its reward and its output. -/
theorem outputs_reach_coinbase_output :
    ∃ later job wishedLater wished,
      let factory := start true (some "pool")
      factory.templateJob 1 none [] outputTemplate [⟨50, [0x51]⟩] = (later, .ok job) ∧
      FromTemplate outputTemplate [⟨50, [0x51]⟩] job.outputs ∧
      Carries job.fullFront job.fullBack job.outputs ∧
      factory.customJob outputRequest [] = (wishedLater, .ok wished) ∧
      FromRequest outputRequest wished.outputs ∧
      Carries wished.fullFront wished.fullBack wished.outputs := by
  have templated : ((start true (some "pool")).templateJob 1 none [] outputTemplate
      [⟨50, [0x51]⟩]).2.toBool = true := by
    decide +kernel
  have requested : ((start true (some "pool")).customJob outputRequest []).2.toBool = true := by
    decide +kernel
  obtain ⟨-, fromTemplate, fromRequest, -⟩ :=
    outputs_reach_coinbase (start true (some "pool")) 1 none [] outputTemplate [⟨50, [0x51]⟩]
      outputRequest
  rcases made : (start true (some "pool")).templateJob 1 none [] outputTemplate
    [⟨50, [0x51]⟩] with ⟨later, failure | job⟩
  · rw [made] at templated
    cases templated
  rcases wishMade : (start true (some "pool")).customJob outputRequest [] with
    ⟨wishedLater, failure | wished⟩
  · rw [wishMade] at requested
    cases requested
  obtain ⟨listed, carried⟩ := fromTemplate later job made
  obtain ⟨wishListed, wishCarried⟩ := fromRequest wishedLater wished wishMade
  exact ⟨later, job, wishedLater, wished, made, listed, carried, wishMade, wishListed, wishCarried⟩

/-- A template that counts the first of its two outputs only. -/
def crowdedTemplate : NewTemplate :=
  { outputTemplate with
    coinbaseTxOutputs := ⟨Output.write ⟨0, [0x6a]⟩ ++ Output.write ⟨0, [0x6a, 1, 2]⟩, by decide⟩ }

/-- A request with a byte behind its list of outputs. -/
def crowdedRequest : SetCustomMiningJob :=
  { outputRequest with
    coinbaseTxOutputs := ⟨writeList Output.write [⟨0, [0x6a]⟩] ++ [0xff], by decide⟩ }

/-- Both are made into jobs, and what stands behind the first output is in neither. -/
theorem outputs_dropped :
    let factory := start true (some "pool")
    (factory.templateJob 1 none [] crowdedTemplate [⟨50, [0x51]⟩]).2.toOption.map
        ExtendedJob.outputs = some [⟨50, [0x51]⟩, ⟨0, [0x6a]⟩] ∧
      Output.write ⟨0, [0x6a]⟩ ≠ crowdedTemplate.coinbaseTxOutputs.bytes ∧
      (factory.customJob crowdedRequest []).2.toOption.map ExtendedJob.outputs =
        some [⟨0, [0x6a]⟩] ∧
      writeList Output.write [⟨0, [0x6a]⟩] ≠ crowdedRequest.coinbaseTxOutputs.bytes := by
  decide +kernel

end JobFactory

end MiningPool
