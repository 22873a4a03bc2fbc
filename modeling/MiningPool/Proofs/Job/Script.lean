import MiningPool.Proofs.Job.Outputs

/-!
# Scripts of coinbases

The script of the coinbase of a template starts with what the template asks for, which is the
height of the block, pushes the tag of the pool and ends in a push of the extranonce.  It is
measured three times: by the tag that a factory is given, by the push of the tag, and as a
whole when the coinbase is made.  The first two draw the same line, and behind it the third
refuses a template only when what it asks for is longer than any height.

A template with a height therefore makes a job, unless it is hindered by something that has
nothing to do with its script.
-/

namespace MiningPool

open MiningPool.Bitcoin MiningPool.Coinbase MiningPool.Message.Mining
open MiningPool.Message.TemplateDistribution

namespace Bitcoin

/-- The longest text that a single byte in front of it pushes. -/
def maxDirectPush : Nat := 75

/-- Bytes are a text behind its length, which is one of those that push what follows. -/
structure PushesDirectly (push text : Bytes) : Prop where
  some_text : 0 < text.length
  direct : text.length ≤ maxDirectPush
  opcode : ∃ length : UInt8, push = length :: text ∧ length.toNat = text.length

end Bitcoin

namespace Coinbase

/-- Halves, with any extranonce between them, are a transaction with a given script. -/
def Halves.Scripted (halves : Halves) (script : (extranonce : Bytes) → Bytes) : Prop :=
  ∀ extranonce, extranonce.length = extranonceSize →
    ∃ (transaction : Transaction) (input : Input),
      halves.front ++ extranonce ++ halves.back = transaction.writeFull ∧
        transaction.inputs = [input] ∧ input.script = script extranonce

/-- Without the witness, the first half fits into a message. -/
def Halves.FrontFits (halves : Halves) : Prop :=
  ∃ front back, stripWitness halves.front halves.back = .ok (front, back) ∧
    ∃ blob : Wire.Blob .b064k, Wire.Blob.ofBytes front = .ok blob

namespace Draft

variable (draft : Draft)

theorem scripted : draft.halves.Scripted (draft.scriptStart ++ ·) :=
  fun extranonce whole =>
    ⟨draft.transaction extranonce, _, (draft.writeFull_transaction extranonce whole).symm, rfl, rfl⟩

theorem length_plainFront : draft.plainFront.length = 42 + draft.scriptStart.length := by
  rw [plainFront, List.length_append, draft.length_writeVersion, front, versionSize]
  simp [writeWord]
  omega

theorem exists_front :
    ∃ blob : Wire.Blob .b064k, Wire.Blob.ofBytes draft.plainFront = .ok blob := by
  have fits := draft.fits
  have length := draft.length_plainFront
  have admitted : Wire.Width.b064k.Admits draft.plainFront.length := by
    show draft.plainFront.length ≤ 0xffff
    rw [maxScriptSize, extranonceSize] at fits
    omega
  exact ⟨⟨draft.plainFront, admitted⟩, dif_pos admitted⟩

theorem frontFits : draft.halves.FrontFits :=
  ⟨draft.plainFront, draft.plainBack, draft.stripWitness_halves, draft.exists_front⟩

/-- The number of bytes behind the extranonce of a coinbase that has no witness. -/
def backSize (outputs : List Output) : Nat :=
  4 + (writeList Output.write outputs).length + lockTimeSize

theorem length_plainBack : draft.plainBack.length = backSize draft.outputs := by
  rw [plainBack, List.length_append, draft.length_writeLockTime, back, List.length_append,
    writeWord, Bytes.length_ofNatLE, backSize]

/-- A root is missing only for outputs that are longer than any number tells. -/
theorem large_of_merkleRoot?
    {extranonce : Bytes}
    {path : List Hash}
    (whole : extranonce.length = extranonceSize)
    (rootless : merkleRoot? draft.halves.front draft.halves.back extranonce path = none) :
    UInt64.size ≤ backSize draft.outputs := by
  refine Nat.not_lt.mp fun small => ?_
  rw [← draft.length_plainBack, plainBack, List.length_append] at small
  have readable := draft.readable_of_back (Nat.lt_of_le_of_lt (Nat.le_add_right _ _) small)
  rw [merkleRoot?_halves readable whole] at rootless
  cases rootless

end Draft

end Coinbase

namespace JobFactory

variable
  {factory : JobFactory}
  {push : Bytes}
  {template : NewTemplate}
  {rewards : List Output}

/-! ## The tag -/

theorem length_delimitedTag (factory : JobFactory) :
    factory.delimitedTag.length = factory.tagBytes.length + 3 := by
  simp [delimitedTag]

/-- The room for the tag is what the whole script leaves to it. -/
theorem length_delimitedTag_le_iff (factory : JobFactory) :
    factory.delimitedTag.length ≤ maxTagSize ↔ factory.maxScriptLength ≤ maxScriptSize := by
  rw [length_delimitedTag, maxTagSize, maxScriptLength, maxScriptSize, maxHeightSize,
    extranonceSize]
  omega

theorem fitsScript_iff (factory : JobFactory) :
    factory.fitsScript = true ↔ factory.maxScriptLength ≤ maxScriptSize :=
  decide_eq_true_iff

theorem pushTag_of_fits
    (fits : factory.maxScriptLength ≤ maxScriptSize) :
    factory.pushTag =
      .ok (UInt8.ofNat factory.delimitedTag.length :: factory.delimitedTag) := by
  rw [← length_delimitedTag_le_iff] at fits
  exact if_neg (Nat.not_lt.mpr fits)

theorem pushTag_of_not_fits
    (long : ¬ factory.maxScriptLength ≤ maxScriptSize) :
    factory.pushTag = .error .invalidFront := by
  rw [← length_delimitedTag_le_iff] at long
  exact if_pos (Nat.not_le.mp long)

/-- The script has room for the tag exactly when the tag is pushed. -/
theorem fits_iff_exists_pushTag (factory : JobFactory) :
    factory.maxScriptLength ≤ maxScriptSize ↔ ∃ push, factory.pushTag = .ok push := by
  constructor
  · exact fun fits => ⟨_, pushTag_of_fits fits⟩
  · rintro ⟨push, pushed⟩
    refine Decidable.byContradiction fun long => ?_
    rw [pushTag_of_not_fits long] at pushed
    cases pushed

theorem length_push
    (pushed : factory.pushTag = .ok push) :
    push.length = factory.tagBytes.length + 4 := by
  rw [factory.pushTag_ok push pushed, List.length_cons, length_delimitedTag]

/-- A tag that is pushed is short enough for its length to be the opcode. -/
theorem pushesDirectly
    (pushed : factory.pushTag = .ok push) :
    PushesDirectly push factory.delimitedTag := by
  have fits := factory.fits_iff_exists_pushTag.mpr ⟨push, pushed⟩
  rw [← length_delimitedTag_le_iff, maxTagSize, maxScriptSize, maxHeightSize,
    extranonceSize] at fits
  refine ⟨?_, ?_, _, factory.pushTag_ok push pushed, ?_⟩
  · rw [length_delimitedTag]
    exact Nat.succ_pos _
  · rw [maxDirectPush]
    omega
  · rw [UInt8.toNat_ofNat']
    exact Nat.mod_eq_of_lt (by omega)

/-! ## The whole script -/

/-- The start of the script of a coinbase: what the template asks for, and two pushes. -/
def scriptStart (template : NewTemplate) (push : Bytes) : Bytes :=
  template.coinbasePrefix.bytes ++ push ++ [UInt8.ofNat extranonceSize]

/-- The number of bytes of the script, with the extranonce. -/
def scriptLength (template : NewTemplate) (push : Bytes) : Nat :=
  (scriptStart template push).length + extranonceSize

theorem scriptLength_eq (template : NewTemplate) (push : Bytes) :
    scriptLength template push =
      template.coinbasePrefix.bytes.length + push.length + 1 + extranonceSize := by
  simp only [scriptLength, scriptStart, List.length_append, List.length_singleton]

/-- The rewards spend what a template leaves to them, and its bytes list its outputs. -/
structure InOrder (template : NewTemplate) (rewards : List Output) : Prop where
  rewarded : Rewarded template rewards
  listed : ∃ outputs,
    Lists template.coinbaseTxOutputs.bytes template.coinbaseTxOutputsCount outputs

/-- What a template asks for is not longer than the height of a block can be. -/
def Short (template : NewTemplate) : Prop :=
  template.coinbasePrefix.bytes.length ≤ maxHeightSize

instance (template : NewTemplate) : Decidable (Short template) :=
  inferInstanceAs (Decidable (_ ≤ _))

/-- A tag that fits leaves room for every height. -/
theorem scriptLength_le_of_short
    (pushed : factory.pushTag = .ok push)
    (short : Short template) :
    scriptLength template push ≤ maxScriptSize := by
  have fits := factory.fits_iff_exists_pushTag.mpr ⟨push, pushed⟩
  have length := length_push pushed
  rw [maxScriptLength] at fits
  rw [Short] at short
  rw [scriptLength_eq]
  omega

theorem halves_eq_error_iff
    (version lockTime sequence : UInt32)
    (start : Bytes)
    (outputs : List Output)
    (failure : JobError) :
    halves version lockTime sequence start outputs = .error failure ↔
      failure = .scriptTooLong (start.length + extranonceSize) ∧
        maxScriptSize < start.length + extranonceSize := by
  unfold halves Halves.build
  by_cases long : maxScriptSize < start.length + extranonceSize
  · simp [long, eq_comm]
  · simp [long]

/-- Everything else in order, the coinbase of a template fails when its script is too long. -/
theorem templateHalves_eq_error_iff
    (pushed : factory.pushTag = .ok push)
    (inOrder : InOrder template rewards)
    (failure : JobError) :
    factory.templateHalves template rewards = .error failure ↔
      failure = .scriptTooLong (scriptLength template push) ∧
        maxScriptSize < scriptLength template push := by
  obtain ⟨rewarded, outputs, listed⟩ := inOrder
  rw [templateHalves, (checkRewards_eq_ok_iff template rewards).mpr rewarded]
  dsimp only
  rw [(templateOutputs_eq_ok_iff template.coinbaseTxOutputs outputs _).mpr listed]
  dsimp only
  rw [pushed]
  exact halves_eq_error_iff _ _ _ _ _ failure

/-- Behind a height, a tag that is pushed never fails a coinbase. -/
theorem exists_templateHalves
    (pushed : factory.pushTag = .ok push)
    (inOrder : InOrder template rewards)
    (short : Short template) :
    ∃ halves, factory.templateHalves template rewards = .ok halves := by
  cases built : factory.templateHalves template rewards with
  | ok halves => exact ⟨halves, rfl⟩
  | error failure =>
    have long := ((templateHalves_eq_error_iff pushed inOrder failure).mp built).2
    exact absurd (scriptLength_le_of_short pushed short) (Nat.not_le.mpr long)

/-- A tag that does not fit fails the coinbase of every template. -/
theorem templateHalves_of_not_fits
    (long : ¬ factory.maxScriptLength ≤ maxScriptSize)
    (inOrder : InOrder template rewards) :
    factory.templateHalves template rewards = .error .invalidFront := by
  obtain ⟨rewarded, outputs, listed⟩ := inOrder
  rw [templateHalves, (checkRewards_eq_ok_iff template rewards).mpr rewarded]
  dsimp only
  rw [(templateOutputs_eq_ok_iff template.coinbaseTxOutputs outputs _).mpr listed]
  dsimp only
  rw [pushTag_of_not_fits long]

/-- The coinbase that is made has the script that was measured. -/
theorem scripted_of_templateHalves
    (pushed : factory.pushTag = .ok push)
    (halves : Halves)
    (built : factory.templateHalves template rewards = .ok halves) :
    halves.Scripted (scriptStart template push ++ ·) := by
  obtain ⟨outputs, other, fits, -, same, rfl⟩ :=
    factory.templateHalves_ok template rewards halves built
  cases pushed.symm.trans same
  exact Draft.scripted _

/--
The limit on scripts is the same wherever something is measured against it: at the tag that is
given, at the push of the tag and at the coinbase that is made.
-/
structure MeasuresAlike (factory : JobFactory) : Prop where
  /-- There is room for the tag exactly when it is pushed. -/
  room : factory.maxScriptLength ≤ maxScriptSize ↔ ∃ push, factory.pushTag = .ok push
  direct : ∀ push, factory.pushTag = .ok push → PushesDirectly push factory.delimitedTag
  /-- Behind a tag that is pushed, a coinbase fails exactly when its script is too long. -/
  refused : ∀ push template rewards failure,
    factory.pushTag = .ok push → InOrder template rewards →
      (factory.templateHalves template rewards = .error failure ↔
        failure = .scriptTooLong (scriptLength template push) ∧
          maxScriptSize < scriptLength template push)
  /-- With a height it never is. -/
  built : ∀ push template rewards,
    factory.pushTag = .ok push → InOrder template rewards → Short template →
      ∃ halves, factory.templateHalves template rewards = .ok halves
  /-- Without room for the tag every coinbase fails. -/
  unbuilt : ∀ template rewards,
    ¬ factory.maxScriptLength ≤ maxScriptSize → InOrder template rewards →
      factory.templateHalves template rewards = .error .invalidFront
  /-- The coinbase that is made has the script that was measured. -/
  scripted : ∀ push template rewards halves,
    factory.pushTag = .ok push → factory.templateHalves template rewards = .ok halves →
      halves.Scripted (scriptStart template push ++ ·) ∧ halves.FrontFits

theorem frontFits_of_templateHalves
    (halves : Halves)
    (built : factory.templateHalves template rewards = .ok halves) :
    halves.FrontFits := by
  obtain ⟨_, _, _, -, -, rfl⟩ := factory.templateHalves_ok template rewards halves built
  exact Draft.frontFits _

theorem frontFits_of_customHalves
    (request : SetCustomMiningJob)
    (halves : Halves)
    (built : customHalves request = .ok halves) :
    halves.FrontFits := by
  obtain ⟨_, _, -, rfl⟩ := customHalves_ok request halves built
  exact Draft.frontFits _

theorem measuresAlike (factory : JobFactory) : factory.MeasuresAlike where
  room := factory.fits_iff_exists_pushTag
  direct _ pushed := pushesDirectly pushed
  refused _ _ _ failure pushed inOrder := templateHalves_eq_error_iff pushed inOrder failure
  built _ _ _ pushed inOrder short := exists_templateHalves pushed inOrder short
  unbuilt _ _ long inOrder := templateHalves_of_not_fits long inOrder
  scripted _ _ _ halves pushed made :=
    ⟨scripted_of_templateHalves pushed halves made, frontFits_of_templateHalves halves made⟩

/-! ## Jobs -/

/--
What besides its script can keep a template from making a job.  A coinbase whose outputs take
up too much is reported differently for the two kinds of jobs, and at different limits.
-/
inductive Hindered
    (template : NewTemplate)
    (tip : Option ChainTip)
    (rewards : List Output)
    (limit : Nat)
    (report : JobError) :
    JobError → Prop
  | tipless
      (current : template.futureTemplate = false)
      (unknown : tip = none) :
      Hindered template tip rewards limit report .chainTipRequired
  | overflowing
      (large : UInt64.size ≤ rewardSum rewards) :
      Hindered template tip rewards limit report .rewardOverflow
  | unbalanced
      (differs : ¬ Rewarded template rewards) :
      Hindered template tip rewards limit report
        (.wrongReward template.coinbaseTxValueRemaining.toNat (rewardSum rewards))
  | unlisted
      (missing : ∀ outputs,
        ¬ Lists template.coinbaseTxOutputs.bytes template.coinbaseTxOutputsCount outputs) :
      Hindered template tip rewards limit report (.malformedOutputs .malformed)
  | oversized
      (own : List Output)
      (listed : Lists template.coinbaseTxOutputs.bytes template.coinbaseTxOutputsCount own)
      (large : limit ≤ Draft.backSize (rewards ++ own)) :
      Hindered template tip rewards limit report report

/-- A template makes a job, or something besides its script hinders it. -/
inductive Yields
    {ε α : Type}
    (reword : JobError → ε)
    (template : NewTemplate)
    (tip : Option ChainTip)
    (rewards : List Output)
    (limit : Nat)
    (report : JobError) :
    Except ε α → Prop
  | made (job : α) : Yields reword template tip rewards limit report (.ok job)
  | hindered
      (failure : JobError)
      (hindered : Hindered template tip rewards limit report failure) :
      Yields reword template tip rewards limit report (.error (reword failure))

section Yields

variable
  {tip : Option ChainTip}
  {limit : Nat}
  {report : JobError}

theorem hindered_of_minNtime
    {failure : JobError}
    (failed : minNtime template tip = .error failure) :
    Hindered template tip rewards limit report failure := by
  unfold minNtime at failed
  split at failed
  · cases failed
  next current =>
    split at failed
    next =>
      cases failed
      exact .tipless (eq_false_of_ne_true current) rfl
    next => cases failed

theorem hindered_of_checkRewards
    {failure : JobError}
    (failed : checkRewards template rewards = .error failure) :
    Hindered template tip rewards limit report failure := by
  unfold checkRewards at failed
  dsimp only at failed
  split at failed
  next large =>
    cases failed
    exact .overflowing large
  next =>
    split at failed
    next differs =>
      cases failed
      exact .unbalanced differs
    next => cases failed

/-- A template with a height has a coinbase, or something besides its script hinders it. -/
theorem templateHalves_of_short
    (fits : factory.maxScriptLength ≤ maxScriptSize)
    (short : Short template)
    (rewards : List Output) :
    (∃ draft own,
      factory.templateHalves template rewards = .ok (Draft.halves draft) ∧
      Lists template.coinbaseTxOutputs.bytes template.coinbaseTxOutputsCount own ∧
      draft.outputs = rewards ++ own) ∨
    ∃ failure, factory.templateHalves template rewards = .error failure ∧
      ∀ tip limit report, Hindered template tip rewards limit report failure := by
  obtain ⟨push, pushed⟩ := factory.fits_iff_exists_pushTag.mp fits
  cases checked : checkRewards template rewards with
  | error failure =>
    refine .inr ⟨failure, ?_, fun _ _ _ => hindered_of_checkRewards checked⟩
    rw [templateHalves, checked]
  | ok =>
    have rewarded := (checkRewards_eq_ok_iff template rewards).mp checked
    cases listed : templateOutputs template.coinbaseTxOutputs.bytes
      template.coinbaseTxOutputsCount with
    | error failure =>
      refine .inr ⟨.malformedOutputs failure, ?_, ?_⟩
      · rw [templateHalves, checked]
        dsimp only
        rw [listed]
      · cases failure
        exact fun _ _ _ => .unlisted ((templateOutputs_eq_error_iff _ _ _).mp listed)
    | ok own =>
      have lists := (templateOutputs_eq_ok_iff _ _ _).mp listed
      obtain ⟨halves, built⟩ := exists_templateHalves pushed ⟨rewarded, own, lists⟩ short
      obtain ⟨outputs, _, draftFits, same, -, rfl⟩ :=
        factory.templateHalves_ok template rewards halves built
      cases listed.symm.trans same
      exact .inl ⟨_, own, built, lists, rfl⟩

/-- A standard job is made unless outputs take up more bytes than are ever read. -/
theorem yields_standardJob
    (fits : factory.maxScriptLength ≤ maxScriptSize)
    (short : Short template)
    (channelId : UInt32)
    (tip : Option ChainTip)
    {extranoncePrefix : Bytes}
    (whole : extranoncePrefix.length = extranonceSize)
    (rewards : List Output) :
    Yields id template tip rewards UInt64.size .noMerkleRoot
      (factory.standardJob channelId tip extranoncePrefix template rewards).2 := by
  unfold standardJob
  cases timed : minNtime template tip with
  | error failure => exact .hindered failure (hindered_of_minNtime timed)
  | ok time =>
    dsimp only
    rcases factory.templateHalves_of_short fits short rewards with
      ⟨draft, own, built, listed, outputs⟩ | ⟨failure, failed, hindered⟩
    · rw [built]
      dsimp only
      cases computed : merkleRoot? draft.halves.front draft.halves.back extranoncePrefix
        template.merklePath.items with
      | some root => exact .made _
      | none =>
        have large := draft.large_of_merkleRoot? whole computed
        exact .hindered _ (.oversized own listed (outputs ▸ large))
    · rw [failed]
      exact .hindered failure (hindered tip _ _)

/-- The first half of a draft always fits into the message of an extended job. -/
theorem extendedJob_of_draft
    (content : ExtendedContent)
    (extranoncePrefix : Bytes)
    (draft : Draft) :
    (∃ job, (factory.extendedJob content extranoncePrefix draft.halves).2 = .ok job) ∨
      (factory.extendedJob content extranoncePrefix draft.halves).2 = .error .invalidBack ∧
        UInt16.size ≤ Draft.backSize draft.outputs := by
  obtain ⟨front, taken⟩ := draft.exists_front
  unfold extendedJob
  rw [draft.stripWitness_halves]
  dsimp only
  rw [taken]
  by_cases admitted : Wire.Width.b064k.Admits draft.plainBack.length
  · refine .inl ?_
    rw [Wire.Blob.ofBytes, dif_pos admitted]
    exact ⟨_, rfl⟩
  · refine .inr ⟨?_, ?_⟩
    · rw [Wire.Blob.ofBytes, dif_neg admitted]
    · rw [← draft.length_plainBack]
      exact Nat.not_le.mp admitted

/-- An extended job is made unless its outputs do not fit into a message. -/
theorem yields_templateJob
    (fits : factory.maxScriptLength ≤ maxScriptSize)
    (short : Short template)
    (channelId : UInt32)
    (tip : Option ChainTip)
    (extranoncePrefix : Bytes)
    (rewards : List Output) :
    Yields id template tip rewards UInt16.size .invalidBack
      (factory.templateJob channelId tip extranoncePrefix template rewards).2 := by
  unfold templateJob
  cases timed : minNtime template tip with
  | error failure => exact .hindered failure (hindered_of_minNtime timed)
  | ok time =>
    dsimp only
    rcases factory.templateHalves_of_short fits short rewards with
      ⟨draft, own, built, listed, outputs⟩ | ⟨failure, failed, hindered⟩
    · rw [built]
      dsimp only
      rcases factory.extendedJob_of_draft
        ⟨.template template, channelId, time, template.version, template.merklePath⟩
        extranoncePrefix draft with ⟨job, made⟩ | ⟨refused, large⟩
      · rw [made]
        exact .made job
      · rw [refused]
        exact .hindered _ (.oversized own listed (outputs ▸ large))
    · rw [failed]
      exact .hindered failure (hindered tip _ _)

end Yields

end JobFactory

end MiningPool
