import MiningPool.Proofs.Coinbase.Root
import MiningPool.Proofs.Job.Assembly

/-!
# Coinbases of jobs

When a coinbase is made from a template or from the wishes of a miner, its halves are told
by what the message says: with any extranonce between them they are the form with the
witness of one transaction, and taking the witness out leaves the halves of its plain form.
Miners who have the plain halves and pools that keep the full ones come to the same root.
-/

namespace MiningPool

open MiningPool.Bitcoin MiningPool.Coinbase MiningPool.Digest MiningPool.Message.Mining
open MiningPool.Message.TemplateDistribution

/--
Halves, with an extranonce between them, are the full form of a coinbase.  The witness can
be taken out of them once, which leaves the halves of its plain form.
-/
structure Coinbase.Halves.Agree
    (halves : Halves)
    (coinbase : (extranonce : Bytes) → Transaction) :
    Prop where
  full : ∀ extranonce, extranonce.length = extranonceSize →
    halves.front ++ extranonce ++ halves.back = (coinbase extranonce).writeFull
  plain : ∃ front back,
    stripWitness? halves.front halves.back = .ok (some (front, back)) ∧
      stripWitness? front back = .ok none ∧
      ∀ extranonce, extranonce.length = extranonceSize →
        front ++ extranonce ++ back = (coinbase extranonce).writePlain

/--
With and without the witness, halves lead along any path to the same root: from the double
digest of the plain form, one hash of the path is digested after the other.
-/
def Coinbase.Halves.SameRoot (halves : Halves) : Prop :=
  ∀ front back, stripWitness? halves.front halves.back = .ok (some (front, back)) →
    ∀ extranonce path, extranonce.length = extranonceSize →
      ∃ root,
        merkleRoot? front back extranonce path = some root ∧
        merkleRoot? halves.front halves.back extranonce path = some root ∧
        root.bytes =
          path.foldl (fun root node => Sha256.hash (Sha256.hash (root ++ node.bytes)))
            (Sha256.hash (Sha256.hash (front ++ extranonce ++ back)))

namespace Coinbase.Draft

theorem agree (draft : Draft) : draft.halves.Agree draft.transaction where
  full extranonce whole := (draft.writeFull_transaction extranonce whole).symm
  plain :=
    ⟨_, _, draft.stripWitness?_halves, draft.stripWitness?_plain,
      fun extranonce whole => (draft.writePlain_transaction extranonce whole).symm⟩

theorem Readable.sameRoot
    {draft : Draft}
    (readable : draft.Readable) :
    draft.halves.SameRoot := by
  intro front back stripped extranonce path whole
  rw [draft.stripWitness?_halves] at stripped
  cases stripped
  exact ⟨_, merkleRoot?_plain readable whole path, merkleRoot?_halves readable whole path,
    bytes_foldPath _ path⟩

end Coinbase.Draft

/-! ## Roots of jobs -/

namespace ExtendedJob

section Assembled

variable
  {job : ExtendedJob}
  {draft : Draft}
  (assembled : job.Assembled draft)

include assembled

/-- The coinbase of a job has a second half that fits into a message, so it can be read. -/
theorem Assembled.readable : draft.Readable := by
  have admitted : draft.plainBack.length ≤ Wire.Width.b064k.max :=
    assembled.plainBack ▸ job.message.coinbaseTxSuffix.admitted
  rw [Draft.plainBack, List.length_append] at admitted
  exact draft.readable_of_back (Nat.lt_of_le_of_lt (Nat.le_of_add_right_le admitted) (by decide))

/-- Every extranonce leads to a root. -/
theorem Assembled.exists_root
    (extranonce : Bytes)
    (whole : extranonce.length = extranonceSize) :
    ∃ root, job.merkleRoot? extranonce = some root := by
  rw [merkleRoot?, assembled.plainFront, assembled.plainBack]
  exact ⟨_, Draft.merkleRoot?_plain assembled.readable whole _⟩

end Assembled

end ExtendedJob

/-! ## Outputs of messages -/

namespace Coinbase

/-- A single output is read when it is not too large. -/
theorem exact_readOutput :
    Exact readOutput Output.write
      (fun output => output.Fits ∧ output.write.length ≤ readLimit) := by
  intro input output rest
  unfold readOutput
  constructor
  · intro taken
    split at taken
    · cases taken
    next other after found =>
      split at taken
      next small =>
        cases taken
        obtain ⟨fits, same⟩ := (Bitcoin.exact_readOutput _ _ _).mp found
        exact ⟨⟨fits, small⟩, same⟩
      next => cases taken
  · rintro ⟨⟨fits, small⟩, same⟩
    rw [(Bitcoin.exact_readOutput input output rest).mpr ⟨fits, same⟩]
    exact if_pos small

/-- The outputs of a template are as many as it says, one after the other. -/
theorem templateOutputs_ok
    (bytes : Bytes)
    (count : UInt32)
    (outputs : List Output)
    (listed : templateOutputs bytes count = .ok outputs) :
    outputs.length = count.toNat ∧ outputs.flatMap Output.write <+: bytes := by
  unfold templateOutputs at listed
  split at listed
  · cases listed
  next found =>
    cases listed
    obtain ⟨more, rfl, counted, -, rfl⟩ := (readItems_eq_some exact_readOutput _ _ _ _ _).mp found
    exact ⟨counted, List.prefix_append _ _⟩

/-- The outputs that a miner chose are a list behind its count. -/
theorem customOutputs_ok
    (bytes : Bytes)
    (outputs : List Output)
    (listed : customOutputs bytes = .ok outputs) :
    (outputs.length < UInt64.size ∧ ∀ output ∈ outputs, output.Fits) ∧
      writeList Output.write outputs <+: bytes := by
  unfold customOutputs at listed
  split at listed
  · cases listed
  next found =>
    split at listed
    · cases listed
      obtain ⟨fit, rfl⟩ := (exact_readList Bitcoin.exact_readOutput _ _ _).mp found
      exact ⟨fit, List.prefix_append _ _⟩
    · cases listed

end Coinbase

namespace JobFactory

/--
A coinbase that is made from a template or from the wishes of a miner is told by the
message: its script is the start that the message asks for, for a template followed by the
tag of the pool and the length of the extranonce, and then the extranonce.  Its outputs are
the rewards, if there are any, and then those of the message.  The halves, with and without
the witness, are those of this coinbase and lead to the same root; for the root the coinbase
must be read, so the number of its bytes, which only the memory that holds them limits, has
to be one of 64 bits.
-/
theorem coinbase_forms_agree :
    (∀ factory template rewards halves,
      templateHalves factory template rewards = .ok halves →
      ∃ outputs push,
        outputs.length = template.coinbaseTxOutputsCount.toNat ∧
        outputs.flatMap Output.write <+: template.coinbaseTxOutputs.bytes ∧
        factory.pushTag = .ok push ∧
        push = UInt8.ofNat factory.delimitedTag.length :: factory.delimitedTag ∧
        (halves.Agree fun extranonce =>
          { version := template.coinbaseTxVersion
            inputs :=
              [inputOf (template.coinbasePrefix.bytes ++ push ++ [0x20] ++ extranonce)
                template.coinbaseTxInputSequence]
            outputs := rewards ++ outputs
            lockTime := template.coinbaseTxLocktime }) ∧
        (halves.back.length < UInt64.size → halves.SameRoot)) ∧
    (∀ request halves,
      customHalves request = .ok halves →
      ∃ outputs,
        writeList Output.write outputs <+: request.coinbaseTxOutputs.bytes ∧
        (halves.Agree fun extranonce =>
          { version := request.coinbaseTxVersion
            inputs :=
              [inputOf (request.coinbasePrefix.bytes ++ extranonce)
                request.coinbaseTxInputNsequence]
            outputs
            lockTime := request.coinbaseTxLocktime }) ∧
        halves.SameRoot) := by
  constructor
  · intro factory template rewards halves built
    obtain ⟨outputs, push, fits, listed, pushed, rfl⟩ :=
      factory.templateHalves_ok template rewards halves built
    obtain ⟨counted, placed⟩ := templateOutputs_ok _ _ outputs listed
    refine ⟨outputs, push, counted, placed, pushed, factory.pushTag_ok push pushed, ?_, ?_⟩
    · exact Draft.agree _
    · exact fun held => (Draft.readable_of_halves _ held).sameRoot
  · intro request halves built
    obtain ⟨outputs, fits, listed, rfl⟩ := customHalves_ok request halves built
    obtain ⟨readable, placed⟩ := customOutputs_ok _ outputs listed
    exact ⟨outputs, placed, Draft.agree _, Draft.Readable.sameRoot readable⟩

/-- A template with an output of its own. -/
def outputTemplate : NewTemplate where
  templateId := 5
  futureTemplate := true
  version := 0x20000000
  coinbaseTxVersion := 2
  coinbasePrefix := ⟨[0x02, 0x10, 0x27], by decide⟩
  coinbaseTxInputSequence := 0xfffffffe
  coinbaseTxValueRemaining := 50
  coinbaseTxOutputsCount := 1
  coinbaseTxOutputs := ⟨Output.write ⟨0, [0x6a]⟩, by decide⟩
  coinbaseTxLocktime := 7
  merklePath := .empty

/-- A job with the same output, as a miner wishes it. -/
def outputRequest : SetCustomMiningJob where
  channelId := 1
  requestId := 2
  miningJobToken := .blank _
  version := 0x20000000
  prevHash := .blank _
  minNtime := 1700000000
  nbits := 0x1d00ffff
  coinbaseTxVersion := 2
  coinbasePrefix := ⟨[0x02, 0x10, 0x27, 0x20], by decide⟩
  coinbaseTxInputNsequence := 0xfffffffe
  coinbaseTxOutputs := ⟨writeList Output.write [⟨0, [0x6a]⟩], by decide⟩
  coinbaseTxLocktime := 7
  merklePath := .empty

/-- The coinbases of both messages are made, and each agrees in its forms. -/
theorem coinbase_forms_agree_output :
    ∃ halves custom coinbase wished,
      templateHalves (start true (some "pool")) outputTemplate [⟨50, [0x51]⟩] = .ok halves ∧
      halves.Agree coinbase ∧ halves.back.length < UInt64.size ∧ halves.SameRoot ∧
      customHalves outputRequest = .ok custom ∧ custom.Agree wished ∧ custom.SameRoot := by
  have templated :
      (templateHalves (start true (some "pool")) outputTemplate [⟨50, [0x51]⟩]).toOption.any
        (fun halves => halves.back.length < UInt64.size) = true := by
    decide +kernel
  have requested : (customHalves outputRequest).toBool = true := by
    decide +kernel
  cases built : templateHalves (start true (some "pool")) outputTemplate [⟨50, [0x51]⟩] with
  | error failure =>
    rw [built] at templated
    cases templated
  | ok halves =>
    cases customBuilt : customHalves outputRequest with
    | error failure =>
      rw [customBuilt] at requested
      cases requested
    | ok custom =>
      rw [built] at templated
      have held : halves.back.length < UInt64.size := of_decide_eq_true templated
      obtain ⟨_, _, -, -, -, -, agree, sameRoot⟩ := coinbase_forms_agree.1 _ _ _ halves built
      obtain ⟨_, -, wishedAgree, wishedRoot⟩ := coinbase_forms_agree.2 _ custom customBuilt
      exact ⟨halves, custom, _, _, rfl, agree, held, sameRoot held, rfl, wishedAgree, wishedRoot⟩

end JobFactory

end MiningPool
