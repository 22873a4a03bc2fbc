import MiningPool.Proofs.Coinbase.Draft

/-!
# Roots of drafts

A draft whose outputs can be read back leads to the same root in both forms, with its
witness and without it.  The first form is read as the coinbase itself and the second as
the coinbase without its witness, and the identifier is the hash of the second in either
case.
-/

namespace MiningPool

open MiningPool.Bitcoin MiningPool.Coinbase

namespace Bitcoin

/-! ## Limits of outputs -/

theorem Output.script_lt_write (output : Output) :
    output.script.length < output.write.length := by
  simp only [write, writeBytes, List.length_append, Bytes.length_ofNatLE]
  omega

theorem Output.length_le_flatMap_write (outputs : List Output) :
    outputs.length ≤ (outputs.flatMap Output.write).length := by
  induction outputs with
  | nil => exact Nat.le_refl 0
  | cons output rest ih =>
    have script := output.script_lt_write
    rw [List.flatMap_cons, List.length_append, List.length_cons]
    omega

/-- Outputs that take up few enough bytes to be counted keep to the limits of outputs. -/
theorem Output.fit_of_length
    (outputs : List Output)
    (held : (outputs.flatMap Output.write).length < UInt64.size) :
    ∀ output ∈ outputs, output.Fits := by
  intro output member
  obtain ⟨before, after, rfl⟩ := List.append_of_mem member
  have script := output.script_lt_write
  rw [List.flatMap_append, List.flatMap_cons, List.length_append, List.length_append] at held
  rw [Output.Fits]
  omega

/-! ## Transactions without witnesses -/

/-- The transaction without its witnesses. -/
def Transaction.bare (transaction : Transaction) : Transaction :=
  { transaction with inputs := transaction.inputs.map Input.bare }

theorem Transaction.writePlain_bare (transaction : Transaction) :
    transaction.bare.writePlain = transaction.writePlain := by
  rw [writePlain, bare, writeList_bare]
  rfl

/-- A transaction has the identifier that it has without its witnesses. -/
theorem Transaction.identifier_bare (transaction : Transaction) :
    transaction.bare.identifier = transaction.identifier := by
  rw [identifier, writePlain_bare, identifier]

end Bitcoin

namespace Coinbase.Draft

variable (draft : Draft)

/-- The outputs of a draft keep to the limits of outputs. -/
def Readable : Prop :=
  draft.outputs.length < UInt64.size ∧ ∀ output ∈ draft.outputs, output.Fits

/-- The outputs of a draft whose second half is not too long can be read back. -/
theorem readable_of_back
    (held : draft.back.length < UInt64.size) :
    draft.Readable := by
  have listed : (draft.outputs.flatMap Output.write).length < UInt64.size := by
    rw [back, writeList, List.length_append, List.length_append] at held
    omega
  have counted := Output.length_le_flatMap_write draft.outputs
  exact ⟨Nat.lt_of_le_of_lt counted listed, Output.fit_of_length draft.outputs listed⟩

theorem readable_of_halves
    (held : draft.halves.back.length < UInt64.size) :
    draft.Readable := by
  refine draft.readable_of_back (Nat.lt_of_le_of_lt ?_ held)
  rw [halves, List.length_append, List.length_append]
  omega

section Readable

variable
  {draft : Draft}
  (readable : draft.Readable)
  {extranonce : Bytes}
  (whole : extranonce.length = extranonceSize)

include readable whole

theorem fits_transaction : (draft.transaction extranonce).Fits where
  inputs := by
    obtain ⟨counted, fit⟩ := @inputs_fit draft _ whole
    rw [List.length_map] at counted
    exact ⟨counted, fun input member => fit _ (List.mem_map_of_mem member)⟩
  outputs := readable
  witnesses := by
    have single : 1 < UInt64.size := by decide
    simp only [transaction, Coinbase.transaction, List.mem_singleton, forall_eq]
    refine ⟨single, fun item member => ?_⟩
    rw [List.mem_singleton.mp member, List.length_replicate]
    decide

theorem fits_bare : (draft.transaction extranonce).bare.Fits where
  inputs := by
    obtain ⟨counted, fit⟩ := @inputs_fit draft _ whole
    refine ⟨counted, fun input member => ?_⟩
    exact ⟨(fit input member).source, (fit input member).script, rfl⟩
  outputs := readable
  witnesses := by
    intro input member
    rw [Input.WitnessFits, ((inputs_fit whole).2 input member).witness]
    exact ⟨by decide, fun item member => absurd member List.not_mem_nil⟩

theorem read_halves :
    Transaction.read (draft.halves.front ++ extranonce ++ draft.halves.back) =
      some (draft.transaction extranonce) := by
  rw [Transaction.read_eq_some, Transaction.write_of_witness _ (.inl rfl),
    draft.writeFull_transaction extranonce whole]
  exact ⟨fits_transaction readable whole, rfl⟩

theorem read_plain :
    Transaction.read (draft.plainFront ++ extranonce ++ draft.plainBack) =
      some (draft.transaction extranonce).bare := by
  have bare : ∀ input ∈ (draft.transaction extranonce).bare.inputs, input.witness = [] :=
    fun input member => ((inputs_fit whole).2 input member).witness
  have spends : (draft.transaction extranonce).bare.inputs ≠ [] := List.cons_ne_nil _ _
  rw [Transaction.read_eq_some, Transaction.write_of_bare _ bare spends,
    Transaction.writePlain_bare, draft.writePlain_transaction extranonce whole]
  exact ⟨fits_bare readable whole, rfl⟩

/-- Without its witness, a draft leads to the root of the hash of the bytes it makes up. -/
theorem merkleRoot?_plain (path : List Hash) :
    merkleRoot? draft.plainFront draft.plainBack extranonce path =
      some (foldPath (hashOf (draft.plainFront ++ extranonce ++ draft.plainBack)) path) := by
  rw [merkleRoot?, read_plain readable whole, ← draft.writePlain_transaction extranonce whole,
    ← Transaction.identifier, ← Transaction.identifier_bare]

/-- With its witness it leads to the same root. -/
theorem merkleRoot?_halves (path : List Hash) :
    merkleRoot? draft.halves.front draft.halves.back extranonce path =
      some (foldPath (hashOf (draft.plainFront ++ extranonce ++ draft.plainBack)) path) := by
  rw [merkleRoot?, read_halves readable whole, ← draft.writePlain_transaction extranonce whole,
    ← Transaction.identifier]

end Readable

end Coinbase.Draft

end MiningPool
