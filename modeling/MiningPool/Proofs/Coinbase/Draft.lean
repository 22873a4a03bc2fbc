import MiningPool.Coinbase.Halves
import MiningPool.Coinbase.Witness
import MiningPool.Proofs.Bitcoin.Transaction

/-!
# Drafts of coinbases

A draft is a coinbase without its extranonce.  Its halves, with an extranonce between
them, are the form of the coinbase with its witness; without the witness they are the
form that determines its identifier.
-/

namespace MiningPool.Coinbase

open MiningPool.Bitcoin MiningPool.Digest

/--
Bytes are the form with witnesses of a transaction whose script ends in an extranonce and
whose identifier leads to a root.
-/
structure Commits
    (coinbase extranonce : Bytes)
    (path : List Hash)
    (root : Hash)
    (transaction : Transaction) :
    Prop where
  written : coinbase = transaction.writeFull
  witnessed : transaction.hasWitness = true
  /-- The script of the only input ends in the extranonce. -/
  script : ∃ input start, transaction.inputs = [input] ∧ input.script = start ++ extranonce
  /-- From the double digest of the plain form, one hash of the path is digested after the other. -/
  root : root.bytes =
    path.foldl (fun root node => Sha256.hash (Sha256.hash (root ++ node.bytes)))
      (Sha256.hash (Sha256.hash transaction.writePlain))

/-- A coinbase whose extranonce is still to be chosen. -/
structure Draft where
  version : UInt32
  lockTime : UInt32
  sequence : UInt32
  scriptStart : Bytes
  outputs : List Output
  /-- The script has room for an extranonce. -/
  fits : scriptStart.length + extranonceSize ≤ maxScriptSize

namespace Draft

variable (draft : Draft)

/-- The coinbase with an extranonce. -/
def transaction (extranonce : Bytes) : Transaction :=
  Coinbase.transaction draft.version draft.lockTime draft.sequence draft.scriptStart extranonce
    draft.outputs

/-- The bytes between the version or the marker and the extranonce. -/
def front : Bytes :=
  [1] ++ List.replicate 32 0 ++ writeWord 0xffffffff ++
    [UInt8.ofNat (draft.scriptStart.length + extranonceSize)] ++ draft.scriptStart

/-- The bytes between the extranonce and the witness or the lock time. -/
def back : Bytes :=
  writeWord draft.sequence ++ writeList Output.write draft.outputs

/-- The bytes of the witness. -/
def witness : Bytes :=
  witnessFront ++ List.replicate 32 0

/-- The halves of the form with the witness. -/
def halves : Halves where
  front := writeWord draft.version ++ witnessMarker ++ draft.front
  back := draft.back ++ witness ++ writeWord draft.lockTime
  outputs := draft.outputs

/-- The first half of the form without the witness. -/
def plainFront : Bytes :=
  writeWord draft.version ++ draft.front

/-- The second half of the form without the witness. -/
def plainBack : Bytes :=
  draft.back ++ writeWord draft.lockTime

theorem writeInput_transaction
    (extranonce : Bytes)
    (whole : extranonce.length = extranonceSize) :
    writeList Input.write (draft.transaction extranonce).inputs =
      draft.front ++ extranonce ++ writeWord draft.sequence := by
  have size : draft.scriptStart.length + extranonceSize < 0xfd :=
    Nat.lt_of_le_of_lt draft.fits (by decide)
  simp only [transaction, Coinbase.transaction, inputOf, writeList, List.length_singleton,
    List.flatMap_cons, List.flatMap_nil, Input.write, writeBytes, List.length_append, whole,
    CompactSize.write, if_pos size, front]
  simp

theorem writeFull_transaction
    (extranonce : Bytes)
    (whole : extranonce.length = extranonceSize) :
    (draft.transaction extranonce).writeFull =
      draft.halves.front ++ extranonce ++ draft.halves.back := by
  have items : writeList writeBytes [List.replicate 32 0] = witness := rfl
  rw [Transaction.writeFull, draft.writeInput_transaction extranonce whole]
  simp only [transaction, Coinbase.transaction, inputOf, List.flatMap_cons, List.flatMap_nil, items,
    halves, back, witnessMarker]
  simp

theorem writePlain_transaction
    (extranonce : Bytes)
    (whole : extranonce.length = extranonceSize) :
    (draft.transaction extranonce).writePlain =
      draft.plainFront ++ extranonce ++ draft.plainBack := by
  rw [Transaction.writePlain, draft.writeInput_transaction extranonce whole]
  simp only [transaction, Coinbase.transaction, plainFront, plainBack, back]
  simp

theorem length_front_halves :
    draft.halves.front.length = scriptOffset + draft.scriptStart.length := by
  simp [halves, front, writeWord, witnessMarker, scriptOffset]
  omega

/-- What is cut around an extranonce are the halves of a draft. -/
theorem build_ok
    (version lockTime sequence : UInt32)
    (scriptStart : Bytes)
    (outputs : List Output)
    (halves : Halves)
    (built : Halves.build version lockTime sequence scriptStart outputs = .ok halves) :
    ∃ fits, halves = Draft.halves ⟨version, lockTime, sequence, scriptStart, outputs, fits⟩ := by
  unfold Halves.build at built
  dsimp only at built
  split at built
  · cases built
  next fits =>
    cases built
    let draft : Draft := ⟨version, lockTime, sequence, scriptStart, outputs, Nat.not_lt.mp fits⟩
    refine ⟨draft.fits, ?_⟩
    have written := draft.writeFull_transaction (List.replicate extranonceSize 0) (by simp)
    have cutAt := draft.length_front_halves
    have start : (draft.halves.front ++ List.replicate extranonceSize 0).length =
        scriptOffset + scriptStart.length + extranonceSize := by
      rw [List.length_append, cutAt, List.length_replicate]
    change Halves.mk ((draft.transaction _).writeFull.take _)
      ((draft.transaction _).writeFull.drop _) outputs = draft.halves
    rw [written, List.drop_left' start, List.append_assoc, List.take_left' cutAt]
    rfl

theorem length_writeVersion : (writeWord draft.version).length = versionSize :=
  Bytes.length_ofNatLE 4 _

theorem length_writeLockTime : (writeWord draft.lockTime).length = lockTimeSize :=
  Bytes.length_ofNatLE 4 _

/-- Without the witness the halves are those of the plain form. -/
theorem stripWitness?_halves :
    stripWitness? draft.halves.front draft.halves.back =
      .ok (some (draft.plainFront, draft.plainBack)) := by
  have version : draft.halves.front =
      writeWord draft.version ++ (witnessMarker ++ draft.front) := List.append_assoc _ _ _
  have marked : (writeWord draft.version ++ witnessMarker).length = versionSize + 2 := by
    rw [List.length_append, draft.length_writeVersion]
    rfl
  have lockTime : draft.halves.back =
      draft.back ++ (witness ++ writeWord draft.lockTime) := List.append_assoc _ _ _
  have witnessed : (draft.back ++ witness).length = draft.back.length + witnessSize := by
    simp [witness, witnessFront, witnessSize]
  have backLength :
      draft.halves.back.length = draft.back.length + witnessSize + lockTimeSize := by
    rw [lockTime, ← List.append_assoc, List.length_append, witnessed, draft.length_writeLockTime]
  have longFront : ¬ draft.halves.front.length < versionSize + 2 := by
    rw [draft.length_front_halves, scriptOffset, versionSize]
    omega
  have marker : hasMarker draft.halves.front = true := by
    rw [hasMarker, version, List.drop_left' draft.length_writeVersion]
    rfl
  have longBack : ¬ draft.halves.back.length < witnessSize + lockTimeSize := by
    omega
  have lockTimeStart :
      draft.halves.back.length - lockTimeSize = draft.back.length + witnessSize := by
    omega
  have single : (draft.halves.back.drop draft.back.length).take 2 = witnessFront := by
    rw [lockTime, List.drop_left]
    rfl
  have front₁ : draft.halves.front.take versionSize = writeWord draft.version := by
    rw [version, List.take_left' draft.length_writeVersion]
  have front₂ : draft.halves.front.drop (versionSize + 2) = draft.front := by
    rw [halves, List.drop_left' marked]
  have back₁ : draft.halves.back.take draft.back.length = draft.back := by
    rw [lockTime, List.take_left]
  have back₂ : draft.halves.back.drop (draft.back.length + witnessSize) =
      writeWord draft.lockTime := by
    rw [halves, List.drop_left' witnessed]
  unfold stripWitness?
  rw [if_neg longFront, if_neg (by simp [marker]), if_neg longBack]
  simp only [lockTimeStart, Nat.add_sub_cancel, single, ne_eq, not_true_eq_false, if_false]
  rw [front₁, front₂, back₁, back₂]
  rfl

theorem stripWitness_halves :
    stripWitness draft.halves.front draft.halves.back =
      .ok (draft.plainFront, draft.plainBack) := by
  rw [stripWitness, draft.stripWitness?_halves]

/-- The halves of the plain form hold no witness. -/
theorem stripWitness?_plain :
    stripWitness? draft.plainFront draft.plainBack = .ok none := by
  have long : ¬ draft.plainFront.length < versionSize + 2 := by
    rw [plainFront, List.length_append, draft.length_writeVersion, front, versionSize]
    simp only [List.length_append, List.length_replicate, List.length_singleton]
    omega
  -- Where the marker would be stands the count of the inputs, which is one.
  have unmarked : hasMarker draft.plainFront = false := by
    rw [hasMarker, plainFront, List.drop_left' draft.length_writeVersion]
    rfl
  rw [stripWitness?, if_neg long, unmarked]
  rfl

/-! ## Roots -/

section Roots

variable
  {draft : Draft}
  {extranonce : Bytes}
  {path : List Hash}
  {root : Hash}
  (whole : extranonce.length = extranonceSize)

include whole

/-- The only input of a coinbase keeps to the limits of inputs. -/
theorem inputs_fit :
    ((draft.transaction extranonce).inputs.map Input.bare).length < UInt64.size ∧
      ∀ input ∈ (draft.transaction extranonce).inputs.map Input.bare, input.Fits := by
  have script : (draft.scriptStart ++ extranonce).length < UInt64.size := by
    rw [List.length_append, whole]
    exact Nat.lt_of_le_of_lt draft.fits (by decide)
  have single : 1 < UInt64.size := by decide
  refine ⟨single, ?_⟩
  simp only [transaction, Coinbase.transaction, List.map_cons, List.map_nil, List.mem_singleton,
    forall_eq]
  exact ⟨List.length_replicate .., script, rfl⟩

/-- With its plain form between its halves, a coinbase commits to the root they give. -/
theorem commits_of_plain
    (computed : merkleRoot? draft.plainFront draft.plainBack extranonce path = some root) :
    Commits (draft.halves.front ++ extranonce ++ draft.halves.back) extranonce path root
      (draft.transaction extranonce) := by
  refine ⟨(draft.writeFull_transaction extranonce whole).symm, rfl, ⟨_, _, rfl, rfl⟩, ?_⟩
  rw [merkleRoot?, ← draft.writePlain_transaction extranonce whole] at computed
  split at computed
  · cases computed
  next other taken =>
    cases computed
    have unmarked : ¬ ((draft.transaction extranonce).inputs.map Input.bare).isEmpty = true := by
      simp [transaction, Coinbase.transaction]
    have front := Transaction.readFront_of_read _ _ taken
    rw [Transaction.writePlain, ← writeList_bare, List.append_assoc, List.append_assoc,
      Transaction.readFront_eq _ _ _ (inputs_fit whole), if_neg unmarked,
      Transaction.readPlainRest_eq_some] at front
    obtain ⟨-, inputs, -⟩ := front
    have bare : ∀ input ∈ other.inputs, input.witness = [] := by
      rw [inputs]
      exact fun input member => ((inputs_fit whole).2 input member).witness
    have spends : other.inputs ≠ [] := by
      rw [inputs]
      simp [transaction, Coinbase.transaction]
    have written := ((Transaction.read_eq_some _ _).mp taken).2
    rw [other.write_of_bare bare spends] at written
    rw [bytes_foldPath, Transaction.identifier, ← written]
    rfl

/-- So does the transaction that the form with the witness is read as. -/
theorem commits_of_full
    (computed : merkleRoot? draft.halves.front draft.halves.back extranonce path = some root) :
    ∃ transaction,
      Commits (draft.halves.front ++ extranonce ++ draft.halves.back) extranonce path root
        transaction := by
  rw [merkleRoot?] at computed
  split at computed
  · cases computed
  next other taken =>
    cases computed
    have written := ((Transaction.read_eq_some _ _).mp taken).2
    rw [← draft.writeFull_transaction extranonce whole] at taken
    obtain ⟨same, witnessed⟩ := Transaction.bare_inputs_of_full _ other (inputs_fit whole) taken
    obtain ⟨input, rest, inputs, bare, none⟩ := List.map_eq_cons_iff.mp same
    rw [List.map_nil, List.map_eq_nil_iff] at none
    subst none
    have spends : other.inputs ≠ [] := by
      simp [inputs]
    rw [other.write_of_witness witnessed] at written
    exact ⟨other, written, witnessed.resolve_right spends,
      ⟨input, draft.scriptStart, inputs, congrArg Input.script bare⟩, bytes_foldPath _ _⟩

end Roots

end Draft

end MiningPool.Coinbase
