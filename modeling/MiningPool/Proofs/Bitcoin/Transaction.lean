import MiningPool.Bitcoin.Transaction

/-!
# Reading transactions

Each part of a transaction is read exactly from what is written for it: whatever follows,
a value is read off the front of the input just when the input starts with its bytes, and
the value keeps to the limits of its part.  So a part has one form only, and nothing is
read from any other bytes.
-/

namespace MiningPool.Bitcoin

/-- A reader takes exactly the values within the limits, each off its own bytes. -/
def Exact
    {α : Type}
    (read : Bytes → Option (α × Bytes))
    (write : α → Bytes)
    (limits : α → Prop) :
    Prop :=
  ∀ input value rest,
    read input = some (value, rest) ↔ limits value ∧ input = write value ++ rest

/-- No form starts another one, whatever follows them. -/
theorem Exact.unique
    {α : Type}
    {read : Bytes → Option (α × Bytes)}
    {write : α → Bytes}
    {limits : α → Prop}
    (exact : Exact read write limits)
    {value other : α}
    {rest after : Bytes}
    (fits : limits value)
    (otherFits : limits other)
    (same : write value ++ rest = write other ++ after) :
    value = other ∧ rest = after := by
  have first := (exact _ value rest).mpr ⟨fits, rfl⟩
  have second := (exact _ other after).mpr ⟨otherFits, same⟩
  exact Prod.mk.inj (Option.some.inj (first.symm.trans second))

/-! ## Numbers -/

theorem exact_cut? (count : Nat) :
    Exact (Bytes.cut? count) id (fun bytes => bytes.length = count) := by
  intro input bytes rest
  rw [Bytes.cut?_eq]
  constructor
  · intro taken
    split at taken
    next enough =>
      cases taken
      exact ⟨List.length_take_of_le enough, (List.take_append_drop _ _).symm⟩
    next => cases taken
  · rintro ⟨rfl, rfl⟩
    simp

/-- The number that bytes write is written in these bytes. -/
theorem ofNatLE_of_toNatLE
    (bytes : Bytes)
    (count value : Nat)
    (length : bytes.length = count)
    (same : bytes.toNatLE = value) :
    Bytes.ofNatLE count value = bytes := by
  rw [← length, ← same, Bytes.ofNatLE_toNatLE]

theorem exact_readWord : Exact readWord writeWord (fun _ => True) := by
  intro input word rest
  unfold readWord writeWord
  constructor
  · intro taken
    split at taken
    · cases taken
    next bytes after cut =>
      cases taken
      obtain ⟨length, rfl⟩ := (exact_cut? 4 _ _ _).mp cut
      refine ⟨trivial, ?_⟩
      have bound := bytes.toNatLE_lt
      rw [length] at bound
      rw [UInt32.toNat_ofNat_of_lt' bound, ofNatLE_of_toNatLE bytes 4 _ length rfl]
      rfl
  · rintro ⟨-, rfl⟩
    have cut := (exact_cut? 4 (Bytes.ofNatLE 4 word.toNat ++ rest) (Bytes.ofNatLE 4 word.toNat)
      rest).mpr ⟨Bytes.length_ofNatLE 4 _, rfl⟩
    have bound : word.toNat < Bytes.capacity 4 := word.toNat_lt
    simp only [cut, Bytes.toNatLE_ofNatLE, Nat.mod_eq_of_lt bound, UInt32.ofNat_toNat]

/-- A wide form is read when the number is too large for a shorter form. -/
theorem readWide_eq_some
    (width least : Nat)
    (input rest : Bytes)
    (value : Nat) :
    CompactSize.readWide width least input = some (value, rest) ↔
      (least ≤ value ∧ value < Bytes.capacity width) ∧
        input = Bytes.ofNatLE width value ++ rest := by
  unfold CompactSize.readWide
  constructor
  · intro taken
    split at taken
    · cases taken
    next bytes after cut =>
      dsimp only at taken
      split at taken
      next large =>
        cases taken
        obtain ⟨length, rfl⟩ := (exact_cut? width _ _ _).mp cut
        have bound := bytes.toNatLE_lt
        rw [length] at bound
        exact ⟨⟨large, bound⟩, by rw [ofNatLE_of_toNatLE bytes width _ length rfl]; rfl⟩
      next => cases taken
  · rintro ⟨⟨large, bound⟩, rfl⟩
    have cut := (exact_cut? width (Bytes.ofNatLE width value ++ rest) (Bytes.ofNatLE width value)
      rest).mpr ⟨Bytes.length_ofNatLE width _, rfl⟩
    simp only [cut, Bytes.toNatLE_ofNatLE, Nat.mod_eq_of_lt bound, if_pos large]

/-- The form of a number tells how many bytes follow its first one. -/
theorem write_compactSize (value : Nat) (bound : value < UInt64.size) :
    ∃ marker bytes, CompactSize.write value = marker :: bytes ∧
      ∀ rest, CompactSize.read (marker :: (bytes ++ rest)) = some (value, rest) := by
  have size2 : Bytes.capacity 2 = UInt16.size := rfl
  have size4 : Bytes.capacity 4 = UInt32.size := rfl
  have size8 : Bytes.capacity 8 = UInt64.size := rfl
  unfold CompactSize.write
  split
  next small =>
    refine ⟨_, [], rfl, fun rest => ?_⟩
    have byte : (UInt8.ofNat value).toNat = value :=
      UInt8.toNat_ofNat_of_lt' (Nat.lt_trans small (by decide))
    rw [CompactSize.read, byte, if_pos small]
    rfl
  next large =>
    split
    next small =>
      refine ⟨_, _, rfl, fun rest => ?_⟩
      rw [CompactSize.read, if_neg (by decide), if_pos (by decide), readWide_eq_some, size2]
      exact ⟨⟨Nat.not_lt.mp large, small⟩, rfl⟩
    next large =>
      split
      next small =>
        refine ⟨_, _, rfl, fun rest => ?_⟩
        rw [CompactSize.read, if_neg (by decide), if_neg (by decide), if_pos (by decide),
          readWide_eq_some, size4]
        exact ⟨⟨Nat.not_lt.mp large, small⟩, rfl⟩
      next large =>
        refine ⟨_, _, rfl, fun rest => ?_⟩
        rw [CompactSize.read, if_neg (by decide), if_neg (by decide), if_neg (by decide),
          readWide_eq_some, size8]
        exact ⟨⟨Nat.not_lt.mp large, bound⟩, rfl⟩

/-- Only the form of a number is read as that number. -/
theorem read_compactSize
    (input rest : Bytes)
    (value : Nat)
    (taken : CompactSize.read input = some (value, rest)) :
    value < UInt64.size ∧ input = CompactSize.write value ++ rest := by
  have size2 : Bytes.capacity 2 = UInt16.size := rfl
  have size4 : Bytes.capacity 4 = UInt32.size := rfl
  have size8 : Bytes.capacity 8 = UInt64.size := rfl
  have sizes : 0xfd < UInt16.size ∧ UInt16.size < UInt32.size ∧ UInt32.size < UInt64.size := by
    decide
  cases input with
  | nil => cases taken
  | cons marker input =>
    have byte := marker.toNat_lt
    rw [CompactSize.read] at taken
    split at taken
    next small =>
      cases taken
      refine ⟨by omega, ?_⟩
      rw [CompactSize.write, if_pos small, UInt8.ofNat_toNat]
      rfl
    next =>
      split at taken
      next two =>
        obtain ⟨⟨large, bound⟩, rfl⟩ := (readWide_eq_some _ _ _ _ _).mp taken
        obtain rfl : marker = 0xfd := UInt8.toNat_inj.mp two
        rw [CompactSize.write, if_neg (by omega), if_pos (by omega)]
        exact ⟨by omega, rfl⟩
      next =>
        split at taken
        next four =>
          obtain ⟨⟨large, bound⟩, rfl⟩ := (readWide_eq_some _ _ _ _ _).mp taken
          obtain rfl : marker = 0xfe := UInt8.toNat_inj.mp four
          rw [CompactSize.write, if_neg (by omega), if_neg (by omega), if_pos (by omega)]
          exact ⟨by omega, rfl⟩
        next =>
          obtain ⟨⟨large, bound⟩, rfl⟩ := (readWide_eq_some _ _ _ _ _).mp taken
          obtain rfl : marker = 0xff := UInt8.toNat_inj.mp (by
            rw [show (0xff : UInt8).toNat = 0xff from rfl]
            omega)
          rw [CompactSize.write, if_neg (by omega), if_neg (by omega), if_neg (by omega)]
          exact ⟨by omega, rfl⟩

theorem exact_compactSize :
    Exact CompactSize.read CompactSize.write (fun value => value < UInt64.size) := by
  intro input value rest
  refine ⟨read_compactSize input rest value, ?_⟩
  rintro ⟨bound, rfl⟩
  obtain ⟨marker, bytes, written, taken⟩ := write_compactSize value bound
  rw [written]
  exact taken rest

/-! ## Bytes and lists -/

theorem exact_readBytes :
    Exact readBytes writeBytes (fun bytes => bytes.length < UInt64.size) := by
  intro input bytes rest
  unfold readBytes writeBytes
  constructor
  · intro taken
    split at taken
    · cases taken
    next length after counted =>
      obtain ⟨bound, rfl⟩ := (exact_compactSize _ _ _).mp counted
      obtain ⟨rfl, rfl⟩ := (exact_cut? length _ _ _).mp taken
      exact ⟨bound, (List.append_assoc _ _ _).symm⟩
  · rintro ⟨bound, rfl⟩
    have counted := (exact_compactSize (CompactSize.write bytes.length ++ (bytes ++ rest))
      bytes.length (bytes ++ rest)).mpr ⟨bound, rfl⟩
    rw [List.append_assoc, counted]
    exact Bytes.cut?_append bytes rest

section Lists

variable
  {α : Type}
  {readItem : Bytes → Option (α × Bytes)}
  {writeItem : α → Bytes}
  {limits : α → Prop}
  (exact : Exact readItem writeItem limits)

include exact

theorem readItems_eq_some
    (count : Nat)
    (input rest : Bytes)
    (taken items : List α) :
    readItems readItem count input taken = some (items, rest) ↔
      ∃ more, items = taken.reverse ++ more ∧ more.length = count ∧
        (∀ item ∈ more, limits item) ∧ input = more.flatMap writeItem ++ rest := by
  induction count generalizing input taken with
  | zero =>
    constructor
    · intro done
      cases done
      exact ⟨[], by simp, rfl, by simp, by simp⟩
    · rintro ⟨more, rfl, empty, -, rfl⟩
      rw [List.length_eq_zero_iff] at empty
      simp [empty, readItems]
  | succ count ih =>
    rw [readItems]
    constructor
    · intro done
      split at done
      · cases done
      next item after first =>
        obtain ⟨fits, rfl⟩ := (exact _ _ _).mp first
        obtain ⟨more, rfl, rfl, allFit, rfl⟩ := (ih _ _).mp done
        refine ⟨item :: more, by simp, rfl, ?_, by simp⟩
        simpa using ⟨fits, allFit⟩
    · rintro ⟨more, rfl, counted, allFit, rfl⟩
      cases more with
      | nil => cases counted
      | cons item more =>
        have first := (exact ((item :: more).flatMap writeItem ++ rest) item
          (more.flatMap writeItem ++ rest)).mpr ⟨allFit item List.mem_cons_self, by simp⟩
        rw [first]
        refine (ih _ _).mpr ⟨more, by simp, Nat.succ.inj counted, ?_, rfl⟩
        exact fun other member => allFit other (List.mem_cons_of_mem _ member)

theorem exact_readList :
    Exact (readList readItem) (writeList writeItem)
      (fun items => items.length < UInt64.size ∧ ∀ item ∈ items, limits item) := by
  intro input items rest
  unfold readList writeList
  constructor
  · intro taken
    split at taken
    · cases taken
    next count after counted =>
      obtain ⟨bound, rfl⟩ := (exact_compactSize _ _ _).mp counted
      obtain ⟨more, rfl, rfl, allFit, rfl⟩ := (readItems_eq_some exact _ _ _ _ _).mp taken
      exact ⟨⟨bound, allFit⟩, (List.append_assoc _ _ _).symm⟩
  · rintro ⟨⟨bound, allFit⟩, rfl⟩
    have counted := (exact_compactSize
      (CompactSize.write items.length ++ (items.flatMap writeItem ++ rest))
      items.length (items.flatMap writeItem ++ rest)).mpr ⟨bound, rfl⟩
    rw [List.append_assoc, counted]
    exact (readItems_eq_some exact _ _ _ _ _).mpr ⟨items, rfl, rfl, allFit, rfl⟩

end Lists

/-! ## Inputs and outputs -/

/-- The limits of an output. -/
def Output.Fits (output : Output) : Prop :=
  output.script.length < UInt64.size

theorem exact_readOutput : Exact Output.read Output.write Output.Fits := by
  intro input output rest
  simp only [Output.read, Output.write, Output.Fits, Option.bind_eq_bind,
    Option.bind_eq_some_iff, Prod.exists, exact_cut? 8 _ _ _, exact_readBytes _ _ _,
    Option.pure_def, Option.some.injEq, Prod.mk.injEq]
  have capacity : Bytes.capacity 8 = UInt64.size := rfl
  constructor
  · rintro ⟨value, _, ⟨length, rfl⟩, script, _, ⟨bound, rfl⟩, rfl, rfl⟩
    have below := value.toNatLE_lt
    rw [length, capacity] at below
    refine ⟨bound, ?_⟩
    rw [UInt64.toNat_ofNat_of_lt' below, ofNatLE_of_toNatLE value 8 _ length rfl]
    simp
  · rintro ⟨bound, rfl⟩
    have below : output.value.toNat < Bytes.capacity 8 := output.value.toNat_lt
    refine ⟨Bytes.ofNatLE 8 output.value.toNat, writeBytes output.script ++ rest,
      ⟨Bytes.length_ofNatLE 8 _, List.append_assoc _ _ _⟩, output.script, rest, ⟨bound, rfl⟩, ?_,
      rfl⟩
    rw [Bytes.toNatLE_ofNatLE, Nat.mod_eq_of_lt below, UInt64.ofNat_toNat]

/-- The limits of an input that is read without its witness. -/
structure Input.Fits (input : Input) : Prop where
  source : input.source.length = 32
  script : input.script.length < UInt64.size
  witness : input.witness = []

theorem exact_readInput : Exact Input.read Input.write Input.Fits := by
  intro bytes input rest
  simp only [Input.read, Input.write, Option.bind_eq_bind,
    Option.bind_eq_some_iff, Prod.exists, exact_cut? 32 _ _ _, exact_readBytes _ _ _,
    exact_readWord _ _ _,
    Option.pure_def, Option.some.injEq, Prod.mk.injEq]
  constructor
  · rintro ⟨source, _, ⟨length, rfl⟩, index, _, ⟨-, rfl⟩, script, _, ⟨bound, rfl⟩, sequence, _,
      ⟨-, rfl⟩, rfl, rfl⟩
    exact ⟨⟨length, bound, rfl⟩, by simp⟩
  · rintro ⟨fits, rfl⟩
    refine ⟨input.source, _, ⟨fits.source, ?_⟩, input.index, _, ⟨trivial, rfl⟩, input.script, _,
      ⟨fits.script, rfl⟩, input.sequence, _, ⟨trivial, rfl⟩, ?_, rfl⟩
    · simp
    · rw [← fits.witness]

/-! ## Witnesses -/

/-- The input without its witness. -/
def Input.bare (input : Input) : Input :=
  { input with witness := [] }

/-- The bytes of the witness of an input. -/
def Input.writeWitness (input : Input) : Bytes :=
  writeList writeBytes input.witness

/-- The limits of a witness. -/
def Input.WitnessFits (input : Input) : Prop :=
  input.witness.length < UInt64.size ∧ ∀ item ∈ input.witness, item.length < UInt64.size

theorem writeList_bare (inputs : List Input) :
    writeList Input.write (inputs.map Input.bare) = writeList Input.write inputs := by
  have same (input : Input) : input.bare.write = input.write := rfl
  simp [writeList, List.flatMap_map, same]

theorem readWitnesses_eq_some
    (inputs completed : List Input)
    (bytes rest : Bytes) :
    Input.readWitnesses inputs bytes = some (completed, rest) ↔
      completed.map Input.bare = inputs.map Input.bare ∧
        (∀ input ∈ completed, input.WitnessFits) ∧
        bytes = completed.flatMap Input.writeWitness ++ rest := by
  induction inputs generalizing completed bytes rest with
  | nil =>
    constructor
    · intro done
      cases done
      simp
    · rintro ⟨empty, -, rfl⟩
      rw [List.map_nil, List.map_eq_nil_iff] at empty
      simp [empty, Input.readWitnesses]
  | cons spent inputs ih =>
    simp only [Input.readWitnesses, Option.bind_eq_bind, Option.bind_eq_some_iff, Prod.exists,
      exact_readList exact_readBytes _ _ _, ih, Option.pure_def, Option.some.injEq, Prod.mk.injEq]
    constructor
    · rintro ⟨witness, _, ⟨fits, rfl⟩, others, _, ⟨same, allFit, rfl⟩, rfl, rfl⟩
      refine ⟨by simp [same, Input.bare], ?_, by simp [Input.writeWitness]⟩
      intro input member
      rcases List.mem_cons.mp member with rfl | member
      · exact fits
      · exact allFit input member
    · rintro ⟨same, allFit, rfl⟩
      cases completed with
      | nil => cases same
      | cons input others =>
        obtain ⟨here, there⟩ := List.cons.inj same
        have known : { spent with witness := input.witness } = input := by
          cases input
          cases spent
          simpa [Input.bare] using here.symm
        refine ⟨input.witness, others.flatMap Input.writeWitness ++ rest,
          ⟨allFit input List.mem_cons_self, by simp [Input.writeWitness]⟩, others, rest,
          ⟨there, fun other member => allFit other (List.mem_cons_of_mem _ member), rfl⟩, ?_, rfl⟩
        rw [known]

/-! ## Transactions -/

namespace Transaction

/-- The limits of a transaction. -/
structure Fits (transaction : Transaction) : Prop where
  inputs : transaction.inputs.length < UInt64.size ∧
    ∀ input ∈ transaction.inputs, input.bare.Fits
  outputs : transaction.outputs.length < UInt64.size ∧
    ∀ output ∈ transaction.outputs, output.Fits
  witnesses : ∀ input ∈ transaction.inputs, input.WitnessFits

theorem Fits.bare_inputs
    {transaction : Transaction}
    (fits : transaction.Fits) :
    (transaction.inputs.map Input.bare).length < UInt64.size ∧
      ∀ input ∈ transaction.inputs.map Input.bare, input.Fits := by
  refine ⟨?_, fun input member => ?_⟩
  · rw [List.length_map]
    exact fits.inputs.1
  · obtain ⟨whole, held, rfl⟩ := List.mem_map.mp member
    exact fits.inputs.2 whole held

/-- The form of a transaction: with witnesses if there are any, or if there are no inputs. -/
def write (transaction : Transaction) : Bytes :=
  if transaction.hasWitness || transaction.inputs.isEmpty then transaction.writeFull
  else transaction.writePlain

theorem map_bare_eq_self
    (inputs : List Input)
    (bare : ∀ input ∈ inputs, input.witness = []) :
    inputs.map Input.bare = inputs := by
  refine (List.map_congr_left fun input member => ?_).trans inputs.map_id
  rw [Input.bare, ← bare input member]
  rfl

theorem readPlainRest_eq_some
    (version : UInt32)
    (inputs : List Input)
    (bytes rest : Bytes)
    (transaction : Transaction) :
    readPlainRest version inputs bytes = some (transaction, rest) ↔
      transaction.version = version ∧ transaction.inputs = inputs ∧
        (transaction.outputs.length < UInt64.size ∧
          ∀ output ∈ transaction.outputs, output.Fits) ∧
        bytes =
          writeList Output.write transaction.outputs ++ writeWord transaction.lockTime ++ rest := by
  simp only [readPlainRest, Option.bind_eq_bind, Option.bind_eq_some_iff, Prod.exists,
    exact_readList exact_readOutput _ _ _, exact_readWord _ _ _, Option.pure_def,
    Option.some.injEq, Prod.mk.injEq]
  constructor
  · rintro ⟨outputs, _, ⟨fits, rfl⟩, lockTime, _, ⟨-, rfl⟩, rfl, rfl⟩
    exact ⟨rfl, rfl, fits, (List.append_assoc _ _ _).symm⟩
  · rintro ⟨rfl, rfl, fits, rfl⟩
    exact ⟨_, _, ⟨fits, List.append_assoc _ _ _⟩, _, _, ⟨trivial, rfl⟩, rfl, rfl⟩

/-- Some input has a witness, or there are no inputs. -/
theorem hasWitness_or_empty (transaction : Transaction) :
    ¬ (!transaction.inputs.isEmpty && transaction.inputs.all (·.witness.isEmpty)) = true ↔
      transaction.hasWitness = true ∨ transaction.inputs = [] := by
  rw [hasWitness, ← List.isEmpty_iff, List.any_eq_not_all_not]
  simp only [Bool.not_not]
  cases transaction.inputs.isEmpty <;> simp

theorem readFullRest_eq_some
    (version : UInt32)
    (bytes rest : Bytes)
    (transaction : Transaction) :
    readFullRest version bytes = some (transaction, rest) ↔
      transaction.version = version ∧ transaction.Fits ∧
        (transaction.hasWitness = true ∨ transaction.inputs = []) ∧
        bytes =
          [1] ++ writeList Input.write transaction.inputs ++
            writeList Output.write transaction.outputs ++
            transaction.inputs.flatMap Input.writeWitness ++
            writeWord transaction.lockTime ++ rest := by
  simp only [readFullRest, Option.bind_eq_bind, Option.bind_eq_some_iff, Prod.exists,
    exact_readList exact_readOutput _ _ _, exact_readList exact_readInput _ _ _,
    exact_readWord _ _ _, exact_cut? 1 _ _ _, readWitnesses_eq_some,
    Option.ite_none_left_eq_some, Option.pure_def, Option.some.injEq, Prod.mk.injEq]
  constructor
  · rintro ⟨flag, _, ⟨-, rfl⟩, flagged, inputs, _, ⟨⟨counted, inputsFit⟩, rfl⟩, outputs, _,
      ⟨outputsFit, rfl⟩, completed, _, ⟨same, witnessesFit, rfl⟩, witnessed, lockTime, _, ⟨-, rfl⟩,
      rfl, rfl⟩
    obtain rfl := Classical.not_not.mp flagged
    have bare := map_bare_eq_self inputs fun input member => (inputsFit input member).witness
    rw [bare] at same
    refine ⟨rfl, ⟨⟨?_, ?_⟩, outputsFit, witnessesFit⟩, ?_, ?_⟩
    · rw [← same, List.length_map] at counted
      exact counted
    · intro input member
      exact inputsFit _ (same ▸ List.mem_map_of_mem member)
    · exact (hasWitness_or_empty ⟨version, completed, outputs, lockTime⟩).mp witnessed
    · rw [← same, writeList_bare]
      simp
  · rintro ⟨rfl, fits, witnessed, rfl⟩
    refine ⟨[1], _, ⟨rfl, ?_⟩, by simp, transaction.inputs.map Input.bare, _,
      ⟨fits.bare_inputs, rfl⟩, transaction.outputs, _, ⟨fits.outputs, rfl⟩, transaction.inputs, _,
      ⟨?_, fits.witnesses, rfl⟩, (hasWitness_or_empty transaction).mpr witnessed,
      transaction.lockTime, rest, ⟨trivial, rfl⟩, rfl, rfl⟩
    · rw [writeList_bare]
      simp
    · rw [List.map_map]
      rfl

theorem write_of_witness
    (transaction : Transaction)
    (witnessed : transaction.hasWitness = true ∨ transaction.inputs = []) :
    transaction.write = transaction.writeFull := by
  rw [write, if_pos]
  simpa [List.isEmpty_iff] using witnessed

theorem write_of_bare
    (transaction : Transaction)
    (bare : ∀ input ∈ transaction.inputs, input.witness = [])
    (spends : transaction.inputs ≠ []) :
    transaction.write = transaction.writePlain := by
  rw [write, if_neg]
  simpa [hasWitness, spends] using bare

/-- The inputs behind the version tell the form: it has witnesses if there seem to be none. -/
theorem readFront_eq
    (version : UInt32)
    (inputs : List Input)
    (rest : Bytes)
    (fits : inputs.length < UInt64.size ∧ ∀ input ∈ inputs, input.Fits) :
    readFront (writeWord version ++ (writeList Input.write inputs ++ rest)) =
      if inputs.isEmpty then readFullRest version rest else readPlainRest version inputs rest := by
  have first := (exact_readWord _ version (writeList Input.write inputs ++ rest)).mpr ⟨trivial, rfl⟩
  have second := (exact_readList exact_readInput _ inputs rest).mpr ⟨fits, rfl⟩
  simp only [readFront, Option.bind_eq_bind, first, second, Option.bind_some]

/-- Reading takes a transaction off the front of its form, and off nothing else. -/
theorem exact_readFront : Exact readFront write Fits := by
  have marker : writeList Input.write [] = [0] := rfl
  have witnesses : Input.writeWitness = fun input => writeList writeBytes input.witness := rfl
  intro bytes transaction rest
  simp only [readFront, Option.bind_eq_bind, Option.bind_eq_some_iff, Prod.exists,
    exact_readList exact_readInput _ _ _, exact_readWord _ _ _]
  constructor
  · rintro ⟨version, _, ⟨-, rfl⟩, inputs, after, ⟨⟨counted, inputsFit⟩, rfl⟩, tail⟩
    split at tail
    next empty =>
      obtain ⟨rfl, fits, witnessed, rfl⟩ := (readFullRest_eq_some _ _ _ _).mp tail
      obtain rfl := List.isEmpty_iff.mp empty
      refine ⟨fits, ?_⟩
      rw [write_of_witness transaction witnessed, writeFull, marker, witnesses]
      simp
    next spends =>
      obtain ⟨rfl, rfl, outputsFit, rfl⟩ := (readPlainRest_eq_some _ _ _ _ _).mp tail
      have bare (input : Input) (member : input ∈ transaction.inputs) : input.witness = [] :=
        (inputsFit input member).witness
      refine ⟨⟨⟨counted, fun input member => ?_⟩, outputsFit, fun input member => ?_⟩, ?_⟩
      · exact ⟨(inputsFit input member).source, (inputsFit input member).script, rfl⟩
      · rw [Input.WitnessFits, bare input member]
        exact ⟨by decide, fun item none => by cases none⟩
      · rw [write_of_bare transaction bare (by simpa using spends), writePlain]
        simp
  · rintro ⟨fits, rfl⟩
    by_cases witnessed : transaction.hasWitness = true ∨ transaction.inputs = []
    · have tail := (readFullRest_eq_some transaction.version _ rest transaction).mpr
        ⟨rfl, fits, witnessed, rfl⟩
      refine ⟨transaction.version, _, ⟨trivial, ?_⟩, [], _, ⟨⟨by decide, by simp⟩, rfl⟩, tail⟩
      rw [write_of_witness transaction witnessed, writeFull, marker, witnesses]
      simp
    · rw [not_or, Bool.not_eq_true] at witnessed
      obtain ⟨unwitnessed, spends⟩ := witnessed
      have bare : ∀ input ∈ transaction.inputs, input.witness = [] := by
        simpa [hasWitness] using unwitnessed
      have tail := (readPlainRest_eq_some transaction.version transaction.inputs _ rest
        transaction).mpr ⟨rfl, rfl, fits.outputs, rfl⟩
      refine ⟨transaction.version, _, ⟨trivial, ?_⟩, transaction.inputs,
        writeList Output.write transaction.outputs ++ writeWord transaction.lockTime ++ rest,
        ⟨⟨fits.inputs.1, ?_⟩, rfl⟩, ?_⟩
      · rw [write_of_bare transaction bare spends, writePlain]
        simp
      · intro input member
        have inputFits := fits.inputs.2 input member
        exact ⟨inputFits.source, inputFits.script, bare input member⟩
      · rw [if_neg (by simpa using spends)]
        exact tail

theorem readFront_of_read
    (bytes : Bytes)
    (transaction : Transaction)
    (taken : read bytes = some transaction) :
    readFront bytes = some (transaction, []) := by
  unfold read at taken
  split at taken
  next other front =>
    cases taken
    exact front
  next => cases taken

theorem read_eq_some (bytes : Bytes) (transaction : Transaction) :
    read bytes = some transaction ↔ transaction.Fits ∧ bytes = transaction.write := by
  have front := exact_readFront bytes transaction []
  rw [List.append_nil] at front
  rw [← front]
  exact ⟨readFront_of_read bytes transaction, fun taken => by rw [read, taken]⟩

/-- What is read from the form with witnesses has the inputs that were written. -/
theorem bare_inputs_of_full
    (transaction other : Transaction)
    (fits : (transaction.inputs.map Input.bare).length < UInt64.size ∧
      ∀ input ∈ transaction.inputs.map Input.bare, input.Fits)
    (taken : read transaction.writeFull = some other) :
    other.inputs.map Input.bare = transaction.inputs.map Input.bare ∧
      (other.hasWitness = true ∨ other.inputs = []) := by
  have marker : writeList Input.write [] = [0] := rfl
  have written : transaction.writeFull =
      writeWord transaction.version ++ (writeList Input.write [] ++ ([1] ++
        (writeList Input.write (transaction.inputs.map Input.bare) ++
          (writeList Output.write transaction.outputs ++
            transaction.inputs.flatMap Input.writeWitness ++
              writeWord transaction.lockTime)))) := by
    have witnesses : Input.writeWitness = fun input => writeList writeBytes input.witness := rfl
    rw [writeFull, writeList_bare, marker, witnesses]
    simp
  have front := readFront_of_read _ _ taken
  rw [written, readFront_eq _ _ _ ⟨by decide, by simp⟩, if_pos List.isEmpty_nil,
    readFullRest_eq_some] at front
  obtain ⟨-, otherFits, witnessed, same⟩ := front
  simp only [List.append_assoc] at same
  have rest := List.append_cancel_left same
  rw [← writeList_bare other.inputs] at rest
  exact ⟨((exact_readList exact_readInput).unique fits otherFits.bare_inputs rest).1.symm,
    witnessed⟩

end Transaction

end MiningPool.Bitcoin
