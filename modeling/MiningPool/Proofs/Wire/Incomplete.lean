import MiningPool.Proofs.Wire.Steps

/-!
# Incomplete inputs

A reader that has run out of bytes was on its way to a value: some bytes complete the input
to one that is read to its end.  So no reader waits for bytes once no value can come of them,
and what is refused for another reason is refused whatever follows.

Main result: of a value that was read, every strict prefix is incomplete; and an input is
incomplete exactly when its outcome depends on what follows.
-/

namespace MiningPool.Wire

variable {α β : Type}

/-! ## Inputs that can be completed -/

/-- A reader with a value to read. -/
def Opens (reader : Bytes → Except WireError (α × Bytes)) : Prop :=
  ∃ input value, reader input = .ok (value, [])

/-- A reader that runs out of bytes only on the way to a value. -/
def Completable (reader : Bytes → Except WireError (α × Bytes)) : Prop :=
  ∀ input, reader input = .error .outOfBounds →
    ∃ more value, reader (input ++ more) = .ok (value, [])

section

variable {reader : Bytes → Except WireError (α × Bytes)}
variable {following : α → Bytes → Except WireError (β × Bytes)}

theorem opens_giving (value : α) : Opens (giving (.ok value)) :=
  ⟨[], value, rfl⟩

theorem completable_giving
    (result : Except WireError α)
    (decided : result ≠ .error .outOfBounds) :
    Completable (giving result) := by
  intro input incomplete
  cases result with
  | error failure =>
    cases incomplete
    contradiction
  | ok value => cases incomplete

theorem Opens.next
    (steady : Steady reader)
    {input : Bytes}
    {value : α}
    (read : reader input = .ok (value, []))
    (opens : Opens (following value)) :
    Opens (readThen reader following) := by
  obtain ⟨back, other, readBack⟩ := opens
  refine ⟨input ++ back, other, ?_⟩
  simp only [readThen, steady.grows _ _ _ read back, List.nil_append, readBack]

/--
What is read in two steps is completable when an incomplete first part can be completed to a
value with which the second step has something to read.
-/
theorem Completable.next
    (steady : Steady reader)
    (starts : ∀ input, reader input = .error .outOfBounds →
      ∃ more value, reader (input ++ more) = .ok (value, []) ∧ Opens (following value))
    (continues : ∀ input value rest,
      reader input = .ok (value, rest) → Completable (following value)) :
    Completable (readThen reader following) := by
  intro input incomplete
  rcases read : reader input with failure | ⟨value, rest⟩
  · simp only [readThen, read, Except.error.injEq] at incomplete
    subst incomplete
    obtain ⟨more, value, completed, back, other, readBack⟩ := starts input read
    refine ⟨more ++ back, other, ?_⟩
    rw [← List.append_assoc]
    simp only [readThen, steady.grows _ _ _ completed back, List.nil_append, readBack]
  · simp only [readThen, read] at incomplete
    obtain ⟨more, other, completed⟩ := continues _ _ _ read rest incomplete
    exact ⟨more, other, by simp only [readThen, steady.grows _ _ _ read more, completed]⟩

/-- What is always made into another value opens. -/
theorem Opens.map
    (steady : Steady reader)
    (opens : Opens reader)
    {make : α → Except WireError β}
    (makes : ∀ input value rest,
      reader input = .ok (value, rest) → ∃ other, make value = .ok other) :
    Opens (readThen reader fun value => giving (make value)) := by
  obtain ⟨input, value, read⟩ := opens
  obtain ⟨other, made⟩ := makes _ _ _ read
  exact .next steady read (made ▸ opens_giving other)

/-- What is always made into another value is completable. -/
theorem Completable.map
    (steady : Steady reader)
    (completable : Completable reader)
    {make : α → Except WireError β}
    (makes : ∀ input value rest,
      reader input = .ok (value, rest) → ∃ other, make value = .ok other) :
    Completable (readThen reader fun value => giving (make value)) := by
  refine .next steady ?_ ?_
  · intro input incomplete
    obtain ⟨more, value, completed⟩ := completable input incomplete
    obtain ⟨other, made⟩ := makes _ _ _ completed
    exact ⟨more, value, completed, made ▸ opens_giving other⟩
  · intro input value rest read
    obtain ⟨other, made⟩ := makes _ _ _ read
    exact completable_giving _ (by simp [made])

end

/-! ## Numbers -/

theorem opens_exactly (count : Nat) : Opens (readExactly count) := by
  refine ⟨List.replicate count 0, List.replicate count 0, ?_⟩
  simp [readExactly, Bytes.cut?_eq]

theorem completable_exactly (count : Nat) : Completable (readExactly count) := by
  intro input incomplete
  rw [readExactly, Bytes.cut?_eq] at incomplete
  by_cases enough : count ≤ input.length
  · rw [if_pos enough] at incomplete
    cases incomplete
  · have whole : (input ++ List.replicate (count - input.length) 0).length = count := by
      rw [List.length_append, List.length_replicate]
      omega
    refine ⟨List.replicate (count - input.length) 0,
      input ++ List.replicate (count - input.length) 0, ?_⟩
    rw [readExactly, Bytes.cut?_eq, if_pos (Nat.le_of_eq whole.symm),
      List.take_of_length_le (Nat.le_of_eq whole), List.drop_of_length_le (Nat.le_of_eq whole)]

theorem opens_nat (count : Nat) : Opens (readNat count) := by
  rw [readNat_eq]
  exact (opens_exactly count).map (steady_exactly count) fun _ _ _ _ => ⟨_, rfl⟩

theorem completable_nat (count : Nat) : Completable (readNat count) := by
  rw [readNat_eq]
  exact (completable_exactly count).map (steady_exactly count) fun _ _ _ _ => ⟨_, rfl⟩

/-- A byte is missing only where there is none. -/
theorem eq_nil_of_readByte
    {input : Bytes}
    (incomplete : readByte input = .error .outOfBounds) :
    input = [] := by
  cases input with
  | nil => rfl
  | cons byte rest => cases incomplete

/-- What is decided on one byte, which can be zero, is completable. -/
theorem completable_byte
    {next : UInt8 → Bytes → Except WireError (α × Bytes)}
    (opens : Opens (next 0))
    (continues : ∀ byte, Completable (next byte)) :
    Completable (readThen readByte next) := by
  refine .next steady_byte ?_ fun _ byte _ _ => continues byte
  intro input incomplete
  rw [eq_nil_of_readByte incomplete]
  exact ⟨[0], 0, rfl, opens⟩

theorem opens_byte
    {next : UInt8 → Bytes → Except WireError (α × Bytes)}
    (opens : Opens (next 0)) :
    Opens (readThen readByte next) := by
  have read : readByte [0] = .ok (0, []) := rfl
  exact .next steady_byte read opens

/-! ## Readers of the wire format -/

/-- A reader that has a value to read and runs out of bytes only on the way to one. -/
structure Prompt (reader : Bytes → Except WireError (α × Bytes)) : Prop where
  opens : Opens reader
  completable : Completable reader

namespace Prompt

variable {reader : Bytes → Except WireError (α × Bytes)}

theorem nat (count : Nat) : Prompt (readNat count) :=
  ⟨opens_nat count, completable_nat count⟩

/-- What is always made into another value is read as promptly. -/
theorem map
    (steady : Steady reader)
    (prompt : Prompt reader)
    {make : α → Except WireError β}
    (makes : ∀ input value rest,
      reader input = .ok (value, rest) → ∃ other, make value = .ok other) :
    Prompt (readThen reader fun value => giving (make value)) where
  opens := prompt.opens.map steady makes
  completable := prompt.completable.map steady makes

/-- Two values one after the other are read as promptly as each of them. -/
theorem next
    {next : α → Bytes → Except WireError (β × Bytes)}
    (steady : Steady reader)
    (prompt : Prompt reader)
    (promptNext : ∀ value, Prompt (next value)) :
    Prompt (readThen reader next) where
  opens := by
    obtain ⟨input, value, read⟩ := prompt.opens
    exact .next steady read (promptNext value).opens
  completable := by
    refine .next steady ?_ fun _ value _ _ => (promptNext value).completable
    intro input incomplete
    obtain ⟨more, value, completed⟩ := prompt.completable input incomplete
    exact ⟨more, value, completed, (promptNext value).opens⟩

theorem giving (value : α) : Prompt (Wire.giving (.ok value)) where
  opens := opens_giving value
  completable := completable_giving _ (by simp)

theorem word (count : Nat) (make : Nat → α) :
    Prompt fun input => do
      let (value, rest) ← readNat count input
      return (make value, rest) := by
  rw [readNat_map]
  exact (nat count).map (GoesInSteps.nat count).steady fun _ _ _ _ => ⟨_, rfl⟩

/-- Three bytes always hold a number of three bytes. -/
theorem u24 : Prompt readU24 := by
  rw [readU24_eq]
  exact (nat 3).map (GoesInSteps.nat 3).steady fun _ _ _ read =>
    ⟨_, dif_pos (of_readNat_eq_ok read).1⟩

theorem bool : Prompt readBool where
  opens := readBool_eq ▸ opens_byte (opens_giving false)
  completable := by
    rw [readBool_eq]
    refine completable_byte (opens_giving false) fun byte => completable_giving _ ?_
    repeat' split
    all_goals simp

theorem protocol : Prompt readProtocol where
  opens := readProtocol_eq ▸ opens_byte (opens_giving Protocol.mining)
  completable := by
    rw [readProtocol_eq]
    refine completable_byte (opens_giving Protocol.mining) fun byte => completable_giving _ ?_
    unfold Protocol.ofCode
    repeat' split
    all_goals simp

/-! ### Byte strings -/

/-- A length that has not arrived can still be one that the type admits. -/
theorem admits_of_readLength
    {width : Width}
    {input : Bytes}
    (incomplete : readLength width input = .error .outOfBounds) :
    ∃ more length, readLength width (input ++ more) = .ok (length, []) ∧ width.Admits length := by
  cases width with
  | u256 => cases incomplete
  | b032 =>
    -- The length has one byte, which could also be too large.
    cases input with
    | nil => exact ⟨[0], 0, rfl, Nat.zero_le _⟩
    | cons byte rest =>
      simp [readLength, readNat, Width.header, Bytes.cut?_eq] at incomplete
  | b0255 | str0255 | b064k | b016m =>
    obtain ⟨more, length, completed⟩ := completable_nat _ input incomplete
    exact ⟨more, length, completed, Nat.le_of_lt_succ (of_readNat_eq_ok completed).1⟩

theorem makes_blob
    {width : Width}
    {length : Nat}
    (admitted : width.Admits length)
    (input bytes rest : Bytes)
    (read : readExactly length input = .ok (bytes, rest)) :
    ∃ blob : Blob width, Blob.ofBytes bytes = .ok blob := by
  unfold readExactly at read
  split at read
  · cases read
  next cut =>
    cases read
    obtain ⟨rfl, -⟩ := Bytes.of_cut?_eq_some cut
    exact ⟨_, dif_pos admitted⟩

theorem opens_body
    {width : Width}
    {length : Nat}
    (admitted : width.Admits length) :
    Opens (readBody width length) := by
  rw [readBody, if_pos admitted]
  exact (opens_exactly length).map (steady_exactly length) (makes_blob admitted)

theorem completable_body (width : Width) (length : Nat) : Completable (readBody width length) := by
  unfold readBody
  split
  next admitted =>
    exact (completable_exactly length).map (steady_exactly length) (makes_blob admitted)
  next =>
    apply completable_giving
    cases width <;> simp [Width.refusal]

theorem blob (width : Width) : Prompt (readBlob width) where
  opens := by
    rw [readBlob_eq]
    have admitted : width.Admits (Blob.blank width).bytes.length := (Blob.blank width).admitted
    have read := readLength_ofNatLE width _ admitted []
    exact .next (GoesInSteps.length width).steady read (opens_body admitted)
  completable := by
    rw [readBlob_eq]
    refine .next (GoesInSteps.length width).steady ?_ fun _ length _ _ =>
      completable_body width length
    intro input incomplete
    obtain ⟨more, length, completed, admitted⟩ := admits_of_readLength incomplete
    exact ⟨more, length, completed, opens_body admitted⟩

/-! ### Optional values and sequences -/

theorem option (steady : Steady reader) (prompt : Prompt reader) : Prompt (readOption reader) where
  opens := readOption_eq reader ▸ opens_byte (opens_giving none)
  completable := by
    rw [readOption_eq]
    refine completable_byte (opens_giving none) fun byte => ?_
    split
    · exact completable_giving _ (by simp)
    split
    · exact (prompt.map steady fun _ _ _ _ => ⟨_, rfl⟩).completable
    · exact completable_giving _ (by simp)

theorem items
    (steady : Steady reader)
    (prompt : Prompt reader)
    (remaining : Nat)
    (taken : List α) :
    Prompt fun input => readItems reader remaining input taken := by
  induction remaining generalizing taken with
  | zero => exact giving taken.reverse
  | succ remaining ih =>
    rw [readItems_succ]
    exact prompt.next steady fun element => ih (element :: taken)

theorem length_readItems
    {remaining : Nat}
    {input rest : Bytes}
    {taken items : List α}
    (read : readItems reader remaining input taken = .ok (items, rest)) :
    items.length = taken.length + remaining := by
  induction remaining generalizing input taken with
  | zero =>
    cases read
    simp
  | succ remaining ih =>
    unfold readItems at read
    split at read
    · cases read
    · rw [ih read, List.length_cons]
      omega

theorem sequence
    (count : Count)
    (goes : GoesInSteps reader)
    (prompt : Prompt reader) :
    Prompt (readSequence count reader) := by
  have steady := (GoesInSteps.nat count.header).steady
  have bounded (input : Bytes) (length : Nat) (rest : Bytes)
      (read : readNat count.header input = .ok (length, rest)) :
      Prompt (readThen (fun input => readItems reader length input []) fun items =>
        Wire.giving (Sequence.ofList items : Except WireError (Sequence count _))) := by
    refine (prompt.items goes.steady length []).map (goes.items length []).steady
      fun _ items _ found => ?_
    have fits : items.length ≤ count.max := by
      have small := (of_readNat_eq_ok read).1
      rw [length_readItems found]
      cases count <;> simp [Count.header, Count.max, Bytes.capacity] at small ⊢ <;> omega
    exact ⟨_, dif_pos fits⟩
  constructor
  · rw [readSequence_eq]
    obtain ⟨input, length, read⟩ := opens_nat count.header
    exact .next steady read (bounded _ _ _ read).opens
  · rw [readSequence_eq]
    refine .next steady ?_ fun _ _ _ read =>
      (bounded _ _ _ read).completable
    intro input incomplete
    obtain ⟨more, length, completed⟩ := completable_nat count.header input incomplete
    exact ⟨more, length, completed, (bounded _ _ _ completed).opens⟩

theorem shape (shape : Shape) : Prompt shape.read := by
  induction shape with
  | u8 => exact word 1 UInt8.ofNat
  | u16 => exact word 2 UInt16.ofNat
  | u32 => exact word 4 UInt32.ofNat
  | u64 => exact word 8 UInt64.ofNat
  | single => exact word 4 fun bits => Single.mk (UInt32.ofNat bits)
  | u24 => exact u24
  | bool => exact bool
  | protocol => exact protocol
  | blob width => exact blob width
  | option element ih => exact ih.option (GoesInSteps.shape element).steady
  | seq count element ih => exact ih.sequence count (GoesInSteps.shape element)

end Prompt

namespace Codec

variable {codec : Codec α}

theorem Declared.prompt (declared : codec.Declared) : Prompt codec.read := by
  induction declared with
  | leaf shape => exact .shape shape
  | option declared ih => exact ih.option declared.goesInSteps.steady
  | seq count declared ih => exact ih.sequence count declared.goesInSteps
  | bare => exact .giving ()
  | field declared declaredOthers ih ihOthers =>
    rw [read_field]
    exact ih.next declared.goesInSteps.steady fun _ =>
      ihOthers.map declaredOthers.goesInSteps.steady fun _ _ _ _ => ⟨_, rfl⟩
  | structured _ _ declared ih =>
    rw [read_structured]
    exact ih.map declared.goesInSteps.steady fun _ _ _ _ => ⟨_, rfl⟩

/-- Short of all its bytes, a value that was read is incomplete. -/
theorem Declared.read_take
    (declared : codec.Declared)
    {input rest : Bytes}
    {value : α}
    (read : codec.read input = .ok (value, rest))
    (count : Nat)
    (short : count < codec.size value) :
    codec.read (input.take count) = .error .outOfBounds := by
  obtain ⟨encode, lawful⟩ := declared.lawful
  have steady := declared.goesInSteps.steady
  have whole : input.take count ++ input.drop count = input := List.take_append_drop count input
  rcases front : codec.read (input.take count) with failure | ⟨other, left⟩
  · by_cases incomplete : failure = .outOfBounds
    · rw [incomplete]
    · have refused := steady.firm _ _ front incomplete (input.drop count)
      rw [whole, read] at refused
      cases refused
  · -- The same value would be read off fewer bytes than it takes.
    have alike := steady.grows _ _ _ front (input.drop count)
    rw [whole, read] at alike
    cases alike
    have taken := congrArg List.length (lawful.canonical _ _ _ front)
    have enough := List.length_take_le count input
    rw [List.length_append, lawful.length] at taken
    omega

/-- What reading comes to, whatever is left of the input. -/
def outcome (codec : Codec α) (input : Bytes) : Except WireError α :=
  (codec.read input).map Prod.fst

theorem Declared.outcome_append
    (declared : codec.Declared)
    (input more : Bytes)
    (complete : codec.read input ≠ .error .outOfBounds) :
    codec.outcome (input ++ more) = codec.outcome input := by
  have steady := declared.goesInSteps.steady
  rcases read : codec.read input with failure | ⟨value, rest⟩
  · have other : failure ≠ .outOfBounds := by
      rintro rfl
      exact complete read
    rw [outcome, outcome, read, steady.firm _ _ read other]
  · rw [outcome, outcome, read, steady.grows _ _ _ read]
    rfl

/--
Reading never leaves its input: the reader that makes the same steps on slices finds every
slice, and uses as many bytes as the reader takes.  A value that was read takes no more bytes
than there are, and short of any of them the input is incomplete.  What is refused otherwise
is refused alike whatever follows.  And an input is incomplete exactly when what it comes to
depends on what follows; then some bytes complete it to a value, so nothing that is refused
with all its bytes there is reported as incomplete before.
-/
theorem incomplete_iff_undecided
    (declared : codec.Declared) :
    (∃ slicing,
      Stepwise codec.read slicing ∧
      ∀ input, slicing input =
        some ((codec.read input).map fun taken => (taken.1, input.length - taken.2.length))) ∧
    ∀ input,
      (∀ value rest, codec.read input = .ok (value, rest) →
        codec.size value ≤ input.length ∧
        rest = input.drop (codec.size value) ∧
        ∀ count < codec.size value, codec.read (input.take count) = .error .outOfBounds) ∧
      (∀ failure, codec.read input = .error failure → failure ≠ .outOfBounds →
        ∀ more, codec.read (input ++ more) = .error failure) ∧
      (codec.read input = .error .outOfBounds ↔
        ∃ more, codec.outcome (input ++ more) ≠ codec.outcome input) ∧
      (codec.read input = .error .outOfBounds →
        ∃ more value, codec.read (input ++ more) = .ok (value, [])) := by
  have prompt := declared.prompt
  have firm := declared.goesInSteps.steady.firm
  refine ⟨?_, fun input => ⟨?_, firm input, ?_, prompt.completable input⟩⟩
  · obtain ⟨slicing, stepwise⟩ := declared.goesInSteps
    refine ⟨slicing, stepwise, fun input => ?_⟩
    have follows := stepwise.follows input
    rcases read : codec.read input with failure | ⟨value, rest⟩
    · rw [read] at follows
      exact follows
    · rw [read] at follows
      obtain ⟨used, within, rfl, found⟩ := follows
      have count : input.length - (input.drop used).length = used := by
        rw [List.length_drop]
        omega
      rw [found, Except.map, count]
  · intro value rest read
    obtain ⟨encode, lawful⟩ := declared.lawful
    have written := lawful.canonical _ _ _ read
    refine ⟨?_, ?_, declared.read_take read⟩
    · rw [written, List.length_append, lawful.length]
      exact Nat.le_add_right _ _
    · rw [written, ← lawful.length, List.drop_left]
  · constructor
    · intro incomplete
      obtain ⟨more, value, completed⟩ := prompt.completable input incomplete
      refine ⟨more, ?_⟩
      rw [outcome, outcome, completed, incomplete]
      exact nofun
    · rintro ⟨more, differs⟩
      exact Classical.byContradiction fun complete =>
        differs (declared.outcome_append input more complete)

/-- A sequence of two endpoints of which the second is cut off, and one that is refused. -/
theorem incomplete_iff_undecided_announcements :
    announcements.Declared ∧
      (∃ more value,
        announcements.read ([0x02, 0x01, 0x07, 0x00, 0x00, 0x00, 0x01] ++ more) =
          .ok (value, [])) ∧
      ∀ more,
        announcements.read ([0x02, 0x01, 0x07, 0x00, 0x00, 0x00, 0x02] ++ more) =
          .error (.severalOptionElements 2) := by
  obtain ⟨-, settled⟩ := incomplete_iff_undecided declared_announcements
  refine ⟨declared_announcements, ?_, ?_⟩
  · exact (settled [0x02, 0x01, 0x07, 0x00, 0x00, 0x00, 0x01]).2.2.2 rfl
  · exact (settled [0x02, 0x01, 0x07, 0x00, 0x00, 0x00, 0x02]).2.1 (.severalOptionElements 2) rfl
      (by decide)

end Codec

end MiningPool.Wire
