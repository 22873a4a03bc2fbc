import MiningPool.Proofs.Wire.Codec

/-!
# Reading step by step

Every reader of the wire format goes in steps: it takes some bytes off the front of the
input when there are enough, decides what to make of them, and goes on with what is left.
The same steps can be made on an input that stays whole, with positions in it and slices
between them.  A slice that does not lie within the input has no bytes, so nothing could
follow from it; no reader ever asks for such a slice.

Steps look at no byte that they do not take.  So a reader answers the same when bytes
follow, unless it has run out of them.
-/

namespace MiningPool.Wire

variable {α β : Type}

/-! ## Steps -/

/-- Take a number of bytes. -/
def readExactly (count : Nat) (input : Bytes) : Except WireError (Bytes × Bytes) :=
  match input.cut? count with
  | none => .error .outOfBounds
  | some (bytes, rest) => .ok (bytes, rest)

/-- Take one byte. -/
def readByte : Bytes → Except WireError (UInt8 × Bytes)
  | [] => .error .outOfBounds
  | byte :: rest => .ok (byte, rest)

/-- Take nothing and decide. -/
def giving (result : Except WireError α) (input : Bytes) : Except WireError (α × Bytes) :=
  match result with
  | .error failure => .error failure
  | .ok value => .ok (value, input)

/-- Read a value, then go on with what is left in a way that depends on it. -/
def readThen
    (first : Bytes → Except WireError (α × Bytes))
    (next : α → Bytes → Except WireError (β × Bytes))
    (input : Bytes) :
    Except WireError (β × Bytes) :=
  match first input with
  | .error failure => .error failure
  | .ok (value, rest) => next value rest

/-! ## The same steps on slices -/

/-- The bytes between two positions, when both lie within the input. -/
def slice? (input : Bytes) (first last : Nat) : Option Bytes :=
  if first ≤ last ∧ last ≤ input.length then some ((input.take last).drop first) else none

/--
A reader that cuts slices out of its input and answers how many bytes it has used; it
answers nothing at all once a slice does not lie within the input.
-/
abbrev Slicing (α : Type) : Type :=
  Bytes → Option (Except WireError (α × Nat))

namespace Slicing

/-- Check that there are enough bytes, and cut them out. -/
def exactly (count : Nat) : Slicing Bytes := fun input =>
  if input.length < count then some (.error .outOfBounds)
  else
    match slice? input 0 count with
    | none => none
    | some bytes => some (.ok (bytes, count))

/-- Check that there is a byte, and look it up. -/
def byte : Slicing UInt8 := fun input =>
  if input.length < 1 then some (.error .outOfBounds)
  else
    match input[0]? with
    | none => none
    | some byte => some (.ok (byte, 1))

/-- Use nothing and decide. -/
def giving (result : Except WireError α) : Slicing α := fun _ =>
  match result with
  | .error failure => some (.error failure)
  | .ok value => some (.ok (value, 0))

/-- Read a value, then go on with the slice from there to the end. -/
def andThen (first : Slicing α) (next : α → Slicing β) : Slicing β := fun input =>
  match first input with
  | none => none
  | some (.error failure) => some (.error failure)
  | some (.ok (value, used)) =>
    match slice? input used input.length with
    | none => none
    | some back =>
      match next value back with
      | none => none
      | some (.error failure) => some (.error failure)
      | some (.ok (other, more)) => some (.ok (other, used + more))

end Slicing

/-- A reader made of steps, and the reader that makes the same steps on slices. -/
inductive Stepwise :
    {α : Type} → (Bytes → Except WireError (α × Bytes)) → Slicing α → Prop
  | exactly
      (count : Nat) :
      Stepwise (readExactly count) (Slicing.exactly count)
  | byte : Stepwise readByte Slicing.byte
  | giving
      {α : Type}
      (result : Except WireError α) :
      Stepwise (giving result) (Slicing.giving result)
  | next
      {α β : Type}
      {first : Bytes → Except WireError (α × Bytes)}
      {next : α → Bytes → Except WireError (β × Bytes)}
      {slicing : Slicing α}
      {nextSlicing : α → Slicing β}
      (stepwise : Stepwise first slicing)
      (stepwiseNext : ∀ value, Stepwise (next value) (nextSlicing value)) :
      Stepwise (readThen first next) (slicing.andThen nextSlicing)

/-! ## No step leaves the input -/

/-- A reader on slices finds them all, uses no more bytes than there are and answers alike. -/
def Slicing.Follows
    (slicing : Slicing α)
    (reader : Bytes → Except WireError (α × Bytes)) : Prop :=
  ∀ input,
    match reader input with
    | .error failure => slicing input = some (.error failure)
    | .ok (value, rest) =>
      ∃ used, used ≤ input.length ∧ rest = input.drop used ∧
        slicing input = some (.ok (value, used))

theorem Slicing.Follows.next
    {first : Bytes → Except WireError (α × Bytes)}
    {next : α → Bytes → Except WireError (β × Bytes)}
    {slicing : Slicing α}
    {nextSlicing : α → Slicing β}
    (follows : slicing.Follows first)
    (followsNext : ∀ value, (nextSlicing value).Follows (next value)) :
    (slicing.andThen nextSlicing).Follows (readThen first next) := by
  intro input
  have front := follows input
  unfold readThen Slicing.andThen
  rcases read : first input with failure | ⟨value, rest⟩
  · rw [read] at front
    simp only [front]
  · rw [read] at front
    obtain ⟨used, within, rfl, taken⟩ := front
    have cut : slice? input used input.length = some (input.drop used) := by
      rw [slice?, if_pos ⟨within, Nat.le_refl _⟩, List.take_length]
    have back := followsNext value (input.drop used)
    simp only [taken, cut]
    rcases readBack : next value (input.drop used) with failure | ⟨other, last⟩
    · rw [readBack] at back
      simp only [back]
    · rw [readBack] at back
      obtain ⟨more, enough, rfl, found⟩ := back
      rw [List.length_drop] at enough
      exact ⟨used + more, by omega, List.drop_drop, by simp only [found]⟩

theorem Stepwise.follows
    {reader : Bytes → Except WireError (α × Bytes)}
    {slicing : Slicing α}
    (stepwise : Stepwise reader slicing) :
    slicing.Follows reader := by
  induction stepwise with
  | exactly count =>
    intro input
    rw [readExactly, Bytes.cut?_eq]
    by_cases enough : count ≤ input.length
    · refine if_pos enough ▸ ⟨count, enough, rfl, ?_⟩
      simp only [Slicing.exactly, Nat.not_lt.mpr enough, if_false, slice?, Nat.zero_le, enough,
        and_self, if_true, List.drop_zero]
    · simp only [enough, if_false, Slicing.exactly, Nat.lt_of_not_le enough, if_true]
  | byte =>
    intro input
    cases input with
    | nil => rfl
    | cons byte rest => exact ⟨1, Nat.le_add_left 1 _, rfl, rfl⟩
  | giving result =>
    intro input
    cases result with
    | error failure => rfl
    | ok value => exact ⟨0, Nat.zero_le _, rfl, rfl⟩
  | next _ _ ih ihNext => exact ih.next ihNext

/-! ## What follows makes no difference -/

/-- A reader that answers the same when bytes follow, unless it has run out of them. -/
structure Steady (reader : Bytes → Except WireError (α × Bytes)) : Prop where
  grows : ∀ input value rest,
    reader input = .ok (value, rest) →
      ∀ more, reader (input ++ more) = .ok (value, rest ++ more)
  firm : ∀ input failure,
    reader input = .error failure → failure ≠ .outOfBounds →
      ∀ more, reader (input ++ more) = .error failure

theorem steady_exactly (count : Nat) : Steady (readExactly count) where
  grows input bytes rest read more := by
    unfold readExactly at read
    split at read
    · cases read
    next bytes after cut =>
      cases read
      obtain ⟨rfl, rfl⟩ := Bytes.of_cut?_eq_some cut
      rw [List.append_assoc, readExactly, Bytes.cut?_append]
  firm input failure read other := by
    unfold readExactly at read
    split at read
    · cases read
      contradiction
    · cases read

theorem steady_byte : Steady readByte where
  grows input byte rest read more := by
    cases input with
    | nil => cases read
    | cons first others =>
      cases read
      rfl
  firm input failure read other := by
    cases input with
    | nil =>
      cases read
      contradiction
    | cons first others => cases read

theorem steady_giving (result : Except WireError α) : Steady (giving result) where
  grows input value rest read more := by
    cases result with
    | error failure => cases read
    | ok value =>
      cases read
      rfl
  firm input failure read _ more := by
    cases result with
    | error failure =>
      cases read
      rfl
    | ok value => cases read

theorem Steady.next
    {first : Bytes → Except WireError (α × Bytes)}
    {next : α → Bytes → Except WireError (β × Bytes)}
    (steady : Steady first)
    (steadyNext : ∀ value, Steady (next value)) :
    Steady (readThen first next) where
  grows input value rest read more := by
    unfold readThen at read
    split at read
    · cases read
    next between after taken =>
      simp only [readThen, steady.grows _ _ _ taken]
      exact (steadyNext between).grows _ _ _ read more
  firm input failure read other more := by
    unfold readThen at read
    split at read
    next found failed =>
      cases read
      simp only [readThen, steady.firm _ _ failed other]
    next between after taken =>
      simp only [readThen, steady.grows _ _ _ taken]
      exact (steadyNext between).firm _ _ read other more

theorem Stepwise.steady
    {reader : Bytes → Except WireError (α × Bytes)}
    {slicing : Slicing α}
    (stepwise : Stepwise reader slicing) :
    Steady reader := by
  induction stepwise with
  | exactly count => exact steady_exactly count
  | byte => exact steady_byte
  | giving result => exact steady_giving result
  | next _ _ ih ihNext => exact ih.next ihNext

/-! ## The readers of the wire format in steps -/

theorem readNat_eq (count : Nat) :
    readNat count = readThen (readExactly count) fun bytes => giving (.ok bytes.toNatLE) := by
  funext input
  unfold readNat readThen readExactly
  cases input.cut? count <;> rfl

/-- A number of some bytes, and what is made of it. -/
theorem readNat_map (count : Nat) (make : Nat → α) :
    (fun input => do
      let (value, rest) ← readNat count input
      return (make value, rest)) =
      readThen (readNat count) fun value => giving (.ok (make value)) := by
  funext input
  unfold readThen
  cases readNat count input <;> rfl

theorem readU24_eq : readU24 = readThen (readNat 3) fun value => giving (U24.ofNat value) := by
  funext input
  unfold readU24 readThen readNat U24.size
  rcases input.cut? 3 with _ | ⟨bytes, rest⟩
  · rfl
  · dsimp only
    cases U24.ofNat bytes.toNatLE <;> rfl

theorem readBool_eq :
    readBool = readThen readByte fun byte =>
      giving
        (if byte = 0 then .ok false
        else if byte = 1 then .ok true
        else .error (.notABool byte.toNat)) := by
  funext input
  cases input with
  | nil => rfl
  | cons byte rest =>
    simp only [readBool, readThen, readByte]
    split
    · rfl
    · split <;> rfl

theorem readProtocol_eq :
    readProtocol = readThen readByte fun byte => giving (Protocol.ofCode byte) := by
  funext input
  cases input with
  | nil => rfl
  | cons byte rest =>
    simp only [readProtocol, readThen, readByte]
    cases Protocol.ofCode byte <;> rfl

/-- Take the bytes of a byte string of a length that its type admits. -/
def readBody (width : Width) (length : Nat) : Bytes → Except WireError (Blob width × Bytes) :=
  if width.Admits length then readThen (readExactly length) fun bytes => giving (Blob.ofBytes bytes)
  else giving (.error (width.refusal length))

theorem readBlob_eq (width : Width) :
    readBlob width = readThen (readLength width) (readBody width) := by
  funext input
  unfold readBlob readThen readBody
  rcases readLength width input with failure | ⟨length, rest⟩
  · rfl
  · dsimp only
    split
    · unfold readThen readExactly
      rcases rest.cut? length with _ | ⟨bytes, after⟩
      · rfl
      · dsimp only
        cases (Blob.ofBytes bytes : Except WireError (Blob width)) <;> rfl
    · rfl

theorem readOption_eq (readElement : Bytes → Except WireError (α × Bytes)) :
    readOption readElement = readThen readByte fun byte =>
      if byte = 0 then giving (.ok none)
      else if byte = 1 then readThen readElement fun element => giving (.ok (some element))
      else giving (.error (.severalOptionElements byte.toNat)) := by
  funext input
  cases input with
  | nil => rfl
  | cons byte rest =>
    simp only [readOption, readThen, readByte]
    split
    · rfl
    · split
      · unfold readThen
        cases readElement rest <;> rfl
      · rfl

theorem readItems_succ
    (readElement : Bytes → Except WireError (α × Bytes))
    (remaining : Nat)
    (taken : List α) :
    (fun input => readItems readElement (remaining + 1) input taken) =
      readThen readElement fun element rest =>
        readItems readElement remaining rest (element :: taken) := by
  funext input
  unfold readThen
  cases read : readElement input <;> simp only [readItems, read]

theorem readSequence_eq
    (count : Count)
    (readElement : Bytes → Except WireError (α × Bytes)) :
    readSequence count readElement = readThen (readNat count.header) fun length =>
      readThen (fun input => readItems readElement length input []) fun items =>
        giving (Sequence.ofList items) := by
  funext input
  unfold readSequence readThen
  rcases readNat count.header input with failure | ⟨length, rest⟩
  · rfl
  · dsimp only
    rcases readItems readElement length rest [] with failure | ⟨items, after⟩
    · rfl
    · dsimp only
      cases (Sequence.ofList items : Except WireError (Sequence count α)) <;> rfl

/-! ## Every reader goes in steps -/

/-- A reader goes in steps. -/
def GoesInSteps (reader : Bytes → Except WireError (α × Bytes)) : Prop :=
  ∃ slicing, Stepwise reader slicing

namespace GoesInSteps

variable {reader : Bytes → Except WireError (α × Bytes)}

theorem steady (goes : GoesInSteps reader) : Steady reader := by
  obtain ⟨slicing, stepwise⟩ := goes
  exact stepwise.steady

theorem exactly (count : Nat) : GoesInSteps (readExactly count) :=
  ⟨_, .exactly count⟩

theorem byte : GoesInSteps readByte :=
  ⟨_, .byte⟩

theorem giving (result : Except WireError α) : GoesInSteps (Wire.giving result) :=
  ⟨_, .giving result⟩

theorem next
    {next : α → Bytes → Except WireError (β × Bytes)}
    (goes : GoesInSteps reader)
    (goesNext : ∀ value, GoesInSteps (next value)) :
    GoesInSteps (readThen reader next) := by
  obtain ⟨slicing, stepwise⟩ := goes
  exact ⟨_, .next stepwise fun value => (goesNext value).choose_spec⟩

theorem nat (count : Nat) : GoesInSteps (readNat count) := by
  rw [readNat_eq]
  exact (exactly count).next fun _ => giving _

theorem word (count : Nat) (make : Nat → α) :
    GoesInSteps fun input => do
      let (value, rest) ← readNat count input
      return (make value, rest) := by
  rw [readNat_map]
  exact (nat count).next fun _ => giving _

theorem u24 : GoesInSteps readU24 := by
  rw [readU24_eq]
  exact (nat 3).next fun _ => giving _

theorem bool : GoesInSteps readBool := by
  rw [readBool_eq]
  exact byte.next fun _ => giving _

theorem protocol : GoesInSteps readProtocol := by
  rw [readProtocol_eq]
  exact byte.next fun _ => giving _

theorem length (width : Width) : GoesInSteps (readLength width) := by
  cases width with
  | u256 => exact giving (.ok 32)
  | b032 | b0255 | str0255 | b064k | b016m => exact nat _

theorem body (width : Width) (length : Nat) : GoesInSteps (readBody width length) := by
  unfold readBody
  split
  · exact (exactly length).next fun _ => giving _
  · exact giving _

theorem blob (width : Width) : GoesInSteps (readBlob width) := by
  rw [readBlob_eq]
  exact (length width).next (body width)

theorem option (goes : GoesInSteps reader) : GoesInSteps (readOption reader) := by
  rw [readOption_eq]
  refine byte.next fun byte => ?_
  split
  · exact giving _
  split
  · exact goes.next fun _ => giving _
  · exact giving _

theorem items
    (goes : GoesInSteps reader)
    (remaining : Nat)
    (taken : List α) :
    GoesInSteps fun input => readItems reader remaining input taken := by
  induction remaining generalizing taken with
  | zero => exact giving (.ok taken.reverse)
  | succ remaining ih =>
    rw [readItems_succ]
    exact goes.next fun element => ih (element :: taken)

theorem sequence (count : Count) (goes : GoesInSteps reader) :
    GoesInSteps (readSequence count reader) := by
  rw [readSequence_eq]
  exact (nat count.header).next fun length => (goes.items length []).next fun _ => giving _

theorem shape (shape : Shape) : GoesInSteps shape.read := by
  induction shape with
  | u8 => exact word 1 UInt8.ofNat
  | u16 => exact word 2 UInt16.ofNat
  | u32 => exact word 4 UInt32.ofNat
  | u64 => exact word 8 UInt64.ofNat
  | single => exact word 4 fun bits => Single.mk (UInt32.ofNat bits)
  | u24 => exact u24
  | bool => exact bool
  | protocol => exact protocol
  | blob width => exact blob width
  | option element ih => exact ih.option
  | seq count element ih => exact ih.sequence count

end GoesInSteps

namespace Codec

theorem read_field (first : Codec α) (others : Codec β) :
    (first.field others).read =
      readThen first.read fun value =>
        readThen others.read fun values => giving (.ok (value, values)) := by
  funext input
  rcases front : first.read input with failure | ⟨value, rest⟩
  · simp only [field, readThen, front, bind, Except.bind]
  · rcases back : others.read rest with failure | ⟨values, after⟩
    · simp only [field, readThen, front, back, bind, Except.bind]
    · simp only [field, readThen, front, back, bind, Except.bind]
      rfl

theorem read_structured (fields : Codec β) (toFields : α → β) (ofFields : β → α) :
    (fields.structured toFields ofFields).read =
      readThen fields.read fun values => giving (.ok (ofFields values)) := by
  funext input
  rcases front : fields.read input with failure | ⟨values, rest⟩
  · simp only [structured, readThen, front, bind, Except.bind]
  · simp only [structured, readThen, front, bind, Except.bind]
    rfl

theorem Declared.goesInSteps
    {codec : Codec α}
    (declared : codec.Declared) :
    GoesInSteps codec.read := by
  induction declared with
  | leaf shape => exact .shape shape
  | option _ ih => exact ih.option
  | seq count _ ih => exact ih.sequence count
  | bare => exact .giving (.ok ())
  | field _ _ ihFirst ihOthers =>
    rw [read_field]
    exact ihFirst.next fun value => ihOthers.next fun _ => .giving _
  | structured _ _ _ ih =>
    rw [read_structured]
    exact ih.next fun _ => .giving _

end Codec

end MiningPool.Wire
