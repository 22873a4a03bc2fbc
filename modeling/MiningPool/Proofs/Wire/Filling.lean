import MiningPool.Proofs.Wire.Codec

/-!
# Filling a destination

A writer is told how much room there is and answers the bytes to be written.  A filling
works on the destination itself: it claims room for each part, copies the part to where it
belongs and goes on behind it, on the rest of the destination.  What it leaves when it
fails half way is part of its result, and a range beyond the end of a destination is no
failure of the format but has no result at all.

Main result: every filling of the wire format follows its writer.  So it never reaches
beyond the end, it needs just the room of the size of its value, and it touches no byte
behind that.
-/

namespace MiningPool

/-- Bytes that are put over a destination one after the other are put over it together. -/
theorem Bytes.overwrite_append (destination front back : Bytes) :
    destination.overwrite (front ++ back) =
      front ++ Bytes.overwrite (destination.drop front.length) back := by
  simp only [overwrite, List.append_assoc, List.length_append, List.drop_drop]

namespace Wire

/-- The parts that are written before the elements stand before what the elements take. -/
theorem writeItems_eq_map
    {α : Type}
    (writeElement : α → (room : Nat) → Except WireError Bytes)
    (elements : List α)
    (room : Nat)
    (parts : List Bytes) :
    writeItems writeElement elements room parts =
      (writeItems writeElement elements room []).map (parts.reverse.flatten ++ ·) := by
  induction elements generalizing room parts with
  | nil => simp [writeItems, Except.map]
  | cons item rest ih =>
    simp only [writeItems]
    split
    · rfl
    next part _ =>
      rw [ih _ (part :: parts), ih _ [part]]
      cases writeItems writeElement rest (room - part.length) [] with
      | error failure => rfl
      | ok bytes => simp [Except.map]

/-- Elements are written one behind the other. -/
theorem writeItems_cons
    {α : Type}
    (writeElement : α → (room : Nat) → Except WireError Bytes)
    (item : α)
    (rest : List α)
    (room : Nat) :
    writeItems writeElement (item :: rest) room [] =
      writeThen (writeElement item room) room fun left =>
        writeItems writeElement rest left [] := by
  simp only [writeItems, writeThen]
  split
  · rfl
  next part _ =>
    rw [writeItems_eq_map _ _ _ [part]]
    cases writeItems writeElement rest (room - part.length) [] <;> simp [Except.map]

/-- Work on a destination, which may fail; none when a range lies beyond its end. -/
abbrev Filling (ε : Type) : Type → Type :=
  ExceptT ε (StateT Bytes Option)

namespace Filling

variable {ε α β : Type}

/-- Let a filling work on a destination. -/
def on (filling : Filling ε α) (destination : Bytes) : Option (Except ε α × Bytes) :=
  filling.run.run destination

/-- Fail unless a destination has room for some bytes. -/
def claim (size : Nat) : Filling WireError Unit := fun destination =>
  if destination.length < size then
    some (.error (.destinationTooShort size destination.length), destination)
  else some (.ok (), destination)

/-- Copy bytes over those from a position on. -/
def copy (position : Nat) (bytes : Bytes) : Filling ε Unit := fun destination =>
  if position + bytes.length ≤ destination.length then
    some (.ok (),
      destination.take position ++ bytes ++ destination.drop (position + bytes.length))
  else none

/-- Work on what a destination holds from a position on. -/
def within (position : Nat) (filling : Filling ε α) : Filling ε α := fun destination =>
  if position ≤ destination.length then
    (filling.on (destination.drop position)).map fun (result, rest) =>
      (result, destination.take position ++ rest)
  else none

/-- Go on behind the bytes that are written, and count those written then. -/
def advance (filling : Filling ε Nat) (written : Nat) : Filling ε Nat := do
  let more ← within written filling
  return written + more

/-! ## The fillings of the wire format -/

/-- Fill in an indivisible part. -/
def part (bytes : Bytes) : Filling WireError Nat := do
  claim bytes.length
  copy 0 bytes
  return bytes.length

/-- Fill in a byte string behind its length, if its type admits the length. -/
def blob {width : Width} (value : Blob width) : Filling WireError Nat := do
  let length := value.bytes.length
  unless width.Admits length do throw (width.refusal length)
  claim (width.header + length)
  copy 0 (Bytes.ofNatLE width.header length)
  copy width.header value.bytes
  return width.header + length

/-- Fill in an optional value behind the number of its elements. -/
def option (element : α → (written : Nat) → Filling WireError Nat) :
    Option α → Filling WireError Nat
  | none => part [0]
  | some item => do
    let written ← part [1]
    element item written

/-- Fill in elements one behind the other. -/
def items (element : α → (written : Nat) → Filling WireError Nat) :
    List α → (written : Nat) → Filling WireError Nat
  | [], written => return written
  | item :: rest, written => do
    let written ← element item written
    items element rest written

/-- Fill in the elements of a sequence behind their number, if there are not too many. -/
def sequence
    {count : Count}
    (element : α → (written : Nat) → Filling WireError Nat)
    (value : Sequence count α) :
    Filling WireError Nat := do
  let length := value.items.length
  unless length ≤ count.max do throw (.sequenceTooLong length)
  let written ← part (Bytes.ofNatLE count.header length)
  items element value.items written

end Filling

/-- Fill in a value of a shape. -/
def Shape.fill : (shape : Shape) → shape.Value → Filling WireError Nat
  | u8, value => .part (Bytes.ofNatLE 1 value.toNat)
  | u16, value => .part (Bytes.ofNatLE 2 value.toNat)
  | u24, value => .part (Bytes.ofNatLE 3 value.toNat)
  | u32, value => .part (Bytes.ofNatLE 4 value.toNat)
  | u64, value => .part (Bytes.ofNatLE 8 value.toNat)
  | single, value => .part (Bytes.ofNatLE 4 value.bits.toNat)
  | bool, value => .part [if value then 1 else 0]
  | protocol, value => .part [value.code]
  | blob _, value => .blob value
  | option element, value => .option (fun item => .advance (element.fill item)) value
  | seq _ element, value => .sequence (fun item => .advance (element.fill item)) value

/-- Fill in the fields of a schema, each behind those before. -/
def Schema.fill : (schema : Schema) → schema.Values → (written : Nat) → Filling WireError Nat
  | [], _, written => return written
  | (_, shape) :: rest, (value, values), written => do
    let written ← Filling.advance (shape.fill value) written
    fill rest values written

/-- Fill in a record. -/
def Record.fill {α : Type} [Record α] (value : α) : Filling WireError Nat :=
  (schema α).fill (toFields value) 0

namespace Filling

variable {ε α β : Type}

/-! ## Steps -/

theorem on_pure (value : α) (destination : Bytes) :
    (pure value : Filling ε α).on destination = some (.ok value, destination) :=
  rfl

theorem on_bind
    (filling : Filling ε α)
    (next : α → Filling ε β)
    (destination : Bytes) :
    (filling >>= next).on destination =
      (filling.on destination).bind fun (result, left) =>
        match result with
        | .error failure => some (.error failure, left)
        | .ok value => (next value).on left := by
  show (filling.on destination).bind (fun (result, left) =>
    (ExceptT.bindCont next result : StateT Bytes Option (Except ε β)) left) = _
  congr 1
  funext ⟨result, left⟩
  cases result <;> rfl

theorem on_bind_of_ok
    {filling : Filling ε α}
    {destination left : Bytes}
    {value : α}
    (done : filling.on destination = some (.ok value, left))
    (next : α → Filling ε β) :
    (filling >>= next).on destination = (next value).on left := by
  rw [on_bind, done]
  rfl

theorem on_bind_of_error
    {filling : Filling ε α}
    {destination left : Bytes}
    {failure : ε}
    (failed : filling.on destination = some (.error failure, left))
    (next : α → Filling ε β) :
    (filling >>= next).on destination = some (.error failure, left) := by
  rw [on_bind, failed]
  rfl

theorem on_adapt
    {δ : Type}
    (rename : ε → δ)
    (filling : Filling ε α)
    (destination : Bytes) :
    on (ExceptT.adapt rename filling) destination =
      (filling.on destination).map fun (result, left) => (result.mapError rename, left) := by
  show (filling.on destination).bind _ = _
  cases filling.on destination <;> rfl

/-! ## Fillings that follow a writer -/

/--
Behind bytes that are in place, a filling puts down what a writer answers for the room
there, and fails as the writer does.  The bytes in place stay as they are.
-/
structure Fills
    (front : Bytes)
    (filling : Filling WireError Nat)
    (writer : (room : Nat) → Except WireError Bytes) : Prop where
  puts : ∀ rest bytes, writer rest.length = .ok bytes →
    bytes.length ≤ rest.length ∧
      filling.on (front ++ rest) =
        some (.ok (front ++ bytes).length, front ++ rest.overwrite bytes)
  fails : ∀ rest failure, writer rest.length = .error failure →
    ∃ left, left.length = rest.length ∧
      filling.on (front ++ rest) = some (.error failure, front ++ left)

theorem on_claim_of_room
    {size : Nat}
    {destination : Bytes}
    (roomy : size ≤ destination.length) :
    (claim size).on destination = some (.ok (), destination) :=
  if_neg (Nat.not_lt.mpr roomy)

theorem on_claim_of_short
    {size : Nat}
    {destination : Bytes}
    (tight : destination.length < size) :
    (claim size).on destination =
      some (.error (.destinationTooShort size destination.length), destination) :=
  if_pos tight

/-- Bytes are copied over as many bytes behind those in place. -/
theorem on_copy_append
    (front bytes rest : Bytes)
    (roomy : bytes.length ≤ rest.length) :
    (copy front.length bytes : Filling ε Unit).on (front ++ rest) =
      some (.ok (), front ++ rest.overwrite bytes) := by
  have inside : front.length + bytes.length ≤ (front ++ rest).length := by
    rw [List.length_append]
    omega
  show (if front.length + bytes.length ≤ (front ++ rest).length then _ else none) = _
  rw [if_pos inside, List.take_left, ← List.drop_drop, List.drop_left, List.append_assoc]
  rfl

theorem on_copy_zero
    (bytes destination : Bytes)
    (roomy : bytes.length ≤ destination.length) :
    (copy 0 bytes : Filling ε Unit).on destination =
      some (.ok (), destination.overwrite bytes) :=
  on_copy_append [] bytes destination roomy

/-- Bytes that are copied behind others over a destination are copied with them. -/
theorem on_copy_behind
    {position : Nat}
    {front : Bytes}
    (behind : front.length = position)
    (bytes destination : Bytes)
    (roomy : position + bytes.length ≤ destination.length) :
    (copy position bytes : Filling ε Unit).on (destination.overwrite front) =
      some (.ok (), destination.overwrite (front ++ bytes)) := by
  subst behind
  rw [Bytes.overwrite_append]
  exact on_copy_append front bytes _ (by rw [List.length_drop]; omega)

theorem on_within_append
    (front rest : Bytes)
    (filling : Filling ε α) :
    (within front.length filling).on (front ++ rest) =
      (filling.on rest).map fun (result, left) => (result, front ++ left) := by
  have inside : front.length ≤ (front ++ rest).length := by
    rw [List.length_append]
    omega
  show (if front.length ≤ (front ++ rest).length then _ else none) = _
  rw [if_pos inside, List.drop_left, List.take_left]

theorem fills_part (bytes : Bytes) : Fills [] (part bytes) (place bytes) where
  puts rest written fits := by
    rw [place] at fits
    split at fits
    · cases fits
    next tight =>
      cases fits
      have roomy := Nat.not_lt.mp tight
      refine ⟨roomy, ?_⟩
      rw [part, List.nil_append, on_bind_of_ok (on_claim_of_room roomy),
        on_bind_of_ok (on_copy_zero bytes rest roomy)]
      rfl
  fails rest failure short := by
    rw [place] at short
    split at short
    next tight =>
      cases short
      exact ⟨rest, rfl, on_bind_of_error (on_claim_of_short tight) _⟩
    · cases short

/-- The length of a byte string and its bytes are copied apart, but room is claimed for both. -/
theorem fills_blob
    {width : Width}
    (value : Blob width) :
    Fills [] (blob value)
      (place (Bytes.ofNatLE width.header value.bytes.length ++ value.bytes)) := by
  have header := Bytes.length_ofNatLE width.header value.bytes.length
  have size :
      (Bytes.ofNatLE width.header value.bytes.length ++ value.bytes).length =
        width.header + value.bytes.length := by
    rw [List.length_append, header]
  have admitted (destination : Bytes) :
      (blob value).on destination =
        (do
          claim (width.header + value.bytes.length)
          copy 0 (Bytes.ofNatLE width.header value.bytes.length)
          copy width.header value.bytes
          return width.header + value.bytes.length : Filling WireError Nat).on destination := by
    simp only [blob, value.admitted, if_true]
  constructor
  · intro rest written fits
    rw [place, size] at fits
    split at fits
    · cases fits
    next tight =>
      cases fits
      have roomy := Nat.not_lt.mp tight
      refine ⟨by omega, ?_⟩
      rw [List.nil_append, admitted, on_bind_of_ok (on_claim_of_room roomy),
        on_bind_of_ok (on_copy_zero _ rest (by omega)),
        on_bind_of_ok (on_copy_behind header value.bytes rest roomy), on_pure,
        List.nil_append, size, List.nil_append]
  · intro rest failure short
    rw [place, size] at short
    split at short
    next tight =>
      cases short
      refine ⟨rest, rfl, ?_⟩
      rw [List.nil_append, admitted, on_bind_of_error (on_claim_of_short tight)]
    · cases short

/-- What starts behind no bytes can be moved behind any. -/
theorem Fills.advance
    {filling : Filling WireError Nat}
    {writer : (room : Nat) → Except WireError Bytes}
    (fills : Fills [] filling writer)
    (front : Bytes) :
    Fills front (filling.advance front.length) writer where
  puts rest bytes fits := by
    obtain ⟨roomy, done⟩ := fills.puts rest bytes fits
    refine ⟨roomy, ?_⟩
    simp only [List.nil_append] at done
    have moved := on_within_append front rest filling
    rw [done] at moved
    rw [Filling.advance, on_bind_of_ok moved, on_pure, List.length_append]
  fails rest failure short := by
    obtain ⟨left, same, failed⟩ := fills.fails rest failure short
    simp only [List.nil_append] at failed
    have moved := on_within_append front rest filling
    rw [failed] at moved
    exact ⟨left, same, on_bind_of_error moved _⟩

theorem fills_pure (front : Bytes) : Fills front (pure front.length) fun _ => .ok [] where
  puts rest bytes fits := by
    cases fits
    exact ⟨Nat.zero_le _, by rw [List.append_nil]; rfl⟩
  fails rest failure short := by cases short

/-- One filling after another follows one writer after the other. -/
theorem Fills.bind
    {front : Bytes}
    {first : Filling WireError Nat}
    {second : (written : Nat) → Filling WireError Nat}
    {writeFirst writeSecond : (room : Nat) → Except WireError Bytes}
    (fillsFirst : Fills front first writeFirst)
    (fillsSecond : ∀ longer, Fills longer (second longer.length) writeSecond) :
    Fills front (first >>= second) fun room => writeThen (writeFirst room) room writeSecond where
  puts rest bytes fits := by
    simp only [writeThen] at fits
    split at fits
    · cases fits
    next head firstFits =>
      split at fits
      · cases fits
      next back secondFits =>
        cases fits
        obtain ⟨firstRoomy, firstDone⟩ := fillsFirst.puts rest head firstFits
        rw [← List.length_drop] at secondFits
        obtain ⟨secondRoomy, secondDone⟩ :=
          (fillsSecond (front ++ head)).puts (rest.drop head.length) back secondFits
        rw [List.length_drop] at secondRoomy
        refine ⟨by rw [List.length_append]; omega, ?_⟩
        rw [on_bind_of_ok firstDone, Bytes.overwrite_append]
        simpa only [Bytes.overwrite, List.append_assoc] using secondDone
  fails rest failure short := by
    simp only [writeThen] at short
    split at short
    next firstShort =>
      cases short
      obtain ⟨left, same, failed⟩ := fillsFirst.fails rest failure firstShort
      exact ⟨left, same, on_bind_of_error failed _⟩
    next head firstFits =>
      split at short
      next secondShort =>
        cases short
        obtain ⟨firstRoomy, firstDone⟩ := fillsFirst.puts rest head firstFits
        rw [← List.length_drop] at secondShort
        obtain ⟨left, same, failed⟩ :=
          (fillsSecond (front ++ head)).fails (rest.drop head.length) failure secondShort
        rw [List.length_drop] at same
        refine ⟨head ++ left, by rw [List.length_append]; omega, ?_⟩
        rw [on_bind_of_ok firstDone]
        simpa only [Bytes.overwrite, List.append_assoc] using failed
      · cases short

theorem fills_option
    {element : α → (written : Nat) → Filling WireError Nat}
    {writeElement : α → (room : Nat) → Except WireError Bytes}
    (fills : ∀ item front, Fills front (element item front.length) (writeElement item)) :
    ∀ value : Option α,
      Fills [] (option element value) fun room =>
        value.elim (place [0] room) fun item =>
          writeThen (place [1] room) room (writeElement item)
  | none => fills_part [0]
  | some item => (fills_part [1]).bind (fills item)

theorem fills_items
    {element : α → (written : Nat) → Filling WireError Nat}
    {writeElement : α → (room : Nat) → Except WireError Bytes}
    (fills : ∀ item front, Fills front (element item front.length) (writeElement item))
    (elements : List α)
    (front : Bytes) :
    Fills front (items element elements front.length) fun room =>
      writeItems writeElement elements room [] := by
  induction elements generalizing front with
  | nil => exact fills_pure front
  | cons item rest ih =>
    simp only [writeItems_cons]
    exact (fills item front).bind ih

theorem fills_sequence
    {count : Count}
    {element : α → (written : Nat) → Filling WireError Nat}
    {writeElement : α → (room : Nat) → Except WireError Bytes}
    (fills : ∀ item front, Fills front (element item front.length) (writeElement item))
    (value : Sequence count α) :
    Fills [] (sequence element value) fun room =>
      writeThen (place (Bytes.ofNatLE count.header value.items.length) room) room
        fun left => writeItems writeElement value.items left [] := by
  have bounded :
      sequence element value =
        (do
          let written ← part (Bytes.ofNatLE count.header value.items.length)
          items element value.items written) := by
    simp only [sequence, value.bounded, if_true]
  rw [bounded]
  exact (fills_part _).bind (fills_items fills value.items)

end Filling

open Filling

theorem Shape.fills_fill
    (shape : Shape)
    (value : shape.Value) :
    Fills [] (shape.fill value) (shape.write value) := by
  induction shape with
  | u8 | u16 | u24 | u32 | u64 | single | bool | protocol => exact fills_part _
  | blob width => exact fills_blob value
  | option element ih =>
    have fills := fills_option (fun item => (ih item).advance) value
    cases value <;> exact fills
  | seq count element ih => exact fills_sequence (fun item => (ih item).advance) value

theorem Schema.fills_fill
    (schema : Schema)
    (values : schema.Values)
    (front : Bytes) :
    Fills front (schema.fill values front.length) (schema.write values) := by
  induction schema generalizing front with
  | nil => exact fills_pure front
  | cons field rest ih =>
    exact ((field.2.fills_fill values.1).advance front).bind (ih values.2)

theorem Record.fills_fill
    {α : Type}
    [Record α]
    (value : α) :
    Fills [] (fill value) (write value) :=
  (schema α).fills_fill (toFields value) []

/-! ## Codecs -/

namespace Codec

variable {α β : Type}

/-- The filling of a codec, put together from those of its parts as the codec is. -/
inductive FilledBy :
    {α : Type} → Codec α → (α → (written : Nat) → Filling WireError Nat) → Prop
  /-- A type whose name is a single word. -/
  | leaf
      (shape : Shape)
      (single : shape ∈ Shape.leaves) :
      FilledBy (ofShape shape) fun value => .advance (shape.fill value)
  /-- Optional values. -/
  | option
      {α : Type}
      {element : Codec α}
      {fill : α → (written : Nat) → Filling WireError Nat}
      (filled : FilledBy element fill) :
      FilledBy element.option fun value => .advance (.option fill value)
  /-- Sequences. -/
  | seq
      {α : Type}
      {element : Codec α}
      {fill : α → (written : Nat) → Filling WireError Nat}
      (count : Count)
      (filled : FilledBy element fill) :
      FilledBy (element.seq count) fun value => .advance (.sequence fill value)
  /-- A record without fields. -/
  | bare : FilledBy bare fun _ written => pure written
  /-- A field and the fields after it. -/
  | field
      {α β : Type}
      {first : Codec α}
      {others : Codec β}
      {fillFirst : α → (written : Nat) → Filling WireError Nat}
      {fillOthers : β → (written : Nat) → Filling WireError Nat}
      (filledFirst : FilledBy first fillFirst)
      (filledOthers : FilledBy others fillOthers) :
      FilledBy (first.field others) fun fields written => do
        let written ← fillFirst fields.1 written
        fillOthers fields.2 written
  /-- A structure. -/
  | structured
      {α β : Type}
      {fields : Codec β}
      {toFields : α → β}
      {ofFields : β → α}
      {fill : β → (written : Nat) → Filling WireError Nat}
      (ofFields_toFields : ∀ value, ofFields (toFields value) = value)
      (toFields_ofFields : ∀ values, toFields (ofFields values) = values)
      (filled : FilledBy fields fill) :
      FilledBy (fields.structured toFields ofFields) fun value =>
        .advance (fill (toFields value) 0)

theorem FilledBy.shape (shape : Shape) :
    FilledBy (ofShape shape) fun value => .advance (shape.fill value) := by
  induction shape with
  | u8 | u16 | u24 | u32 | u64 | single | bool | protocol => exact .leaf _ (by decide)
  | blob width => exact .leaf _ (by cases width <;> decide)
  | option element ih => exact ofShape_option element ▸ ih.option
  | seq count element ih => exact ofShape_seq count element ▸ ih.seq count

theorem FilledBy.schema (schema : Schema) : FilledBy (ofSchema schema) schema.fill := by
  induction schema with
  | nil => exact .bare
  | cons field rest ih => exact ofSchema_cons field rest ▸ (FilledBy.shape field.2).field ih

theorem FilledBy.record (α : Type) [Record α] :
    FilledBy (ofRecord α) fun value => .advance (Record.fill value) := by
  rw [ofRecord_eq]
  exact .structured Record.ofFields_toFields Record.toFields_ofFields (.schema _)

variable
  {codec : Codec α}
  {fill : α → (written : Nat) → Filling WireError Nat}

theorem FilledBy.declared (filled : codec.FilledBy fill) : codec.Declared := by
  induction filled with
  | leaf shape single => exact .leaf shape single
  | option _ ih => exact ih.option
  | seq count _ ih => exact ih.seq count
  | bare => exact .bare
  | field _ _ ihFirst ihOthers => exact ihFirst.field ihOthers
  | structured ofFields_toFields toFields_ofFields _ ih =>
    exact .structured ofFields_toFields toFields_ofFields ih

theorem Declared.exists_filledBy (declared : codec.Declared) : ∃ fill, codec.FilledBy fill := by
  induction declared with
  | leaf shape single => exact ⟨_, .leaf shape single⟩
  | option _ ih => exact ih.imp' _ fun _ filled => filled.option
  | seq count _ ih => exact ih.imp' _ fun _ filled => filled.seq count
  | bare => exact ⟨_, .bare⟩
  | field _ _ ihFirst ihOthers =>
    obtain ⟨fillFirst, filledFirst⟩ := ihFirst
    obtain ⟨fillOthers, filledOthers⟩ := ihOthers
    exact ⟨_, filledFirst.field filledOthers⟩
  | structured ofFields_toFields toFields_ofFields _ ih =>
    exact ih.imp' _ fun _ filled => .structured ofFields_toFields toFields_ofFields filled

theorem FilledBy.fills
    (filled : codec.FilledBy fill)
    (value : α)
    (front : Bytes) :
    Fills front (fill value front.length) (codec.write value) := by
  induction filled generalizing front with
  | leaf shape single => exact (shape.fills_fill value).advance front
  | option _ ih =>
    have fills := (fills_option ih value).advance front
    cases value <;> exact fills
  | seq count _ ih => exact (fills_sequence ih value).advance front
  | bare => exact fills_pure front
  | field _ _ ihFirst ihOthers => exact (ihFirst value.1 front).bind (ihOthers value.2)
  | structured _ _ _ ih => exact (ih _ []).advance front

end Codec

/-! ## Bytes that are laid down -/

namespace Filling

/--
Behind bytes that are in place, a filling puts certain bytes over as many others, whatever
those are, and leaves all bytes around them; it fails when there are not so many.
-/
structure Lays (front : Bytes) (filling : Filling WireError Nat) (bytes : Bytes) : Prop where
  enough : ∀ rest, bytes.length ≤ rest.length →
    filling.on (front ++ rest) =
      some (.ok (front.length + bytes.length), front ++ bytes ++ rest.drop bytes.length)
  short : ∀ rest, rest.length < bytes.length →
    ∃ needed available left, left.length = rest.length ∧
      filling.on (front ++ rest) =
        some (.error (.destinationTooShort needed available), front ++ left)

theorem Fills.lays
    {front : Bytes}
    {filling : Filling WireError Nat}
    {writer : (room : Nat) → Except WireError Bytes}
    {bytes : Bytes}
    (fills : Fills front filling writer)
    (writes : Writes writer bytes) :
    Lays front filling bytes where
  enough rest roomy := by
    rw [(fills.puts rest bytes (writes.fits rest.length roomy)).2, List.length_append,
      Bytes.overwrite, List.append_assoc]
  short rest tight := by
    obtain ⟨needed, available, failed⟩ := writes.short rest.length tight
    obtain ⟨left, same, done⟩ := fills.fails rest _ failed
    exact ⟨needed, available, left, same, done⟩

end Filling

end Wire

end MiningPool
