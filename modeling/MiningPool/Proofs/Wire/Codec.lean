import MiningPool.Proofs.Wire.Canonical
import MiningPool.Message.Common
import MiningPool.Wire.Name

/-!
# Codecs

A codec is what the wire format makes of a type: which values its constructors accept, and
how values are sized, written and read.  The codecs of the wire format are closed under
optional values, sequences and records, nested to any depth, so a sequence of records is of
the wire format like a record of sequences.

Main results: a value is read back from what is written for it, whatever follows, and what
is read is written again byte for byte.  Together they say that the values of a type and
their written forms correspond to each other, and that no written form starts another one.
-/

namespace MiningPool.Wire

/-- Whether the constructors of the type of a shape accept a value, with all of its parts. -/
def Shape.Accepts : (shape : Shape) → shape.Value → Prop
  | u24, value => U24.ofNat value.toNat = .ok value
  | protocol, value => Protocol.ofCode value.code = .ok value
  | blob _, value => Blob.ofBytes value.bytes = .ok value
  | option element, value => ∀ item ∈ value, element.Accepts item
  | seq _ element, value =>
    Sequence.ofList value.items = .ok value ∧ ∀ item ∈ value.items, element.Accepts item
  | _, _ => True

/-- The limits of a type are those of its constructors. -/
theorem Shape.accepts_value
    (shape : Shape)
    (value : shape.Value) :
    shape.Accepts value := by
  induction shape with
  | u8 | u16 | u32 | u64 | single | bool => trivial
  | u24 => exact dif_pos value.isLt
  | protocol => cases value <;> rfl
  | blob width => exact dif_pos value.admitted
  | option element ih => exact fun item _ => ih item
  | seq count element ih => exact ⟨dif_pos value.bounded, fun item _ => ih item⟩

/-- Whether the constructors of the types of the fields accept their values. -/
def Schema.Accepts : (schema : Schema) → schema.Values → Prop
  | [], _ => True
  | (_, shape) :: rest, (value, values) => shape.Accepts value ∧ Accepts rest values

/-- What the wire format makes of a type. -/
structure Codec (α : Type) where
  /-- The values that the constructors of the type accept. -/
  Accepts : α → Prop
  /-- The number of bytes that a value takes. -/
  size : α → Nat
  /-- Write a value into a destination with `room` bytes left. -/
  write : α → (room : Nat) → Except WireError Bytes
  /-- Read a value from the front of the input. -/
  read : Bytes → Except WireError (α × Bytes)

namespace Codec

variable {α β : Type}

/-! ## The codecs of the wire format -/

/-- The codec of a shape. -/
def ofShape (shape : Shape) : Codec shape.Value :=
  ⟨shape.Accepts, shape.size, shape.write, shape.read⟩

/-- The codec of the fields of a schema. -/
def ofSchema (schema : Schema) : Codec schema.Values :=
  ⟨schema.Accepts, schema.size, schema.write, schema.read⟩

/-- The codec of a record. -/
def ofRecord (α : Type) [Record α] : Codec α :=
  ⟨fun value => (Record.schema α).Accepts (Record.toFields value),
   Record.size, Record.write, Record.read⟩

/-- The codec of an optional value. -/
def option (element : Codec α) : Codec (Option α) where
  Accepts value := ∀ item ∈ value, element.Accepts item
  size
    | none => 1
    | some item => 1 + element.size item
  write
    | none, room => place [0] room
    | some item, room => writeThen (place [1] room) room (element.write item)
  read := readOption element.read

/-- The codec of a sequence. -/
def seq (count : Count) (element : Codec α) : Codec (Sequence count α) where
  Accepts value :=
    Sequence.ofList value.items = .ok value ∧ ∀ item ∈ value.items, element.Accepts item
  size value := value.items.foldl (fun total item => total + element.size item) count.header
  write value room :=
    writeThen (place (Bytes.ofNatLE count.header value.items.length) room) room
      fun left => writeItems element.write value.items left []
  read := readSequence count element.read

/-- The codec of a record without fields. -/
def bare : Codec Unit where
  Accepts _ := True
  size _ := 0
  write _ _ := .ok []
  read input := .ok ((), input)

/-- The codec of a field and the fields after it. -/
def field (first : Codec α) (others : Codec β) : Codec (α × β) where
  Accepts fields := first.Accepts fields.1 ∧ others.Accepts fields.2
  size fields := first.size fields.1 + others.size fields.2
  write fields room := writeThen (first.write fields.1 room) room (others.write fields.2)
  read input := do
    let (value, input) ← first.read input
    let (values, input) ← others.read input
    return ((value, values), input)

/-- The codec of a structure that is taken apart into its fields. -/
def structured (fields : Codec β) (toFields : α → β) (ofFields : β → α) : Codec α where
  Accepts value := fields.Accepts (toFields value)
  size value := fields.size (toFields value)
  write value := fields.write (toFields value)
  read input := do
    let (values, rest) ← fields.read input
    return (ofFields values, rest)

/-- A codec of the wire format: a type of one word, or built from such in one of its ways. -/
inductive Declared : {α : Type} → Codec α → Prop
  /-- A type whose name is a single word. -/
  | leaf
      (shape : Shape)
      (single : shape ∈ Shape.leaves) :
      Declared (ofShape shape)
  /-- Optional values. -/
  | option
      {α : Type}
      {element : Codec α}
      (declared : Declared element) :
      Declared element.option
  /-- Sequences. -/
  | seq
      {α : Type}
      {element : Codec α}
      (count : Count)
      (declared : Declared element) :
      Declared (element.seq count)
  /-- A record without fields. -/
  | bare : Declared bare
  /-- A field and the fields after it. -/
  | field
      {α β : Type}
      {first : Codec α}
      {others : Codec β}
      (declaredFirst : Declared first)
      (declaredOthers : Declared others) :
      Declared (first.field others)
  /-- A structure. -/
  | structured
      {α β : Type}
      {fields : Codec β}
      {toFields : α → β}
      {ofFields : β → α}
      (ofFields_toFields : ∀ value, ofFields (toFields value) = value)
      (toFields_ofFields : ∀ values, toFields (ofFields values) = values)
      (declared : Declared fields) :
      Declared (fields.structured toFields ofFields)

/-! ## Shapes and records have codecs of the wire format -/

theorem ofShape_option (element : Shape) :
    ofShape (.option element) = (ofShape element).option := by
  have size : (Shape.option element).size = (ofShape element).option.size := by
    funext value
    cases value <;> rfl
  have write : (Shape.option element).write = (ofShape element).option.write := by
    funext value room
    cases value <;> rfl
  rw [ofShape, size, write]
  rfl

theorem ofShape_seq
    (count : Count)
    (element : Shape) :
    ofShape (.seq count element) = (ofShape element).seq count :=
  rfl

theorem Declared.shape (shape : Shape) : Declared (ofShape shape) := by
  induction shape with
  | u8 | u16 | u24 | u32 | u64 | single | bool | protocol => exact .leaf _ (by decide)
  | blob width => exact .leaf _ (by cases width <;> decide)
  | option element ih => exact ofShape_option element ▸ ih.option
  | seq count element ih => exact ofShape_seq count element ▸ ih.seq count

theorem ofSchema_cons
    (field : String × Shape)
    (rest : Schema) :
    ofSchema (field :: rest) = (ofShape field.2).field (ofSchema rest) :=
  rfl

theorem Declared.schema (schema : Schema) : Declared (ofSchema schema) := by
  induction schema with
  | nil => exact .bare
  | cons field rest ih => exact ofSchema_cons field rest ▸ (Declared.shape field.2).field ih

theorem ofRecord_eq (α : Type) [Record α] :
    ofRecord α = (ofSchema (Record.schema α)).structured Record.toFields Record.ofFields :=
  rfl

theorem Declared.record (α : Type) [Record α] : Declared (ofRecord α) := by
  rw [ofRecord_eq]
  exact .structured Record.ofFields_toFields Record.toFields_ofFields (.schema _)

/-! ## Laws -/

/-- A codec whose values have an encoding each, which is written and read and nothing else. -/
structure Lawful (codec : Codec α) (encode : α → Bytes) : Prop where
  accepts : ∀ value, codec.Accepts value
  length : ∀ value, (encode value).length = codec.size value
  writes : ∀ value, Writes (codec.write value) (encode value)
  reads : Reads codec.read encode
  canonical : Canonical codec.read encode

namespace Lawful

variable {encode : α → Bytes} {encodeOthers : β → Bytes}

theorem shape (shape : Shape) : (ofShape shape).Lawful shape.encoding where
  accepts := shape.accepts_value
  length := shape.length_encoding
  writes := shape.writes_encoding
  reads := shape.reads_encoding
  canonical := shape.canonical_encoding

theorem option
    {element : Codec α}
    (lawful : element.Lawful encode) :
    element.option.Lawful fun value => value.elim [0] fun item => 1 :: encode item where
  accepts value item _ := lawful.accepts item
  length value := by
    cases value with
    | none => rfl
    | some item =>
      show (1 :: encode item).length = 1 + element.size item
      rw [List.length_cons, lawful.length, Nat.add_comm]
  writes value := by
    cases value with
    | none => exact writes_place [0]
    | some item => exact (writes_place [1]).writeThen (lawful.writes item)
  reads := lawful.reads.option
  canonical := lawful.canonical.option

theorem seq
    {element : Codec α}
    (count : Count)
    (lawful : element.Lawful encode) :
    (element.seq count).Lawful fun value =>
      Bytes.ofNatLE count.header value.items.length ++ value.items.flatMap encode where
  accepts value := ⟨dif_pos value.bounded, fun item _ => lawful.accepts item⟩
  length value := by
    rw [List.length_append, Bytes.length_ofNatLE]
    exact (foldl_size lawful.length value.items count.header).symm
  writes value := (writes_place _).writeThen (writes_items lawful.writes value.items)
  reads := lawful.reads.sequence count
  canonical := lawful.canonical.sequence count

theorem bare : Codec.bare.Lawful fun _ => [] where
  accepts _ := trivial
  length _ := rfl
  writes _ := writes_nil
  reads _ _ := rfl
  canonical input value rest read := by
    cases read
    rfl

theorem field
    {first : Codec α}
    {others : Codec β}
    (lawfulFirst : first.Lawful encode)
    (lawfulOthers : others.Lawful encodeOthers) :
    (first.field others).Lawful fun fields => encode fields.1 ++ encodeOthers fields.2 where
  accepts fields := ⟨lawfulFirst.accepts fields.1, lawfulOthers.accepts fields.2⟩
  length fields := by
    rw [List.length_append, lawfulFirst.length, lawfulOthers.length]
    rfl
  writes fields := (lawfulFirst.writes fields.1).writeThen (lawfulOthers.writes fields.2)
  reads fields rest := by
    have front := lawfulFirst.reads fields.1 (encodeOthers fields.2 ++ rest)
    have back := lawfulOthers.reads fields.2 rest
    simp only [Codec.field, List.append_assoc, front, bind, Except.bind, back]
    rfl
  canonical input fields rest read := by
    obtain ⟨⟨value, middle⟩, front, read⟩ := of_bind_eq_ok read
    obtain ⟨⟨values, after⟩, back, read⟩ := of_bind_eq_ok read
    cases read
    show input = encode value ++ encodeOthers values ++ rest
    rw [lawfulFirst.canonical _ _ _ front, lawfulOthers.canonical _ _ _ back,
      List.append_assoc]

theorem structured
    {fields : Codec β}
    {toFields : α → β}
    {ofFields : β → α}
    (ofFields_toFields : ∀ value, ofFields (toFields value) = value)
    (toFields_ofFields : ∀ values, toFields (ofFields values) = values)
    (lawful : fields.Lawful encodeOthers) :
    (fields.structured toFields ofFields).Lawful fun value => encodeOthers (toFields value) where
  accepts value := lawful.accepts (toFields value)
  length value := lawful.length (toFields value)
  writes value := lawful.writes (toFields value)
  reads value rest := by
    have taken := lawful.reads (toFields value) rest
    simp only [Codec.structured, taken, bind, Except.bind, ofFields_toFields]
    rfl
  canonical input value rest read := by
    obtain ⟨⟨values, after⟩, taken, read⟩ := of_bind_eq_ok read
    cases read
    show input = encodeOthers (toFields (ofFields values)) ++ rest
    rw [toFields_ofFields, lawful.canonical _ _ _ taken]

/-- A value is read just off the front of its encoding. -/
theorem read_eq_ok_iff
    {codec : Codec α}
    (lawful : codec.Lawful encode)
    (input : Bytes)
    (value : α)
    (rest : Bytes) :
    codec.read input = .ok (value, rest) ↔ input = encode value ++ rest := by
  constructor
  · exact lawful.canonical input value rest
  · rintro rfl
    exact lawful.reads value rest

/-- What is written for a value where there is just enough room is its encoding. -/
theorem write_size
    {codec : Codec α}
    (lawful : codec.Lawful encode)
    (value : α) :
    codec.write value (codec.size value) = .ok (encode value) :=
  (lawful.writes value).fits _ (Nat.le_of_eq (lawful.length value))

end Lawful

/-- Every codec of the wire format is lawful. -/
theorem Declared.lawful
    {codec : Codec α}
    (declared : codec.Declared) :
    ∃ encode, codec.Lawful encode := by
  induction declared with
  | leaf shape => exact ⟨_, .shape shape⟩
  | option _ ih =>
    obtain ⟨encode, lawful⟩ := ih
    exact ⟨_, lawful.option⟩
  | seq count _ ih =>
    obtain ⟨encode, lawful⟩ := ih
    exact ⟨_, lawful.seq count⟩
  | bare => exact ⟨_, .bare⟩
  | field _ _ ihFirst ihOthers =>
    obtain ⟨encode, lawful⟩ := ihFirst
    obtain ⟨encodeOthers, lawfulOthers⟩ := ihOthers
    exact ⟨_, lawful.field lawfulOthers⟩
  | structured ofFields_toFields toFields_ofFields _ ih =>
    obtain ⟨encode, lawful⟩ := ih
    exact ⟨_, lawful.structured ofFields_toFields toFields_ofFields⟩

/--
Reading undoes writing.  A value of a type of the wire format is written wherever there is
room for its size, always as the same bytes, and these are as many as its size says.  The
value is read off the front of these bytes and of whatever follows them.  So they start what
is written for another value only if it is the same value, and bytes after a value never
change what is read.
-/
theorem read_written
    {codec : Codec α}
    (declared : codec.Declared)
    (value : α) :
    ∃ encoded,
      encoded.length = codec.size value ∧
      (∀ room, codec.size value ≤ room → codec.write value room = .ok encoded) ∧
      (∀ rest, codec.read (encoded ++ rest) = .ok (value, rest)) ∧
      (∀ other longer,
        codec.write other (codec.size other) = .ok longer → encoded <+: longer →
          other = value ∧ longer = encoded) ∧
      ∀ input rest,
        codec.read input = .ok (value, rest) →
          ∀ more, codec.read (input ++ more) = .ok (value, rest ++ more) := by
  obtain ⟨encode, lawful⟩ := declared.lawful
  refine ⟨encode value, lawful.length value, ?_, lawful.reads value, ?_, ?_⟩
  · intro room roomy
    apply (lawful.writes value).fits
    rw [lawful.length]
    exact roomy
  · intro other longer written front
    rw [lawful.write_size] at written
    cases written
    obtain ⟨rest, same⟩ := front
    -- The longer encoding is read as the one value and as the other.
    have one : codec.read (encode other) = .ok (value, rest) := by
      rw [← same]
      exact lawful.reads value rest
    have two : codec.read (encode other) = .ok (other, []) := by
      have read := lawful.reads other []
      rwa [List.append_nil] at read
    rw [one] at two
    cases two
    exact ⟨rfl, rfl⟩
  · intro input rest read more
    rw [lawful.read_eq_ok_iff] at read ⊢
    rw [read, List.append_assoc]

/-- Sequences of optional messages that announce another endpoint. -/
def announcements : Codec (Sequence .seq0255 (Option Message.Common.ChannelEndpointChanged)) :=
  (ofRecord Message.Common.ChannelEndpointChanged).option.seq .seq0255

theorem declared_announcements : announcements.Declared :=
  (Declared.record Message.Common.ChannelEndpointChanged).option.seq .seq0255

/-- The endpoint of one channel, and a message that is left out. -/
def announced : Sequence .seq0255 (Option Message.Common.ChannelEndpointChanged) :=
  ⟨[some ⟨7⟩, none], by decide⟩

theorem read_written_announcements :
    ∃ encoded : Bytes,
      encoded.length = 7 ∧
        announcements.read (encoded ++ [0xff]) = .ok (announced, [0xff]) := by
  obtain ⟨encoded, length, -, reads, -⟩ := read_written declared_announcements announced
  exact ⟨encoded, length, reads [0xff]⟩

/--
The wire format is canonical.  What is read off the front of an input is a value that the
constructors of its type accept; it is followed by the bytes after its size, and it is
written again as the bytes before them.  So inputs that are read as the same value agree on
all the bytes that were taken.
-/
theorem written_read
    {codec : Codec α}
    (declared : codec.Declared)
    (input : Bytes)
    (value : α)
    (rest : Bytes)
    (read : codec.read input = .ok (value, rest)) :
    codec.size value ≤ input.length ∧
      rest = input.drop (codec.size value) ∧
      codec.Accepts value ∧
      codec.write value (codec.size value) = .ok (input.take (codec.size value)) ∧
      ∀ other after,
        codec.read other = .ok (value, after) →
          other.take (codec.size value) = input.take (codec.size value) := by
  obtain ⟨encode, lawful⟩ := declared.lawful
  have taken (bytes after : Bytes) (read : codec.read bytes = .ok (value, after)) :
      bytes.take (codec.size value) = encode value := by
    rw [lawful.canonical _ _ _ read, ← lawful.length, List.take_left]
  refine ⟨?_, ?_, lawful.accepts value, ?_, ?_⟩
  · rw [lawful.canonical _ _ _ read, List.length_append, lawful.length]
    exact Nat.le_add_right _ _
  · rw [lawful.canonical _ _ _ read, ← lawful.length, List.drop_left]
  · rw [taken _ _ read]
    exact lawful.write_size value
  · intro other after alike
    rw [taken _ _ alike, taken _ _ read]

theorem written_read_announcements :
    let input : Bytes := [0x02, 0x01, 0x07, 0x00, 0x00, 0x00, 0x00, 0xff]
    announcements.read input = .ok (announced, [0xff]) ∧
      announcements.write announced 7 = .ok (input.take 7) := by
  intro input
  have read : announcements.read input = .ok (announced, [0xff]) := by
    rfl
  exact ⟨read, (written_read declared_announcements input announced [0xff] read).2.2.2.1⟩

end Codec

end MiningPool.Wire
