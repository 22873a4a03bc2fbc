import MiningPool.Wire.Record

/-!
# Encodings

The encoding of a value is the bytes that stand for it on the wire, whatever the room of
a destination.  Writing puts down the encoding where there is room for it and fails where
there is not, the size of a value is the length of its encoding, and reading takes the
value off the front of whatever follows.

All three are proved by induction on the shape, from one fact about each way in which
values are put together.
-/

namespace MiningPool.Wire

/-! ## Writers -/

/-- A writer that puts down given bytes where they fit, and otherwise reports missing room. -/
structure Writes (writer : (room : Nat) → Except WireError Bytes) (bytes : Bytes) : Prop where
  fits : ∀ room, bytes.length ≤ room → writer room = .ok bytes
  short : ∀ room, room < bytes.length →
    ∃ needed available, writer room = .error (.destinationTooShort needed available)

theorem writes_place (part : Bytes) : Writes (place part) part where
  fits room roomy := by
    rw [place, if_neg (Nat.not_lt.mpr roomy)]
  short room tight := by
    exact ⟨part.length, room, by rw [place, if_pos tight]⟩

theorem writes_nil : Writes (fun _ => .ok []) [] where
  fits _ _ := rfl
  short room tight := by simp at tight

/-- Two parts one after the other are put down where both fit. -/
theorem Writes.writeThen
    {first second : (room : Nat) → Except WireError Bytes}
    {front back : Bytes}
    (writesFirst : Writes first front)
    (writesSecond : Writes second back) :
    Writes (fun room => writeThen (first room) room second) (front ++ back) where
  fits room roomy := by
    rw [List.length_append] at roomy
    have frontFits := writesFirst.fits room (by omega)
    have backFits := writesSecond.fits (room - front.length) (by omega)
    simp only [Wire.writeThen, frontFits, backFits]
  short room tight := by
    rw [List.length_append] at tight
    by_cases frontTight : room < front.length
    · obtain ⟨needed, available, failed⟩ := writesFirst.short room frontTight
      exact ⟨needed, available, by simp only [Wire.writeThen, failed]⟩
    · have frontFits := writesFirst.fits room (by omega)
      obtain ⟨needed, available, failed⟩ :=
        writesSecond.short (room - front.length) (by omega)
      exact ⟨needed, available, by simp only [Wire.writeThen, frontFits, failed]⟩

/-- Elements are put down one after the other behind the parts before. -/
theorem writeItems_fits
    {α : Type}
    {writeElement : α → (room : Nat) → Except WireError Bytes}
    {encode : α → Bytes}
    (writesElement : ∀ element, Writes (writeElement element) (encode element))
    (items : List α)
    (room : Nat)
    (parts : List Bytes)
    (roomy : (items.flatMap encode).length ≤ room) :
    writeItems writeElement items room parts =
      .ok (parts.reverse.flatten ++ items.flatMap encode) := by
  induction items generalizing room parts with
  | nil => simp [writeItems]
  | cons item items ih =>
    rw [List.flatMap_cons, List.length_append] at roomy
    have itemFits := (writesElement item).fits room (by omega)
    simp only [writeItems, itemFits]
    rw [ih _ _ (by omega)]
    simp

/-- Elements that do not all fit fail at the first that does not. -/
theorem writeItems_short
    {α : Type}
    {writeElement : α → (room : Nat) → Except WireError Bytes}
    {encode : α → Bytes}
    (writesElement : ∀ element, Writes (writeElement element) (encode element))
    (items : List α)
    (room : Nat)
    (parts : List Bytes)
    (tight : room < (items.flatMap encode).length) :
    ∃ needed available,
      writeItems writeElement items room parts =
        .error (.destinationTooShort needed available) := by
  induction items generalizing room parts with
  | nil => simp at tight
  | cons item items ih =>
    rw [List.flatMap_cons, List.length_append] at tight
    by_cases itemTight : room < (encode item).length
    · obtain ⟨needed, available, failed⟩ := (writesElement item).short room itemTight
      exact ⟨needed, available, by simp only [writeItems, failed]⟩
    · have itemFits := (writesElement item).fits room (by omega)
      simp only [writeItems, itemFits]
      exact ih _ _ (by omega)

theorem writes_items
    {α : Type}
    {writeElement : α → (room : Nat) → Except WireError Bytes}
    {encode : α → Bytes}
    (writesElement : ∀ element, Writes (writeElement element) (encode element))
    (items : List α) :
    Writes (fun room => writeItems writeElement items room []) (items.flatMap encode) where
  fits room roomy := by
    simpa using writeItems_fits writesElement items room [] roomy
  short room tight := writeItems_short writesElement items room [] tight

/-! ## Readers -/

/-- A reader that takes a value off the front of its encoding and of whatever follows. -/
def Reads
    {α : Type}
    (reader : Bytes → Except WireError (α × Bytes))
    (encode : α → Bytes) : Prop :=
  ∀ value rest, reader (encode value ++ rest) = .ok (value, rest)

/-- A number that fits in some bytes is read back from them. -/
theorem readNat_ofNatLE
    (count value : Nat)
    (rest : Bytes)
    (fits : value < Bytes.capacity count) :
    readNat count (Bytes.ofNatLE count value ++ rest) = .ok (value, rest) := by
  have cut := Bytes.cut?_append (Bytes.ofNatLE count value) rest
  rw [Bytes.length_ofNatLE] at cut
  simp only [readNat, cut, Bytes.toNatLE_ofNatLE, Nat.mod_eq_of_lt fits]

/-- A word is read back when nothing of it is lost in the number that is written. -/
theorem reads_word
    {α : Type}
    (count : Nat)
    (ofNat : Nat → α)
    (toNat : α → Nat)
    (fits : ∀ word, toNat word < Bytes.capacity count)
    (inverse : ∀ word, ofNat (toNat word) = word) :
    Reads
      (fun input => do let (value, rest) ← readNat count input; return (ofNat value, rest))
      fun word => Bytes.ofNatLE count (toNat word) := by
  intro word rest
  simp only [readNat_ofNatLE _ _ _ (fits word), bind, Except.bind, inverse]
  rfl

theorem reads_u24 : Reads readU24 fun value => Bytes.ofNatLE 3 value.toNat := by
  intro value rest
  have cut := Bytes.cut?_append (Bytes.ofNatLE 3 value.toNat) rest
  rw [Bytes.length_ofNatLE] at cut
  simp only [readU24, U24.size, cut, Bytes.toNatLE_ofNatLE, Nat.mod_eq_of_lt value.isLt,
    U24.ofNat, value.isLt, dite_true]

theorem reads_bool : Reads readBool fun value => [if value then 1 else 0] := by
  intro value rest
  cases value <;> simp [readBool]

theorem reads_protocol : Reads readProtocol fun value => [value.code] := by
  intro value rest
  cases value <;> simp [readProtocol, Protocol.code, Protocol.ofCode]

/-- The largest length fits where the length is written. -/
theorem Width.max_lt
    (width : Width)
    (written : width ≠ .u256) :
    width.max < Bytes.capacity width.header := by
  cases width with
  | u256 => contradiction
  | b032 | b0255 | str0255 | b064k | b016m => simp [Width.max, Width.header, Bytes.capacity]

/-- A length that a type admits is read back from where it is written. -/
theorem readLength_ofNatLE
    (width : Width)
    (length : Nat)
    (admitted : width.Admits length)
    (rest : Bytes) :
    readLength width (Bytes.ofNatLE width.header length ++ rest) = .ok (length, rest) := by
  cases width with
  | u256 =>
    simp only [Width.Admits] at admitted
    simp [readLength, Width.header, Bytes.ofNatLE, admitted]
  | b032 | b0255 | str0255 | b064k | b016m =>
    have fits := Nat.lt_of_le_of_lt admitted (Width.max_lt _ (by decide))
    exact readNat_ofNatLE _ _ _ fits

theorem reads_blob
    (width : Width) :
    Reads (readBlob width)
      fun value => Bytes.ofNatLE width.header value.bytes.length ++ value.bytes := by
  intro value rest
  have admitted := value.admitted
  have cut := Bytes.cut?_append value.bytes rest
  rw [List.append_assoc]
  simp only [readBlob, readLength_ofNatLE width _ admitted, cut, Blob.ofBytes, admitted, if_true,
    dite_true]

theorem Reads.option
    {α : Type}
    {readElement : Bytes → Except WireError (α × Bytes)}
    {encode : α → Bytes}
    (readsElement : Reads readElement encode) :
    Reads (readOption readElement)
      fun value => value.elim [0] fun element => 1 :: encode element := by
  intro value rest
  cases value with
  | none => simp [readOption]
  | some element => simp [readOption, readsElement element rest]

theorem Reads.items
    {α : Type}
    {readElement : Bytes → Except WireError (α × Bytes)}
    {encode : α → Bytes}
    (readsElement : Reads readElement encode)
    (items taken : List α)
    (rest : Bytes) :
    readItems readElement items.length (items.flatMap encode ++ rest) taken =
      .ok (taken.reverse ++ items, rest) := by
  induction items generalizing taken with
  | nil => simp [readItems]
  | cons item items ih =>
    rw [List.flatMap_cons, List.append_assoc]
    simp [readItems, readsElement item, ih]

/-- The largest number of elements fits where the number is written. -/
theorem Count.max_lt (count : Count) : count.max < Bytes.capacity count.header := by
  cases count <;> simp [Count.max, Count.header, Bytes.capacity]

theorem Reads.sequence
    {α : Type}
    (count : Count)
    {readElement : Bytes → Except WireError (α × Bytes)}
    {encode : α → Bytes}
    (readsElement : Reads readElement encode) :
    Reads (readSequence count readElement)
      fun value =>
        Bytes.ofNatLE count.header value.items.length ++ value.items.flatMap encode := by
  intro value rest
  have fits := Nat.lt_of_le_of_lt value.bounded count.max_lt
  have items := readsElement.items value.items [] rest
  rw [List.append_assoc]
  simp only [readSequence, readNat_ofNatLE _ _ _ fits, items, List.reverse_nil, List.nil_append,
    Sequence.ofList, value.bounded, dite_true]

/-- The sizes of elements add up to the length of what is written for them. -/
theorem foldl_size
    {α : Type}
    {size : α → Nat}
    {encode : α → Bytes}
    (length : ∀ element, (encode element).length = size element)
    (elements : List α)
    (start : Nat) :
    elements.foldl (fun total element => total + size element) start =
      start + (elements.flatMap encode).length := by
  induction elements generalizing start with
  | nil => rfl
  | cons element elements ih =>
    rw [List.foldl_cons, ih, List.flatMap_cons, List.length_append, length, Nat.add_assoc]

/-! ## Shapes -/

namespace Shape

/-- The bytes that stand for a value. -/
def encoding : (shape : Shape) → shape.Value → Bytes
  | u8, value => Bytes.ofNatLE 1 value.toNat
  | u16, value => Bytes.ofNatLE 2 value.toNat
  | u24, value => Bytes.ofNatLE 3 value.toNat
  | u32, value => Bytes.ofNatLE 4 value.toNat
  | u64, value => Bytes.ofNatLE 8 value.toNat
  | single, value => Bytes.ofNatLE 4 value.bits.toNat
  | bool, value => [if value then 1 else 0]
  | protocol, value => [value.code]
  | blob width, value => Bytes.ofNatLE width.header value.bytes.length ++ value.bytes
  | option element, value => value.elim [0] fun value => 1 :: element.encoding value
  | seq count element, sequence =>
    Bytes.ofNatLE count.header sequence.items.length ++ sequence.items.flatMap element.encoding

/-- The size of a value is the length of its encoding. -/
theorem length_encoding
    (shape : Shape)
    (value : shape.Value) :
    (shape.encoding value).length = shape.size value := by
  induction shape with
  | u8 | u16 | u24 | u32 | u64 | single | bool | protocol => simp [encoding, size]
  | blob width => simp [encoding, size, Blob.size]
  | option element ih =>
    cases value with
    | none => simp [encoding, size]
    | some value =>
      simp only [encoding, size, Option.elim_some, List.length_cons, ih value]
      omega
  | seq count element ih =>
    simp only [encoding, size, List.length_append, Bytes.length_ofNatLE, foldl_size ih]

/-- Writing a value puts down its encoding, and fails exactly where that does not fit. -/
theorem writes_encoding
    (shape : Shape)
    (value : shape.Value) :
    Writes (shape.write value) (shape.encoding value) := by
  induction shape with
  | u8 | u16 | u24 | u32 | u64 | single | bool | protocol | blob => exact writes_place _
  | option element ih =>
    cases value with
    | none => exact writes_place [0]
    | some value => exact (writes_place [1]).writeThen (ih value)
  | seq count element ih => exact (writes_place _).writeThen (writes_items ih _)

/-- A value is read back from the front of its encoding and of whatever follows. -/
theorem reads_encoding
    (shape : Shape) :
    Reads shape.read shape.encoding := by
  induction shape with
  | u8 => exact reads_word 1 UInt8.ofNat UInt8.toNat UInt8.toNat_lt fun _ => UInt8.ofNat_toNat
  | u16 => exact reads_word 2 UInt16.ofNat UInt16.toNat UInt16.toNat_lt fun _ => UInt16.ofNat_toNat
  | u32 => exact reads_word 4 UInt32.ofNat UInt32.toNat UInt32.toNat_lt fun _ => UInt32.ofNat_toNat
  | u64 => exact reads_word 8 UInt64.ofNat UInt64.toNat UInt64.toNat_lt fun _ => UInt64.ofNat_toNat
  | single =>
    exact reads_word 4 (fun bits => Single.mk (UInt32.ofNat bits)) (fun value => value.bits.toNat)
      (fun value => value.bits.toNat_lt) fun value => congrArg Single.mk UInt32.ofNat_toNat
  | u24 => exact reads_u24
  | bool => exact reads_bool
  | protocol => exact reads_protocol
  | blob width => exact reads_blob width
  | option element ih => exact ih.option
  | seq count element ih => exact ih.sequence count

end Shape

/-! ## Records -/

namespace Schema

/-- The encodings of the fields one after the other. -/
def encoding : (schema : Schema) → schema.Values → Bytes
  | [], _ => []
  | (_, shape) :: rest, (value, values) => shape.encoding value ++ encoding rest values

theorem length_encoding
    (schema : Schema)
    (values : schema.Values) :
    (schema.encoding values).length = schema.size values := by
  induction schema with
  | nil => rfl
  | cons field rest ih =>
    simp only [encoding, size, List.length_append, Shape.length_encoding, ih]

theorem writes_encoding
    (schema : Schema)
    (values : schema.Values) :
    Writes (schema.write values) (schema.encoding values) := by
  induction schema with
  | nil => exact writes_nil
  | cons field rest ih => exact (field.2.writes_encoding values.1).writeThen (ih values.2)

theorem reads_encoding
    (schema : Schema) :
    Reads schema.read schema.encoding := by
  induction schema with
  | nil => intro values rest; rfl
  | cons field fields ih =>
    intro values rest
    have first := field.2.reads_encoding values.1 (encoding fields values.2 ++ rest)
    simp only [read, encoding, List.append_assoc, first, bind, Except.bind, ih values.2 rest]
    rfl

end Schema

namespace Record

variable {α : Type} [Record α]

/-- The bytes that stand for a record. -/
def encoding (value : α) : Bytes :=
  (schema α).encoding (toFields value)

theorem length_encoding (value : α) : (encoding value).length = size value :=
  (schema α).length_encoding (toFields value)

theorem writes_encoding (value : α) : Writes (write value) (encoding value) :=
  (schema α).writes_encoding (toFields value)

theorem reads_encoding : Reads (read (α := α)) encoding := by
  intro value rest
  have fields := (schema α).reads_encoding (toFields value) rest
  simp only [read, encoding, fields, bind, Except.bind, ofFields_toFields]
  rfl

end Record

end MiningPool.Wire
