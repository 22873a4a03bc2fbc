import MiningPool.Proofs.Wire.Encoding

/-!
# Canonical encodings

A reader is canonical when it takes nothing off the front of its input but the encoding of
the value that it answers.  So a value has one written form only: a count, a truth value or
a length that could not have been written is refused by whoever reads it.

As for the other direction, one fact about each way in which values are put together gives
the property for all shapes, by induction on the shape.
-/

namespace MiningPool

/-- What is cut off the front of the input, and what is left of it. -/
theorem Bytes.of_cut?_eq_some
    {count : Nat}
    {input bytes rest : Bytes}
    (cut : input.cut? count = some (bytes, rest)) :
    bytes.length = count ∧ input = bytes ++ rest := by
  rw [Bytes.cut?_eq] at cut
  split at cut
  next enough =>
    cases cut
    exact ⟨List.length_take_of_le enough, (List.take_append_drop count input).symm⟩
  next => cases cut

namespace Wire

/-- What succeeds as a whole succeeds at its first step and goes on from there. -/
theorem of_bind_eq_ok
    {α β : Type}
    {first : Except WireError α}
    {next : α → Except WireError β}
    {result : β}
    (done : first >>= next = .ok result) :
    ∃ between, first = .ok between ∧ next between = .ok result := by
  cases first with
  | error failure => cases done
  | ok between => exact ⟨between, rfl, done⟩

/-- A reader that takes off the front of its input the encoding of what it answers. -/
def Canonical
    {α : Type}
    (reader : Bytes → Except WireError (α × Bytes))
    (encode : α → Bytes) : Prop :=
  ∀ input value rest, reader input = .ok (value, rest) → input = encode value ++ rest

/-! ## Indivisible parts -/

/-- A number that is read off some bytes fits in them and is written in them. -/
theorem of_readNat_eq_ok
    {count value : Nat}
    {input rest : Bytes}
    (read : readNat count input = .ok (value, rest)) :
    value < Bytes.capacity count ∧ input = Bytes.ofNatLE count value ++ rest := by
  unfold readNat at read
  split at read
  · cases read
  next bytes after cut =>
    cases read
    obtain ⟨rfl, rfl⟩ := Bytes.of_cut?_eq_some cut
    exact ⟨Bytes.toNatLE_lt bytes, by rw [Bytes.ofNatLE_toNatLE]⟩

/-- A word is written as it was read when no number that fits is lost in the word. -/
theorem canonical_word
    {α : Type}
    (count : Nat)
    (ofNat : Nat → α)
    (toNat : α → Nat)
    (recovers : ∀ value < Bytes.capacity count, toNat (ofNat value) = value) :
    Canonical
      (fun input => do let (value, rest) ← readNat count input; return (ofNat value, rest))
      fun word => Bytes.ofNatLE count (toNat word) := by
  intro input word rest read
  obtain ⟨⟨value, after⟩, number, made⟩ := of_bind_eq_ok read
  cases made
  obtain ⟨fits, written⟩ := of_readNat_eq_ok number
  show input = Bytes.ofNatLE count (toNat (ofNat value)) ++ rest
  rw [recovers value fits, written]

theorem canonical_u24 : Canonical readU24 fun value => Bytes.ofNatLE 3 value.toNat := by
  intro input value rest read
  unfold readU24 at read
  split at read
  · cases read
  next bytes after cut =>
    obtain ⟨length, rfl⟩ := Bytes.of_cut?_eq_some cut
    unfold U24.ofNat at read
    split at read
    · cases read
    next made number =>
      split at number
      · cases number
        cases read
        show bytes ++ rest = Bytes.ofNatLE 3 bytes.toNatLE ++ rest
        rw [← show bytes.length = 3 from length, Bytes.ofNatLE_toNatLE]
      · cases number

theorem canonical_bool : Canonical readBool fun value => [if value then 1 else 0] := by
  intro input value rest read
  cases input with
  | nil => cases read
  | cons byte after =>
    simp only [readBool] at read
    split at read
    next zero =>
      cases read
      rw [zero]
      rfl
    next =>
      split at read
      next one =>
        cases read
        rw [one]
        rfl
      next => cases read

/-- The number of a subprotocol is the only one that leads to it. -/
theorem Protocol.code_of_ofCode_eq_ok
    {code : UInt8}
    {protocol : Protocol}
    (found : Protocol.ofCode code = .ok protocol) :
    protocol.code = code := by
  unfold Protocol.ofCode at found
  split at found
  next here =>
    cases found
    exact here.symm
  next =>
    split at found
    next here =>
      cases found
      exact here.symm
    next =>
      split at found
      next here =>
        cases found
        exact here.symm
      next => cases found

theorem canonical_protocol : Canonical readProtocol fun value => [value.code] := by
  intro input value rest read
  cases input with
  | nil => cases read
  | cons byte after =>
    simp only [readProtocol] at read
    split at read
    · cases read
    next protocol found =>
      cases read
      show byte :: rest = value.code :: rest
      rw [Protocol.code_of_ofCode_eq_ok found]

theorem of_readLength_eq_ok
    {width : Width}
    {length : Nat}
    {input rest : Bytes}
    (read : readLength width input = .ok (length, rest)) :
    input = Bytes.ofNatLE width.header length ++ rest := by
  cases width with
  | u256 =>
    cases read
    rfl
  | b032 | b0255 | str0255 | b064k | b016m => exact (of_readNat_eq_ok read).2

theorem canonical_blob
    (width : Width) :
    Canonical (readBlob width)
      fun value => Bytes.ofNatLE width.header value.bytes.length ++ value.bytes := by
  intro input value rest read
  unfold readBlob at read
  split at read
  · cases read
  next length body measured =>
    split at read
    next admitted =>
      split at read
      · cases read
      next bytes after cut =>
        obtain ⟨rfl, rfl⟩ := Bytes.of_cut?_eq_some cut
        simp only [Blob.ofBytes, admitted, dite_true] at read
        cases read
        show input = Bytes.ofNatLE width.header bytes.length ++ bytes ++ rest
        rw [of_readLength_eq_ok measured, List.append_assoc]
    next => cases read

/-! ## Optional values and sequences -/

theorem Canonical.option
    {α : Type}
    {readElement : Bytes → Except WireError (α × Bytes)}
    {encode : α → Bytes}
    (canonical : Canonical readElement encode) :
    Canonical (readOption readElement)
      fun value => value.elim [0] fun element => 1 :: encode element := by
  intro input value rest read
  cases input with
  | nil => cases read
  | cons byte after =>
    simp only [readOption] at read
    split at read
    next zero =>
      cases read
      rw [zero]
      rfl
    next =>
      split at read
      next one =>
        split at read
        · cases read
        next element left found =>
          cases read
          show byte :: after = 1 :: (encode element ++ rest)
          rw [one, canonical _ _ _ found]
      next => cases read

/-- Elements that are read one after the other are written one after the other. -/
theorem Canonical.items
    {α : Type}
    {readElement : Bytes → Except WireError (α × Bytes)}
    {encode : α → Bytes}
    (canonical : Canonical readElement encode)
    {remaining : Nat}
    {input rest : Bytes}
    {taken items : List α}
    (read : readItems readElement remaining input taken = .ok (items, rest)) :
    ∃ new, new.length = remaining ∧ items = taken.reverse ++ new ∧
      input = new.flatMap encode ++ rest := by
  induction remaining generalizing input taken with
  | zero =>
    cases read
    exact ⟨[], rfl, (List.append_nil _).symm, rfl⟩
  | succ remaining ih =>
    unfold readItems at read
    split at read
    · cases read
    next element after found =>
      obtain ⟨new, length, rfl, rfl⟩ := ih read
      refine ⟨element :: new, ?_, ?_, ?_⟩
      · rw [List.length_cons, length]
      · rw [List.reverse_cons, List.append_assoc, List.singleton_append]
      · rw [canonical _ _ _ found, List.flatMap_cons, List.append_assoc]

theorem Canonical.sequence
    {α : Type}
    (count : Count)
    {readElement : Bytes → Except WireError (α × Bytes)}
    {encode : α → Bytes}
    (canonical : Canonical readElement encode) :
    Canonical (readSequence count readElement)
      fun value =>
        Bytes.ofNatLE count.header value.items.length ++ value.items.flatMap encode := by
  intro input value rest read
  unfold readSequence at read
  split at read
  · cases read
  next length body counted =>
    split at read
    · cases read
    next items after found =>
      obtain ⟨-, rfl⟩ := of_readNat_eq_ok counted
      obtain ⟨new, rfl, rfl, rfl⟩ := canonical.items found
      unfold Sequence.ofList at read
      split at read
      · cases read
      next sequence made =>
        split at made
        · cases made
          cases read
          exact (List.append_assoc _ _ _).symm
        · cases made

/-! ## Shapes -/

/-- Whatever the shape, what is read was written. -/
theorem Shape.canonical_encoding
    (shape : Shape) :
    Canonical shape.read shape.encoding := by
  induction shape with
  | u8 => exact canonical_word 1 UInt8.ofNat UInt8.toNat fun _ => UInt8.toNat_ofNat_of_lt'
  | u16 => exact canonical_word 2 UInt16.ofNat UInt16.toNat fun _ => UInt16.toNat_ofNat_of_lt'
  | u32 => exact canonical_word 4 UInt32.ofNat UInt32.toNat fun _ => UInt32.toNat_ofNat_of_lt'
  | u64 => exact canonical_word 8 UInt64.ofNat UInt64.toNat fun _ => UInt64.toNat_ofNat_of_lt'
  | single =>
    exact canonical_word 4 (fun bits => Single.mk (UInt32.ofNat bits))
      (fun value => value.bits.toNat) fun _ => UInt32.toNat_ofNat_of_lt'
  | u24 => exact canonical_u24
  | bool => exact canonical_bool
  | protocol => exact canonical_protocol
  | blob width => exact canonical_blob width
  | option element ih => exact ih.option
  | seq count element ih => exact ih.sequence count

end Wire

end MiningPool
