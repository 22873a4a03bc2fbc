import MiningPool.Proofs.Frame.Clear
import MiningPool.Proofs.Wire.Filling

/-!
# Filling in frames

A frame is filled in like the values of the wire format: its header from the start of the
destination on and the message behind it, or the bytes that were received at once.

Main result: whatever is filled in, a value of any type of the wire format, a message or a
frame, needs just the room of its size, is the same bytes in every destination and leaves
what is behind them alone.
-/

namespace MiningPool

open Wire Wire.Filling MiningPool.Frame

/-- Fill in the payload of a message. -/
def Message.fill (message : Message) : Filling WireError Nat :=
  Record.fill message.body

namespace Frame

/-- Fill in a message behind its header, or the bytes that were received. -/
def fillContent (frame : Frame) : Filling WireError Unit :=
  match frame.content with
  | .message message => do
    let _ ← Record.fill frame.header
    let _ ← within headerSize message.fill
    return ()
  | .received bytes => do
    claim bytes.length
    copy 0 bytes

/-- Fill in a frame. -/
def fill (frame : Frame) : Filling FrameError Unit :=
  ExceptT.adapt FrameError.wire frame.fillContent

/-- The bytes that stand for a frame. -/
def bytes (frame : Frame) : Bytes :=
  match frame.content with
  | .message message => frame.header.toBytes ++ Record.encoding message.body
  | .received bytes => bytes

theorem length_bytes (frame : Frame) : frame.bytes.length = frame.encodedLength := by
  unfold bytes encodedLength
  cases frame.content with
  | message message =>
    rw [List.length_append, Header.length_toBytes, message.length_payload, Nat.add_comm]
  | received bytes => rfl

/-- A header is written as six bytes. -/
theorem length_of_write
    {header : Header}
    {room : Nat}
    {bytes : Bytes}
    (written : Record.write header room = .ok bytes) :
    bytes.length = headerSize := by
  have writes := Record.writes_encoding header
  rw [header.encoding_eq_toBytes] at writes
  have roomy : header.toBytes.length ≤ room := by
    refine Nat.not_lt.mp fun tight => ?_
    obtain ⟨needed, available, failed⟩ := writes.short room tight
    rw [written] at failed
    cases failed
  have same := writes.fits room roomy
  rw [written] at same
  cases same
  exact header.length_toBytes

/-- A header that is written leaves a message the room behind it. -/
theorem write_message
    (header : Header)
    (message : Message)
    (room : Nat) :
    write ⟨header, .message message⟩ room =
      writeThen (Record.write header room) room message.write := by
  simp only [write, writeThen]
  cases front : Record.write header room with
  | error failure => rfl
  | ok bytes =>
    have size := length_of_write front
    cases back : message.write (room - headerSize) <;> simp only [size, back]

/-- A frame is written where there is room for its bytes. -/
theorem writes_bytes (frame : Frame) : Writes frame.write frame.bytes := by
  obtain ⟨header, message | received⟩ := frame
  · simp only [funext (write_message header message), bytes, ← header.encoding_eq_toBytes]
    exact (Record.writes_encoding header).writeThen (Record.writes_encoding message.body)
  · exact writes_place received

/-- Fill in a frame and count the bytes. -/
def fillCounted (frame : Frame) : Filling WireError Nat :=
  match frame.content with
  | .message message => do
    let written ← Record.fill frame.header
    message.fill.advance written
  | .received bytes => part bytes

theorem fills_fillCounted (frame : Frame) : Fills [] frame.fillCounted frame.write := by
  obtain ⟨header, message | received⟩ := frame
  · rw [funext (write_message header message)]
    exact (Record.fills_fill header).bind (Record.fills_fill message.body).advance
  · exact fills_part received

/-- A frame is filled in without counting as it is with counting. -/
theorem on_fillContent
    (frame : Frame)
    (destination : Bytes) :
    frame.fillContent.on destination =
      (frame.fillCounted.on destination).map fun (result, left) =>
        (result.map fun _ => (), left) := by
  obtain ⟨header, message | received⟩ := frame
  · have fills := Record.fills_fill header
    cases front : Record.write header destination.length with
    | error failure =>
      obtain ⟨left, -, failed⟩ := fills.fails destination failure front
      rw [List.nil_append] at failed
      rw [fillContent, fillCounted, on_bind_of_error failed, on_bind_of_error failed]
      rfl
    | ok bytes =>
      have filled := (fills.puts destination bytes front).2
      simp only [List.nil_append, length_of_write front] at filled
      rw [fillContent, fillCounted, on_bind_of_ok filled, on_bind_of_ok filled,
        Filling.advance, on_bind, on_bind]
      rcases (within headerSize message.fill).on _ with _ | ⟨_ | _, left⟩ <;> rfl
  · have counted : fillCounted ⟨header, .received received⟩ = part received := rfl
    rw [fillContent, counted, part, on_bind, on_bind]
    rcases (claim received.length).on destination with _ | ⟨_ | _, left⟩
    · rfl
    · rfl
    · show (copy 0 received).on left = ((copy 0 received >>= fun _ => _).on left).map _
      rw [on_bind]
      rcases (copy 0 received).on left with _ | ⟨_ | _, left⟩ <;> rfl

/--
A frame puts certain bytes over the start of every destination that is long enough, whatever
that holds, and leaves the bytes behind them alone; it fails where a destination is shorter.
-/
structure Lays (frame : Frame) (bytes : Bytes) : Prop where
  enough : ∀ destination, bytes.length ≤ destination.length →
    frame.serialize destination = .ok (bytes ++ destination.drop bytes.length) ∧
      frame.fill.on destination = some (.ok (), bytes ++ destination.drop bytes.length)
  short : ∀ destination, destination.length < bytes.length →
    ∃ needed available left, left.length = destination.length ∧
      frame.serialize destination = .error (.wire (.destinationTooShort needed available)) ∧
      frame.fill.on destination =
        some (.error (.wire (.destinationTooShort needed available)), left)

theorem lays_bytes (frame : Frame) : frame.Lays frame.bytes where
  enough destination roomy := by
    have fits := frame.writes_bytes.fits destination.length roomy
    have filled := (frame.fills_fillCounted.lays frame.writes_bytes).enough destination roomy
    constructor
    · simp only [serialize, fits, Bytes.overwrite]
    · rw [List.nil_append] at filled
      rw [fill, on_adapt, on_fillContent, filled]
      rfl
  short destination tight := by
    obtain ⟨needed, available, failed⟩ := frame.writes_bytes.short destination.length tight
    obtain ⟨left, same, unfilled⟩ := frame.fills_fillCounted.fails destination _ failed
    refine ⟨needed, available, left, same, ?_, ?_⟩
    · simp only [serialize, failed]
    · rw [List.nil_append] at unfilled
      rw [fill, on_adapt, on_fillContent, unfilled]
      rfl

/-- A message is framed under a header that announces the length of its payload. -/
theorem of_ofMessage?_eq_some
    {message : Message}
    {messageType : UInt8}
    {extensionType : UInt16}
    {isChannelMessage : Bool}
    {frame : Frame}
    (framed : ofMessage? message messageType extensionType isChannelMessage = some frame) :
    frame.content = .message message ∧ frame.header.length.toNat = message.size := by
  rw [ofMessage?] at framed
  split at framed
  next header announced =>
    cases framed
    simp only [Header.ofLength?, U24.ofNat] at announced
    split at announced
    next length made =>
      cases announced
      split at made
      · cases made
        exact ⟨rfl, rfl⟩
      · cases made
    · cases announced
  · cases framed

end Frame

/--
Whatever is filled in takes exactly the room of its size.  A value of any type of the wire
format and a message are put over the first bytes of a destination, these are as many as its
size and do not depend on what was there, and no other byte is touched; the filling fails as
too short where the destination is shorter.  A frame of a message is six bytes of a header,
which announce the number of bytes of the payload, and the payload.  No filling reaches
beyond the end of a destination, with any number of bytes in front of it.
-/
theorem filled_exactly :
    (∀ (α : Type) (codec : Codec α), codec.Declared →
      (∃ fill, codec.FilledBy fill) ∧
      ∀ fill, codec.FilledBy fill →
        ∀ value, ∃ encoded,
          encoded.length = codec.size value ∧
          Writes (codec.write value) encoded ∧
          ∀ front, Filling.Lays front (fill value front.length) encoded) ∧
    ∀ message : Message, ∃ payload,
      payload.length = message.size ∧
      Writes message.write payload ∧
      Filling.Lays [] message.fill payload ∧
      ∀ messageType extensionType isChannelMessage frame,
        ofMessage? message messageType extensionType isChannelMessage = some frame →
          frame.header.toBytes.length = headerSize ∧
          frame.header.length.toNat = payload.length ∧
          frame.encodedLength = headerSize + payload.length ∧
          frame.Lays (frame.header.toBytes ++ payload) := by
  constructor
  · intro α codec declared
    refine ⟨declared.exists_filledBy, fun fill filled value => ?_⟩
    obtain ⟨encode, lawful⟩ := declared.lawful
    exact ⟨encode value, lawful.length value, lawful.writes value,
      fun front => (filled.fills value front).lays (lawful.writes value)⟩
  · intro message
    have writes := Record.writes_encoding message.body
    refine ⟨Record.encoding message.body, message.length_payload, writes,
      (Record.fills_fill message.body).lays writes, ?_⟩
    intro messageType extensionType isChannelMessage frame framed
    obtain ⟨content, announced⟩ := of_ofMessage?_eq_some framed
    have bytes : frame.bytes = frame.header.toBytes ++ Record.encoding message.body := by
      rw [Frame.bytes, content]
    have length := frame.length_bytes
    rw [bytes, List.length_append, frame.header.length_toBytes] at length
    refine ⟨frame.header.length_toBytes, ?_, length.symm, bytes ▸ frame.lays_bytes⟩
    rw [announced, message.length_payload]

/-- The announcement of the endpoint of a channel. -/
def announcement : Message :=
  ⟨.channelEndpointChanged, (⟨7⟩ : Message.Common.ChannelEndpointChanged)⟩

/--
The announced endpoints go into the middle of a destination, and the frame of one of them
over the start of one.
-/
theorem filled_exactly_announced :
    (∃ fill, Codec.announcements.FilledBy fill ∧
      (fill Codec.announced 1).on (List.replicate 9 0xee) =
        some (.ok 8, [0xee, 2, 1, 7, 0, 0, 0, 0, 0xee])) ∧
    ∃ frame, ofMessage? announcement 0x03 0 true = some frame ∧
      frame.serialize (List.replicate 11 0xee) =
        .ok [0x00, 0x80, 0x03, 4, 0, 0, 7, 0, 0, 0, 0xee] ∧
      ∃ failure, frame.serialize (List.replicate 9 0xee) = .error failure := by
  obtain ⟨values, messages⟩ := filled_exactly
  constructor
  · obtain ⟨⟨fill, filled⟩, exactly⟩ := values _ _ Codec.declared_announcements
    obtain ⟨encoded, length, writes, lays⟩ := exactly fill filled Codec.announced
    have written : Codec.announcements.write Codec.announced 7 = .ok [2, 1, 7, 0, 0, 0, 0] := rfl
    rw [writes.fits 7 (Nat.le_of_eq length)] at written
    cases written
    exact ⟨fill, filled, (lays [0xee]).enough (List.replicate 8 0xee) (by decide)⟩
  · obtain ⟨payload, length, writes, -, frames⟩ := messages announcement
    have written : announcement.write 4 = .ok [7, 0, 0, 0] := rfl
    rw [writes.fits 4 (Nat.le_of_eq length)] at written
    cases written
    obtain ⟨-, -, -, lays⟩ := frames 0x03 0 true _ rfl
    obtain ⟨needed, available, -, -, failed, -⟩ :=
      lays.short (List.replicate 9 0xee) (by decide)
    exact ⟨_, rfl, (lays.enough (List.replicate 11 0xee) (by decide)).1, _, failed⟩

end MiningPool
