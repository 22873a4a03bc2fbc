import MiningPool.Proofs.Bytes.Chunks
import MiningPool.Proofs.Frame.Clear
import MiningPool.Proofs.Noise.Direction
import MiningPool.Session.Writer

/-!
# One frame over a session

What a session writes for a message depends on the flow out of it only, and what it
makes of a frame on the flow into it: a flow is in clear, or it has a key and a counter.
A session that writes a message has its outward flow advanced by the parts of the frame,
and a session that reads the frame off the same flow has its inward flow advanced alike.
-/

namespace MiningPool

open MiningPool.Wire MiningPool.Frame MiningPool.Noise

/-- How bytes travel one way: in clear, or sealed in a direction. -/
abbrev Flow := Option Direction

namespace Message

/-- The number of parts in which the frame of a message is sealed. -/
def partCount (message : Message) : Nat :=
  1 + (message.size + plainChunkSize - 1) / plainChunkSize

/-- The number of parts in which the frames of messages are sealed. -/
def totalParts : List Message → Nat
  | [] => 0
  | message :: rest => message.partCount + totalParts rest

theorem totalParts_append (first second : List Message) :
    totalParts (first ++ second) = totalParts first + totalParts second := by
  induction first with
  | nil => simp [totalParts]
  | cons message rest ih => simp only [List.cons_append, totalParts, ih, Nat.add_assoc]

theorem totalParts_concat (messages : List Message) (message : Message) :
    totalParts (messages ++ [message]) = totalParts messages + message.partCount := by
  rw [totalParts_append, totalParts, totalParts, Nat.add_zero]

end Message

namespace Flow

/-- The flow after some parts more. -/
def after (flow : Flow) (count : Nat) : Flow :=
  flow.map fun direction => direction.after count

@[simp]
theorem after_zero (flow : Flow) : flow.after 0 = flow := by
  cases flow <;> simp [after]

theorem after_after
    (flow : Flow)
    (first second : Nat) :
    (flow.after first).after second = flow.after (first + second) := by
  cases flow <;> simp [after, Direction.after_after]

/-- There are counter values for so many parts. -/
def HasRoom (flow : Flow) (count : Nat) : Prop :=
  ∀ direction ∈ flow, direction.counter.toNat + count < UInt64.size

theorem HasRoom.mono
    {flow : Flow}
    {less more : Nat}
    (room : flow.HasRoom more)
    (fewer : less ≤ more) :
    flow.HasRoom less := by
  intro direction member
  have := room direction member
  omega

/-- Room for several parts is room for the first of them, then for the others. -/
theorem HasRoom.split
    {flow : Flow}
    {first second : Nat}
    (room : flow.HasRoom (first + second)) :
    flow.HasRoom first ∧ (flow.after first).HasRoom second := by
  cases flow with
  | none => simp [HasRoom, after]
  | some direction =>
    have total := room direction rfl
    have counted := direction.toNat_counter_after first (by omega)
    simp only [HasRoom, after, Option.map_some, Option.mem_def, Option.some.injEq,
      forall_eq', counted]
    omega

/-- The bytes in which the frame of a message travels. -/
def frame (suite : Suite) (flow : Flow) (message : Message) : Bytes :=
  match flow with
  | none => message.clearFrame
  | some direction =>
    (direction.sealAll suite (Session.sealedParts message.clearFrame)).flatten

/-- The bytes in which the header of the frame travels. -/
def front (suite : Suite) (flow : Flow) (message : Message) : Bytes :=
  match flow with
  | none => message.clearFrame.take headerSize
  | some direction =>
    suite.sealText direction.key direction.counter [] (message.clearFrame.take headerSize)

/-- The bytes in which the payload of the frame travels. -/
def back (suite : Suite) (flow : Flow) (message : Message) : Bytes :=
  match flow with
  | none => message.clearFrame.drop headerSize
  | some direction =>
    ((direction.after 1).sealAll suite
      (Bytes.chunks plainChunkSize (message.clearFrame.drop headerSize))).flatten

theorem frame_eq
    (suite : Suite)
    (flow : Flow)
    (message : Message) :
    flow.frame suite message = flow.front suite message ++ flow.back suite message := by
  cases flow with
  | none => exact (List.take_append_drop headerSize message.clearFrame).symm
  | some direction => rfl

/-- The frames of messages that travel one after the other. -/
def frames (suite : Suite) : Flow → List Message → List Bytes
  | _, [] => []
  | flow, message :: rest =>
    flow.frame suite message :: frames suite (flow.after message.partCount) rest

theorem frames_append
    (suite : Suite)
    (flow : Flow)
    (first second : List Message) :
    flow.frames suite (first ++ second) =
      flow.frames suite first ++
        (flow.after (Message.totalParts first)).frames suite second := by
  induction first generalizing flow with
  | nil => simp [frames, Message.totalParts]
  | cons message rest ih => simp [frames, Message.totalParts, ih, after_after]

@[simp]
theorem length_frames
    (suite : Suite)
    (flow : Flow)
    (messages : List Message) :
    (flow.frames suite messages).length = messages.length := by
  induction messages generalizing flow with
  | nil => rfl
  | cons message rest ih => simp [frames, ih]

end Flow

namespace Session

/-! ## The parts of a frame -/

theorem length_sealedParts (message : Message) :
    (sealedParts message.clearFrame).length = message.partCount := by
  have payload : (message.clearFrame.drop headerSize).length = message.size := by
    simp
  simp only [sealedParts, List.length_cons, Bytes.length_chunks plainChunkSize (by decide),
    payload, Message.partCount]
  omega

theorem flatten_sealedParts (frame : Bytes) :
    (sealedParts frame).flatten = frame := by
  simp [sealedParts, Bytes.flatten_chunks plainChunkSize (by decide)]

end Session

namespace Flow

variable {suite : Suite}

theorem length_front
    (sealing : suite.Sealing)
    (flow : Flow)
    (message : Message) :
    (flow.front suite message).length =
      if flow.isSome then sealedHeaderSize else headerSize := by
  have header : (message.clearFrame.take headerSize).length = headerSize := by
    simp
  cases flow with
  | none => exact header
  | some direction =>
    simp only [front, sealing.length_sealText, header, Option.isSome_some, if_true,
      sealedHeaderSize]

/-- A sealed frame is longer by a tag for its header and by one for every chunk. -/
theorem length_frame
    (sealing : suite.Sealing)
    (flow : Flow)
    (message : Message)
    (fits : message.size ≤ U24.max) :
    (flow.frame suite message).length =
      if flow.isSome then sealedHeaderSize + (message.header fits).sealedLength
      else headerSize + message.size := by
  have size : (message.header fits).length.toNat = message.size := rfl
  cases flow with
  | none => exact message.length_clearFrame
  | some direction =>
    simp only [frame, direction.length_flatten_sealAll sealing, Session.flatten_sealedParts,
      Session.length_sealedParts, message.length_clearFrame, Option.isSome_some, if_true,
      sealedHeaderSize, Header.sealedLength, Header.chunkCount, Message.partCount, size,
      Nat.add_mul]
    omega

end Flow

namespace Session

/-! ## Flows of a session -/

/-- The flow of the frames a session writes. -/
def outward : Session → Flow
  | encrypted transport => some transport.sending
  | _ => none

/-- The flow of the frames a session reads. -/
def inward : Session → Flow
  | encrypted transport => some transport.receiving
  | _ => none

/-- The session after some parts more were written. -/
def written (count : Nat) : Session → Session
  | encrypted transport =>
    encrypted { transport with sending := transport.sending.after count }
  | session => session

/-- The session after some parts more were read. -/
def taken (count : Nat) : Session → Session
  | encrypted transport =>
    encrypted { transport with receiving := transport.receiving.after count }
  | session => session

variable (session : Session) (count : Nat)

@[simp]
theorem isSome_outward : session.outward.isSome = session.isEncrypted := by
  cases session <;> rfl

@[simp]
theorem isSome_inward : session.inward.isSome = session.isEncrypted := by
  cases session <;> rfl

@[simp]
theorem isEncrypted_written : (session.written count).isEncrypted = session.isEncrypted := by
  cases session <;> rfl

@[simp]
theorem isEncrypted_taken : (session.taken count).isEncrypted = session.isEncrypted := by
  cases session <;> rfl

@[simp]
theorem outward_written : (session.written count).outward = session.outward.after count := by
  cases session <;> rfl

@[simp]
theorem inward_written : (session.written count).inward = session.inward := by
  cases session <;> rfl

@[simp]
theorem outward_taken : (session.taken count).outward = session.outward := by
  cases session <;> rfl

@[simp]
theorem inward_taken : (session.taken count).inward = session.inward.after count := by
  cases session <;> rfl

end Session

/-! ## Writing -/

namespace Session

variable {suite : Suite}

/-- A message that fits is written whatever the session, as long as counter values are left. -/
theorem encode_eq
    (session : Session)
    (message : Message)
    (fits : message.size ≤ U24.max)
    (room : session.outward.HasRoom message.partCount) :
    session.encode suite message =
      (session.written message.partCount, .ok (session.outward.frame suite message)) := by
  cases session with
  | encrypted transport =>
    have enough := room transport.sending rfl
    rw [← length_sealedParts] at enough
    have sealedFrame :
        sealChunks suite (sealedParts message.clearFrame)
            ⟨transport.sending, transport.receiving⟩ = _ :=
      transport.sending.sealChunks_eq transport.receiving _ enough
    simp only [encode, frameBytes_of_fits message fits, sealedFrame, written, outward, Flow.frame,
      length_sealedParts]
  | plain | initiating | responding =>
    simp only [encode, frameBytes_of_fits message fits, written, outward, Flow.frame]

/-- A message that does not fit is refused, and the session stays as it is. -/
theorem encode_of_large
    (session : Session)
    (message : Message)
    (large : U24.max < message.size) :
    session.encode suite message = (session, .error .malformedFrame) := by
  simp only [encode, frameBytes_of_large message large]

/-- A cipher that fails is never reported as a malformed frame. -/
theorem ofCipher_ne_malformedFrame (failure : NoiseError) :
    SessionError.ofCipher failure ≠ .malformedFrame := by
  cases failure <;> simp [SessionError.ofCipher]

/-- The frame is malformed exactly when the payload does not fit in three bytes of length. -/
theorem encode_malformed_iff
    (session : Session)
    (message : Message) :
    (session.encode suite message).2 = .error .malformedFrame ↔ U24.max < message.size := by
  constructor
  · intro malformed
    refine Nat.lt_of_not_le fun fits => ?_
    simp only [encode, frameBytes_of_fits message fits] at malformed
    cases session with
    | encrypted transport =>
      cases outcome : sealChunks suite (sealedParts message.clearFrame) transport with
      | ok bytes => simp [outcome] at malformed
      | error failure =>
        simp only [outcome, Except.error.injEq] at malformed
        exact ofCipher_ne_malformedFrame failure malformed
    | plain | initiating | responding => simp at malformed
  · intro large
    rw [encode_of_large session message large]

/-- A frame is laid out in an emptied buffer with just enough room as it is. -/
theorem Writer.serialize_frame
    (writer : Writer)
    (message : Message)
    (fits : message.size ≤ U24.max) :
    let frame : Frame := ⟨message.header fits, .message message⟩
    frame.serialize (writer.clear.makeRoom frame.encodedLength).buffer =
      .ok message.clearFrame := by
  intro frame
  have room : (writer.clear.makeRoom frame.encodedLength).buffer.length =
      frame.encodedLength := by
    simp [clear, makeRoom, resize]
  have length : frame.encodedLength = message.clearFrame.length := by
    rw [message.length_clearFrame, Nat.add_comm]
    rfl
  simp only [Frame.serialize, room, frame, message.write_frame fits, Bytes.overwrite]
  rw [List.drop_of_length_le, List.append_nil]
  exact Nat.le_of_eq (room.trans length)

/-- What was written in a buffer before does not show in a frame. -/
theorem Writer.encode_eq
    (writer : Writer)
    (message : Message)
    (session : Session) :
    (writer.encode suite message session).2 = session.encode suite message := by
  rcases Nat.lt_or_ge U24.max message.size with large | fits
  · simp only [Session.encode_of_large session message large, Writer.encode,
      message.ofMessage_of_large large, SessionError.ofParse]
  · have laidOut := writer.serialize_frame message fits
    simp only [Writer.encode, message.ofMessage_of_fits fits, laidOut, Session.encode,
      frameBytes_of_fits message fits]
    cases session with
    | encrypted transport =>
      cases outcome : sealChunks suite (sealedParts message.clearFrame) transport <;>
        simp only [outcome]
    | plain | initiating | responding => rfl

theorem Writer.encode_of_fits
    (suite : Suite)
    (writer : Writer)
    (message : Message)
    (session : Session)
    (fits : message.size ≤ U24.max)
    (room : session.outward.HasRoom message.partCount) :
    ∃ later, writer.encode suite message session =
      (later, session.written message.partCount, .ok (session.outward.frame suite message)) := by
  refine ⟨_, Prod.ext rfl ?_⟩
  rw [writer.encode_eq, Session.encode_eq session message fits room]

/-! ## Reading -/

theorem take_clearFrame
    (message : Message)
    (fits : message.size ≤ U24.max) :
    message.clearFrame.take headerSize = (message.header fits).toBytes := by
  rw [message.clearFrame_eq fits, ← (message.header fits).length_toBytes, List.take_left]

/-- The front of a frame is read as the header it announces its payload with. -/
theorem readHeader_front
    (sealing : suite.Sealing)
    (session : Session)
    (message : Message)
    (fits : message.size ≤ U24.max)
    (room : session.inward.HasRoom 1) :
    session.readHeader suite (session.inward.front suite message) =
      (session.taken 1, .ok (message.header fits, message.clearFrame.take headerSize)) := by
  have header :
      Header.ofBytes (message.clearFrame.take headerSize) = .ok (message.header fits) := by
    have read := Header.ofBytes_toBytes (message.header fits) []
    rwa [List.append_nil, ← take_clearFrame message fits] at read
  cases session with
  | encrypted transport =>
    have opened := Direction.decrypt_eq sealing transport.receiving transport.sending
      (room transport.receiving rfl) (message.clearFrame.take headerSize)
    simp only [readHeader, inward, Flow.front, opened, header, taken]
  | plain | initiating | responding =>
    simp only [readHeader, inward, Flow.front, header, taken]

/-- What follows the front of a frame is read as the payload. -/
theorem readPayload_back
    (sealing : suite.Sealing)
    (session : Session)
    (message : Message)
    (room : session.inward.HasRoom message.partCount) :
    (session.taken 1).readPayload suite (session.inward.back suite message) =
      (session.taken message.partCount, .ok (message.clearFrame.drop headerSize)) := by
  cases session with
  | encrypted transport =>
    let texts := Bytes.chunks plainChunkSize (message.clearFrame.drop headerSize)
    let direction := transport.receiving.after 1
    have counted : texts.length + 1 = message.partCount := length_sealedParts message
    have enough := room transport.receiving rfl
    have cut : Bytes.chunks sealedChunkSize (direction.sealAll suite texts).flatten =
        direction.sealAll suite texts :=
      Bytes.chunks_flatten sealedChunkSize _
        (direction.chunked_sealAll sealing plainChunkSize texts
          (Bytes.chunked_chunks plainChunkSize (by decide) _))
    have first := transport.receiving.toNat_counter_after 1 (by omega)
    have opened := direction.openChunks_eq sealing transport.sending texts (by
      simp only [direction, first]
      omega)
    have whole : texts.flatten = message.clearFrame.drop headerSize :=
      Bytes.flatten_chunks plainChunkSize (by decide) _
    have parts : 1 + texts.length = message.partCount := by omega
    simp only [direction, texts] at cut opened parts whole
    simp only [readPayload, taken, inward, Flow.back, cut, opened, whole, Direction.after_after,
      parts]
  | plain | initiating | responding =>
    simp only [readPayload, inward, Flow.back, taken]

/-- The frame of a message that fits is decoded as the message. -/
theorem decode_eq
    (sealing : suite.Sealing)
    (session : Session)
    (message : Message)
    (fits : message.size ≤ U24.max)
    (room : session.inward.HasRoom message.partCount) :
    session.decode suite (session.inward.frame suite message) =
      (session.taken message.partCount, .ok message) := by
  have opened := session.readHeader_front sealing message fits
    (room.mono (Nat.le_add_right 1 _))
  have rest := session.readPayload_back sealing message room
  have front := Flow.length_front sealing session.inward message
  have whole := Flow.length_frame sealing session.inward message fits
  rw [Flow.frame_eq] at whole ⊢
  generalize session.inward.front suite message = head at *
  generalize session.inward.back suite message = tail at *
  have headerLength : session.headerLength = head.length := by
    rw [front, isSome_inward, Session.headerLength]
  have length : (head ++ tail).length =
      session.headerLength + (session.taken 1).payloadLength (message.header fits) := by
    rw [whole, isSome_inward, Session.headerLength, payloadLength, isEncrypted_taken]
    split <;> rfl
  have long : ¬ (head ++ tail).length < session.headerLength := by
    omega
  simp only [decode, if_neg long]
  rw [headerLength, List.take_left, List.drop_left, opened, ← headerLength]
  simp only [length, ne_eq, not_true_eq_false, if_false, rest, List.take_append_drop,
    parseFrame_clearFrame message fits]

end Session

end MiningPool
