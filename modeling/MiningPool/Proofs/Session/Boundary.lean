import MiningPool.Proofs.Noise.Opening
import MiningPool.Proofs.Session.Integrity

/-!
# Between two frames

Each part of a sealed frame uses up a counter value of the cipher that opens it, the header
before it is known whether the bytes are a frame at all.  Two parties go on understanding each
other only if the reader stops where a frame ends.

Main result: decoding leaves an encrypted session before the frame, because there was no whole
header, or behind it, with all of its parts opened, or it ends the session; it never stops
between two parts.
-/

namespace MiningPool.Session

open MiningPool.Noise MiningPool.Frame

/--
A direction opens bytes as one frame: its header at the counter value of the direction, and
each chunk of its payload at the one after.
-/
structure OpensFrame
    (suite : Suite)
    (direction : Direction)
    (bytes : Bytes)
    (header : Header)
    (front : Bytes)
    (texts : List Bytes) :
    Prop where
  whole : bytes.length = sealedHeaderSize + header.sealedLength
  first : suite.openText? direction.key direction.counter [] (bytes.take sealedHeaderSize) =
    some front
  announced : Header.ofBytes front = .ok header
  chunks : OpensAll suite (direction.after 1)
    (Bytes.chunks sealedChunkSize (bytes.drop sealedHeaderSize)) texts
  length : (front ++ texts.flatten).length = headerSize + header.length.toNat

/-- What decoding makes of an encrypted session: it stands between two frames, or has ended. -/
inductive AtBoundary
    (suite : Suite)
    (transport : Transport)
    (bytes : Bytes) :
    Session × Except SessionError Message → Prop
  /-- There is no whole header, and nothing was opened. -/
  | before
      (short : bytes.length < sealedHeaderSize) :
      AtBoundary suite transport bytes (encrypted transport, .error .malformedFrame)
  /-- The whole frame was opened, whether its payload is a message or not. -/
  | behind
      (header : Header)
      (front : Bytes)
      (texts : List Bytes)
      (opens : OpensFrame suite transport.receiving bytes header front texts)
      (receiving : Direction)
      (key : receiving.key = transport.receiving.key)
      (counter : receiving.counter.toNat =
        transport.receiving.counter.toNat + 1 + (header.length.toNat + 65518) / 65519)
      (answer : (∃ message, parseFrame (front ++ texts.flatten) = .ok message) ∨
        parseFrame (front ++ texts.flatten) = .error .malformedFrame) :
      AtBoundary suite transport bytes
        (encrypted ⟨transport.sending, receiving⟩, parseFrame (front ++ texts.flatten))
  /-- The session has ended. -/
  | ended
      (long : sealedHeaderSize ≤ bytes.length)
      (failure : SessionError)
      (ending : failure ∈ [.unauthentic, .nonceExhausted, .malformedFrame]) :
      AtBoundary suite transport bytes (plain, .error failure)

/-- A whole frame holds a message or is malformed. -/
theorem parseFrame_cases (bytes : Bytes) :
    (∃ message, parseFrame bytes = .ok message) ∨ parseFrame bytes = .error .malformedFrame := by
  unfold parseFrame
  repeat' split
  all_goals first | exact .inr rfl | exact .inl ⟨_, rfl⟩

variable {suite : Suite}

/-- A whole payload after a header that was opened. -/
theorem atBoundary_payload
    (tagged : suite.OpensTagged)
    (transport : Transport)
    (bytes front : Bytes)
    (header : Header)
    (room : transport.receiving.counter.toNat + 1 < UInt64.size)
    (first : suite.openText? transport.receiving.key transport.receiving.counter []
      (bytes.take sealedHeaderSize) = some front)
    (announced : Header.ofBytes front = .ok header)
    (whole : bytes.length = sealedHeaderSize + header.sealedLength) :
    AtBoundary suite transport bytes
      ((encrypted ⟨transport.sending, transport.receiving.after 1⟩).complete suite front
        (bytes.drop sealedHeaderSize)) := by
  rcases done : openChunks suite (Bytes.chunks sealedChunkSize (bytes.drop sealedHeaderSize))
    ⟨transport.sending, transport.receiving.after 1⟩ with failure | ⟨payload, later⟩
  · simp only [complete, readPayload, done]
    exact .ended (by omega) _ (ofCipher_mem_endings failure)
  obtain ⟨texts, opens, rfl, more, rfl⟩ := exists_opensAll_of_openChunks_eq_ok done
  have size : (bytes.drop sealedHeaderSize).length = header.sealedLength := by
    rw [List.length_drop, whole, Nat.add_sub_cancel_left]
  have count := header.length_chunks_sealedLength _ size
  have cut := Bytes.flatten_chunks sealedChunkSize (by decide) (bytes.drop sealedHeaderSize)
  have backLength := opens.length_flatten tagged
  have frontLength := tagged _ _ _ _ _ first
  rw [cut, size, count, Header.sealedLength] at backLength
  rw [List.length_take, whole, Nat.min_eq_left (Nat.le_add_right _ _)] at frontLength
  simp only [count] at more
  rw [transport.receiving.toNat_counter_after 1 room] at more
  have counted := transport.receiving.toNat_counter_after (1 + header.chunkCount) (by omega)
  simp only [complete, readPayload, done, count, Direction.after_after]
  refine .behind header front texts ⟨whole, first, announced, opens, ?_⟩ _
    (Direction.key_after _ _) ?_ (parseFrame_cases _)
  · rw [List.length_append, Nat.add_right_cancel frontLength, Nat.add_right_cancel backLength]
  · rw [counted, Header.chunkCount_eq, Nat.add_assoc]

/-- Decoding stops between two frames, or it ends the session. -/
theorem atBoundary_decode
    (tagged : suite.OpensTagged)
    (transport : Transport)
    (bytes : Bytes) :
    AtBoundary suite transport bytes ((encrypted transport).decode suite bytes) := by
  have headerLength : (encrypted transport).headerLength = sealedHeaderSize := rfl
  by_cases short : bytes.length < sealedHeaderSize
  · simp only [decode, headerLength, short, if_true]
    exact .before short
  rcases opening : transport.decrypt suite (bytes.take sealedHeaderSize) with
    failure | ⟨front, between⟩
  · simp only [decode, headerLength, short, if_false, readHeader, opening]
    exact .ended (by omega) _ (ofCipher_mem_endings failure)
  obtain ⟨room, first, rfl⟩ := of_decrypt_eq_ok opening
  have frontLength := tagged _ _ _ _ _ first
  rw [List.length_take, Nat.min_eq_left (by omega)] at frontLength
  obtain ⟨header, announced⟩ := Header.exists_ofBytes_eq_ok front (by
    simp only [sealedHeaderSize] at frontLength
    omega)
  simp only [decode, headerLength, short, if_false, readHeader, opening, announced,
    payloadLength, isEncrypted, if_true]
  split
  next => exact .ended (by omega) _ (by simp)
  next fits =>
    have whole := Decidable.not_not.mp fits
    exact atBoundary_payload tagged transport bytes front header room first announced whole

/--
Whatever bytes are decoded in an encrypted session, it stays as it is for want of a whole
header, or it has taken one counter value for the header and one for each chunk of the payload
that the header announces, all of them opened, or it has ended.  The direction in which it
writes stays as it is unless the session ends.  No other session is changed by what is read.
-/
theorem decode_stops_between_frames
    (suite : Suite)
    (tagged : suite.OpensTagged) :
    (∀ (reader : Reader) (transport : Transport) (bytes : Bytes),
      AtBoundary suite transport bytes (reader.decode suite bytes (encrypted transport)).2) ∧
    ∀ (reader : Reader) (session : Session), session.isEncrypted = false → ∀ bytes : Bytes,
      (reader.decode suite bytes session).2.1 = session ∧
      (reader.feed suite bytes session).2.1 = session := by
  refine ⟨fun _ transport bytes => atBoundary_decode tagged transport bytes, ?_⟩
  intro reader session clear bytes
  refine ⟨?_, (feed_of_clear suite clear reader bytes).1⟩
  exact congrArg Prod.fst (decode_of_clear suite clear bytes)

/-- The bytes of a frame that was sealed for the party that reads. -/
def Replay.frame : Bytes :=
  (packets.map Prod.snd).flatten

theorem decode_stops_between_frames_replay :
    let outcome := Reader.start.decode ellSwiftChaChaPoly Replay.frame (encrypted Replay.ours)
    outcome.2.1 = encrypted ⟨Replay.ours.sending, ⟨[1, 2, 3], 2⟩⟩ ∧
      AtBoundary ellSwiftChaChaPoly Replay.ours Replay.frame outcome.2 ∧
      (Reader.start.feed ellSwiftChaChaPoly Replay.frame plain).2.1 = plain := by
  have stops := decode_stops_between_frames ellSwiftChaChaPoly ellSwiftChaChaPoly_opensTagged
  refine ⟨by decide +kernel, stops.1 .start Replay.ours Replay.frame, ?_⟩
  exact (stops.2 .start plain rfl Replay.frame).2

end MiningPool.Session
