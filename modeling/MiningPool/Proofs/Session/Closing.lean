import MiningPool.Proofs.Session.Operation

/-!
# After the end of an encrypted session

A cipher that fails ends an encrypted session for good: no operation makes it encrypted
again.  But the session that is left is that of a connection without any handshake, so
frames still pass over it, in clear: a message is written as its clear frame, and whatever
parses as a clear frame is taken.
-/

namespace MiningPool.Session

open MiningPool.Wire MiningPool.Noise

variable {suite : Suite}

/-- Only a failure that is answered at once ends an encrypted session. -/
theorem plain_of_ended
    (transport : Transport)
    (operation : Operation)
    (ended : ((encrypted transport).after suite operation).isEncrypted = false) :
    (encrypted transport).after suite operation = plain ∧
      ∃ failure ∈ endings,
        ((encrypted transport).answer suite operation).failure? = some failure := by
  have turn := turn_run suite (encrypted transport) operation
  generalize (encrypted transport).after suite operation = later at turn ended ⊢
  generalize (encrypted transport).answer suite operation = answer at turn ⊢
  cases turn with
  | kept => cases ended
  | advanced => cases ended
  | ended _ _ _ failure ending refused => exact ⟨rfl, failure, ending, refused⟩

theorem answer_encode_plain_iff
    (writer : Writer)
    (message : Message)
    (bytes : Bytes) :
    plain.answer suite (.encode writer message) = .sent (.ok bytes) ↔
      message.size ≤ U24.max ∧ bytes = message.clearFrame := by
  rw [answer, run_encode]
  rcases Nat.lt_or_ge U24.max message.size with large | fits
  · rw [encode_of_large plain message large]
    simp [Nat.not_le.mpr large]
  · simp only [encode, frameBytes_of_fits message fits]
    simp [fits, eq_comm]

theorem answer_decode_plain_iff
    (reader : Reader)
    (bytes : Bytes)
    (message : Message) :
    plain.answer suite (.decode reader bytes) = .received (.ok message) ↔
      parseFrame bytes = .ok message := by
  have read : plain.decode suite bytes = (plain, parseFrame bytes) :=
    decode_of_clear suite rfl bytes
  simp only [answer, Operation.run, Reader.decode, read, Answer.received.injEq]

theorem parseFrame_of_answer_feed
    (reader : Reader)
    (chunk : Bytes)
    (message : Message)
    (taken : plain.answer suite (.feed reader chunk) = .received (.ok message)) :
    parseFrame (reader.header.getD [] ++ (reader.buffer ++ chunk)) = .ok message :=
  (feed_of_clear suite rfl reader chunk).2 message (Answer.received.inj taken)

/--
Once an operation has ended an encrypted session, which it does with a failure of its own,
no course of operations makes it anything but plain.  From then on a message that fits is
written as its clear frame, bytes are taken for the message that they are a clear frame of,
and the steps of a handshake are refused.
-/
theorem plain_after_end
    (suite : Suite)
    (transport : Transport)
    (operation : Operation)
    (ended : ((encrypted transport).after suite operation).isEncrypted = false)
    (course : List Operation) :
    let later := (encrypted transport).afterAll suite (operation :: course)
    (∃ failure ∈ endings,
      ((encrypted transport).answer suite operation).failure? = some failure) ∧
    later = plain ∧
    (∀ writer message bytes,
      later.answer suite (.encode writer message) = .sent (.ok bytes) ↔
        message.size ≤ U24.max ∧ bytes = message.clearFrame) ∧
    (∀ reader bytes message,
      later.answer suite (.decode reader bytes) = .received (.ok message) ↔
        parseFrame bytes = .ok message) ∧
    (∀ reader chunk message,
      later.answer suite (.feed reader chunk) = .received (.ok message) →
        parseFrame (reader.header.getD [] ++ (reader.buffer ++ chunk)) = .ok message) ∧
    later.answer suite .hello = .sent (.error .unexpectedState) ∧
    (∀ message now stream,
      later.answer suite (.reply message now stream) = .sent (.error .unexpectedState)) ∧
    (∀ message now,
      later.answer suite (.finish message now) = .done (.error .unexpectedState)) := by
  obtain ⟨closed, failed⟩ := plain_of_ended transport operation ended
  have later_eq : (encrypted transport).afterAll suite (operation :: course) = plain := by
    rw [afterAll_cons, closed, afterAll_plain]
  intro later
  refine ⟨failed, later_eq, ?_⟩
  simp only [later, later_eq]
  refine ⟨answer_encode_plain_iff, answer_decode_plain_iff, parseFrame_of_answer_feed, rfl, ?_, ?_⟩
  · intro message now stream
    rfl
  · intro message now
    rfl

/-- A party that has just finished a handshake. -/
def keyed : Transport :=
  ⟨.ofKey [1, 2, 3], .ofKey [4, 5, 6]⟩

/-- A header that nobody sealed. -/
def forged : Operation :=
  .decode .start (List.replicate 22 0)

theorem after_forged : (encrypted keyed).after ellSwiftChaChaPoly forged = plain := by
  decide +kernel

theorem plain_after_end_forged :
    ∃ failure ∈ endings,
      ((encrypted keyed).answer ellSwiftChaChaPoly forged).failure? = some failure :=
  (plain_after_end ellSwiftChaChaPoly keyed forged (by rw [after_forged]; rfl) []).1

/-- A message of ten bytes in clear. -/
def announced : Message :=
  ⟨.channelEndpointChanged, (⟨7⟩ : Message.Common.ChannelEndpointChanged)⟩

/-- After a header was refused, what would have been sealed passes in clear both ways. -/
theorem passes_clear_after_forged :
    ((encrypted keyed).answer ellSwiftChaChaPoly forged).failure? = some .unauthentic ∧
      let later := (encrypted keyed).after ellSwiftChaChaPoly forged
      let frame := [0x00, 0x80, 0x03, 0x04, 0x00, 0x00, 0x07, 0x00, 0x00, 0x00]
      later.answer ellSwiftChaChaPoly (.encode .start announced) = .sent (.ok frame) ∧
        later.answer ellSwiftChaChaPoly (.decode .start frame) = .received (.ok announced) := by
  refine ⟨by decide +kernel, ?_⟩
  rw [after_forged]
  exact ⟨rfl, rfl⟩

end MiningPool.Session
