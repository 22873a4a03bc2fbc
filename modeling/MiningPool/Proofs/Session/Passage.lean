import MiningPool.Proofs.Session.Frames
import MiningPool.Proofs.Session.Incremental

/-!
# What reading and writing make of a session

An encrypted session goes on with the keys it has, or ends with one of three failures; this
is all that reading and writing can do to it.  Any other session stays what it is, and
through it frames are read and written as they stand.
-/

namespace MiningPool

open MiningPool.Wire MiningPool.Noise MiningPool.Frame

/-! ## In an encrypted session -/

/-- The ciphers still have the keys that they had. -/
def Noise.Transport.SameKeys (before later : Transport) : Prop :=
  later.sending.key = before.sending.key ∧ later.receiving.key = before.receiving.key

namespace Session

/-- The failures with which an encrypted session can end. -/
def endings : List SessionError :=
  [.unauthentic, .nonceExhausted, .malformedFrame]

theorem ofCipher_mem_endings (failure : NoiseError) : SessionError.ofCipher failure ∈ endings := by
  cases failure <;> simp [SessionError.ofCipher, endings]

/-- What reading or writing makes of an encrypted session, whatever it answers. -/
inductive Passage {α : Type} (transport : Transport) : Session × Except SessionError α → Prop
  /-- The session goes on with the same keys. -/
  | advanced
      (later : Transport)
      (result : Except SessionError α)
      (same : transport.SameKeys later) :
      Passage transport (encrypted later, result)
  /-- The session ends. -/
  | ended
      (failure : SessionError)
      (ending : failure ∈ endings) :
      Passage transport (plain, .error failure)

section

variable {suite : Suite} {transport later : Transport} {bytes : Bytes}

theorem sameKeys_encrypt
    {text : Bytes}
    (done : transport.encrypt suite text = .ok (bytes, later)) :
    transport.SameKeys later := by
  unfold Transport.encrypt at done
  split at done
  · cases done
  · cases done
    exact ⟨rfl, rfl⟩

theorem sameKeys_decrypt
    {sealedText : Bytes}
    (done : transport.decrypt suite sealedText = .ok (bytes, later)) :
    transport.SameKeys later := by
  unfold Transport.decrypt at done
  split at done
  · cases done
  · cases done
    exact ⟨rfl, rfl⟩

theorem sameKeys_trans
    {first second third : Transport}
    (before : first.SameKeys second)
    (after : second.SameKeys third) :
    first.SameKeys third :=
  ⟨after.1.trans before.1, after.2.trans before.2⟩

theorem sameKeys_sealChunks
    {texts : List Bytes}
    (done : sealChunks suite texts transport = .ok (bytes, later)) :
    transport.SameKeys later := by
  induction texts generalizing transport bytes with
  | nil =>
    cases done
    exact ⟨rfl, rfl⟩
  | cons text rest ih =>
    rcases first : transport.encrypt suite text with failure | ⟨sealedText, between⟩
    · simp [sealChunks, first] at done
    rcases others : sealChunks suite rest between with failure | ⟨sealedRest, final⟩
    · simp [sealChunks, first, others] at done
    · simp only [sealChunks, first, others, Except.ok.injEq, Prod.mk.injEq] at done
      obtain ⟨-, rfl⟩ := done
      exact sameKeys_trans (sameKeys_encrypt first) (ih others)

theorem sameKeys_openChunks
    {sealedTexts : List Bytes}
    (done : openChunks suite sealedTexts transport = .ok (bytes, later)) :
    transport.SameKeys later := by
  induction sealedTexts generalizing transport bytes with
  | nil =>
    cases done
    exact ⟨rfl, rfl⟩
  | cons sealedText rest ih =>
    rcases first : transport.decrypt suite sealedText with failure | ⟨text, between⟩
    · simp [openChunks, first] at done
    rcases others : openChunks suite rest between with failure | ⟨openedRest, final⟩
    · simp [openChunks, first, others] at done
    · simp only [openChunks, first, others, Except.ok.injEq, Prod.mk.injEq] at done
      obtain ⟨-, rfl⟩ := done
      exact sameKeys_trans (sameKeys_decrypt first) (ih others)

end

/-- What becomes of a session that went on becomes of it as it was before. -/
theorem Passage.of_sameKeys
    {α : Type}
    {transport later : Transport}
    {outcome : Session × Except SessionError α}
    (same : transport.SameKeys later)
    (passage : Passage later outcome) :
    Passage transport outcome := by
  cases passage with
  | advanced final result kept => exact .advanced final result (sameKeys_trans same kept)
  | ended failure ending => exact .ended failure ending

section

variable (suite : Suite) (transport : Transport)

theorem passage_encode (message : Message) :
    Passage transport ((encrypted transport).encode suite message) := by
  rcases Nat.lt_or_ge U24.max message.size with large | fits
  · rw [encode_of_large _ message large]
    exact .advanced transport _ ⟨rfl, rfl⟩
  · cases done : sealChunks suite (sealedParts message.clearFrame) transport with
    | error failure =>
      simp only [encode, frameBytes_of_fits message fits, done]
      exact .ended _ (ofCipher_mem_endings failure)
    | ok sealing =>
      simp only [encode, frameBytes_of_fits message fits, done]
      exact .advanced _ _ (sameKeys_sealChunks done)

theorem passage_readHeader (bytes : Bytes) :
    Passage transport ((encrypted transport).readHeader suite bytes) := by
  cases done : transport.decrypt suite bytes with
  | error failure =>
    simp only [readHeader, done]
    exact .ended _ (ofCipher_mem_endings failure)
  | ok opening =>
    simp only [readHeader, done]
    split
    · exact .advanced _ _ (sameKeys_decrypt done)
    · exact .advanced _ _ (sameKeys_decrypt done)

theorem passage_complete (opened payload : Bytes) :
    Passage transport ((encrypted transport).complete suite opened payload) := by
  cases done : openChunks suite (Bytes.chunks sealedChunkSize payload) transport with
  | error failure =>
    simp only [complete, readPayload, done]
    exact .ended _ (ofCipher_mem_endings failure)
  | ok opening =>
    simp only [complete, readPayload, done]
    exact .advanced _ _ (sameKeys_openChunks done)

theorem passage_decode (bytes : Bytes) :
    Passage transport ((encrypted transport).decode suite bytes) := by
  by_cases short : bytes.length < (encrypted transport).headerLength
  · simp only [decode, short, if_true]
    exact .advanced transport _ ⟨rfl, rfl⟩
  · have front := passage_readHeader suite transport
      (bytes.take (encrypted transport).headerLength)
    simp only [decode, short, if_false]
    revert front
    generalize (encrypted transport).readHeader suite _ = outcome
    intro front
    cases front with
    | ended failure ending => exact .ended failure ending
    | advanced between result same =>
      rcases result with failure | ⟨header, opened⟩
      · exact .advanced between _ same
      · dsimp only
        split
        · exact .ended .malformedFrame (by simp [endings])
        · exact (passage_complete suite between opened _).of_sameKeys same

theorem passage_afterHeader (bytes : Bytes) :
    Passage transport (Reader.afterHeader suite bytes (encrypted transport)).2 := by
  have front := passage_readHeader suite transport bytes
  simp only [Reader.afterHeader]
  revert front
  generalize (encrypted transport).readHeader suite bytes = outcome
  intro front
  cases front with
  | ended failure ending => exact .ended failure ending
  | advanced between result same =>
    rcases result with failure | ⟨header, opened⟩
    · exact .advanced between _ same
    · dsimp only
      split
      · exact .advanced between _ same
      · exact .advanced between _ same

theorem passage_feed (reader : Reader) (chunk : Bytes) :
    Passage transport (reader.feed suite chunk (encrypted transport)).2 := by
  unfold Reader.feed
  dsimp only
  split
  · exact .advanced transport _ ⟨rfl, rfl⟩
  split
  · exact .advanced transport _ ⟨rfl, rfl⟩
  split
  · exact passage_afterHeader suite transport _
  · rw [Reader.afterPayload_eq]
    exact passage_complete suite transport _ _

end

/-! ## In any other session -/

section

variable (suite : Suite) {session : Session}

theorem encode_of_clear
    (clear : session.isEncrypted = false)
    (message : Message) :
    (session.encode suite message).1 = session := by
  cases session with
  | encrypted transport => cases clear
  | plain | initiating | responding =>
    unfold encode
    split <;> rfl

/-- Outside of an encrypted session a header is read as it stands. -/
theorem readHeader_of_clear
    (clear : session.isEncrypted = false)
    (bytes : Bytes) :
    session.readHeader suite bytes =
      (session, match Header.ofBytes bytes with
        | .error _ => .error .malformedFrame
        | .ok header => .ok (header, bytes)) := by
  cases session with
  | encrypted transport => cases clear
  | plain | initiating | responding =>
    cases read : Header.ofBytes bytes <;> simp only [readHeader, read]

/-- And so is a payload. -/
theorem complete_of_clear
    (clear : session.isEncrypted = false)
    (opened payload : Bytes) :
    session.complete suite opened payload = (session, parseFrame (opened ++ payload)) := by
  cases session with
  | encrypted transport => cases clear
  | plain | initiating | responding => rfl

/-- What follows a header does not matter to who reads the header. -/
theorem ofBytes_take_headerSize (bytes : Bytes) :
    Header.ofBytes (bytes.take headerSize) = Header.ofBytes bytes := by
  by_cases long : headerSize ≤ bytes.length
  · have front : headerSize ≤ (bytes.take headerSize).length := by
      rw [List.length_take]
      omega
    simp only [Header.ofBytes, Bytes.cut?_eq, long, front, if_true, List.take_take, Nat.min_self]
  · rw [List.take_of_length_le (by omega)]

/-- Bytes that are not as long as a header in front of them says are no frame. -/
theorem parseFrame_of_length_ne
    (bytes : Bytes)
    (unfit : ∀ header, Header.ofBytes bytes = .ok header →
      bytes.length ≠ headerSize + header.length.toNat) :
    parseFrame bytes = .error .malformedFrame := by
  cases read : Header.ofBytes bytes with
  | error failure => simp only [parseFrame, Frame.ofBytes, read]
  | ok header =>
    have incomplete : Frame.missing bytes ≠ 0 := by
      have := unfit header read
      simp only [Frame.missing, read]
      omega
    simp only [parseFrame, Frame.ofBytes, read, incomplete, if_false]

theorem decode_of_clear
    (clear : session.isEncrypted = false)
    (bytes : Bytes) :
    session.decode suite bytes = (session, parseFrame bytes) := by
  have front : session.headerLength = headerSize := by
    simp only [headerLength, clear, Bool.false_eq_true, if_false]
  have back (header : Header) : session.payloadLength header = header.length.toNat := by
    simp only [payloadLength, clear, Bool.false_eq_true, if_false]
  have same : session.afterMismatch = session := by
    cases session with
    | encrypted transport => cases clear
    | plain | initiating | responding => rfl
  have readHeader := readHeader_of_clear suite clear (bytes.take headerSize)
  rw [ofBytes_take_headerSize] at readHeader
  by_cases short : bytes.length < headerSize
  · have unfit : parseFrame bytes = .error .malformedFrame :=
      parseFrame_of_length_ne bytes fun header _ => by omega
    simp only [decode, front, short, if_true, unfit]
  cases read : Header.ofBytes bytes with
  | error failure =>
    have unfit : parseFrame bytes = .error .malformedFrame :=
      parseFrame_of_length_ne bytes fun header found => by simp [read] at found
    simp only [decode, front, short, if_false, readHeader, read, unfit]
  | ok header =>
    by_cases fits : bytes.length = headerSize + header.length.toNat
    · have whole := complete_of_clear suite clear (bytes.take headerSize)
        (bytes.drop headerSize)
      rw [List.take_append_drop] at whole
      simp only [decode, front, short, if_false, readHeader, read, back]
      rw [if_neg (Decidable.not_not.mpr fits)]
      exact whole
    · have unfit : parseFrame bytes = .error .malformedFrame :=
        parseFrame_of_length_ne bytes fun other found => by
          rw [read] at found
          cases found
          exact fits
      simp only [decode, front, short, if_false, readHeader, read, back, ne_eq, fits,
        not_false_eq_true, if_true, same, unfit]

/-- A reader answers a message in clear only if this is what the bytes it was fed say. -/
theorem feed_of_clear
    (clear : session.isEncrypted = false)
    (reader : Reader)
    (chunk : Bytes) :
    (reader.feed suite chunk session).2.1 = session ∧
      ∀ message, (reader.feed suite chunk session).2.2 = .ok message →
        parseFrame (reader.header.getD [] ++ (reader.buffer ++ chunk)) = .ok message := by
  unfold Reader.feed
  dsimp only
  rw [Reader.buffer_attune, Reader.header_attune]
  split
  · exact ⟨rfl, by rintro _ ⟨⟩⟩
  split
  · exact ⟨rfl, by rintro _ ⟨⟩⟩
  cases found : reader.header with
  | none =>
    dsimp only [Option.getD_none, List.nil_append]
    simp only [Reader.afterHeader, readHeader_of_clear suite clear]
    cases read : Header.ofBytes (reader.buffer ++ chunk) with
    | error failure => exact ⟨rfl, by rintro _ ⟨⟩⟩
    | ok header =>
      dsimp only
      split
      · exact ⟨rfl, fun message parsed => parsed⟩
      · exact ⟨rfl, by rintro _ ⟨⟩⟩
  | some opened =>
    dsimp only [Option.getD_some]
    rw [Reader.afterPayload_eq, complete_of_clear suite clear]
    exact ⟨rfl, fun message parsed => parsed⟩

end

end Session

end MiningPool
