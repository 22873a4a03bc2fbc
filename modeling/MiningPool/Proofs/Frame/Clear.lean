import MiningPool.Proofs.Bytes.Chunks
import MiningPool.Proofs.Wire.Encoding
import MiningPool.Session.Codec

/-!
# Clear frames

The clear frame of a message is its header and its encoding.  Framing a message and
writing the frame gives the clear frame whenever the payload fits in three bytes of
length, and nothing else can go wrong; parsing the clear frame gives the message back.
-/

namespace MiningPool

open MiningPool.Wire MiningPool.Frame

/-! ## Headers -/

namespace Frame.Header

@[simp]
theorem length_toBytes (header : Header) : header.toBytes.length = headerSize := by
  simp [toBytes, headerSize]

theorem encoding_eq_toBytes (header : Header) : Record.encoding header = header.toBytes := by
  simp [Record.encoding, Record.schema, Record.toFields, Schema.encoding, Shape.encoding, toBytes]

/-- A header is read back from the front of whatever follows it. -/
theorem ofBytes_toBytes
    (header : Header)
    (rest : Bytes) :
    Header.ofBytes (header.toBytes ++ rest) = .ok header := by
  have cut := Bytes.cut?_append header.toBytes rest
  have read := Record.reads_encoding header []
  rw [length_toBytes] at cut
  rw [encoding_eq_toBytes, List.append_nil] at read
  simp only [ofBytes, cut, read]

/-- Six bytes are those of a header, whatever they are. -/
theorem exists_toBytes_eq
    (bytes : Bytes)
    (size : bytes.length = headerSize) :
    ∃ header : Header, header.toBytes = bytes := by
  have first : (bytes.take 2).length = 2 := by simp [size, headerSize]
  have second : ((bytes.drop 2).take 1).length = 1 := by simp [size, headerSize]
  have third : ((bytes.drop 2).drop 1).length = 3 := by simp [size, headerSize]
  have extensionType := Bytes.ofNatLE_toNatLE (bytes.take 2)
  have messageType := Bytes.ofNatLE_toNatLE ((bytes.drop 2).take 1)
  have length := Bytes.ofNatLE_toNatLE ((bytes.drop 2).drop 1)
  have extensionBound := Bytes.toNatLE_lt (bytes.take 2)
  have messageBound := Bytes.toNatLE_lt ((bytes.drop 2).take 1)
  have lengthBound := Bytes.toNatLE_lt ((bytes.drop 2).drop 1)
  rw [first] at extensionType extensionBound
  rw [second] at messageType messageBound
  rw [third] at length lengthBound
  refine ⟨⟨.ofNatLT _ extensionBound, .ofNatLT _ messageBound, ⟨_, lengthBound⟩⟩, ?_⟩
  show Bytes.ofNatLE 2 (Bytes.toNatLE (bytes.take 2)) ++
    Bytes.ofNatLE 1 (Bytes.toNatLE ((bytes.drop 2).take 1)) ++
      Bytes.ofNatLE 3 (Bytes.toNatLE ((bytes.drop 2).drop 1)) = bytes
  rw [extensionType, messageType, length, List.append_assoc, List.take_append_drop,
    List.take_append_drop]

/-- A header is read off any bytes that are long enough. -/
theorem exists_ofBytes_eq_ok
    (bytes : Bytes)
    (long : headerSize ≤ bytes.length) :
    ∃ header, Header.ofBytes bytes = .ok header := by
  obtain ⟨header, front⟩ := exists_toBytes_eq (bytes.take headerSize) (by
    rw [List.length_take]
    omega)
  refine ⟨header, ?_⟩
  rw [← List.take_append_drop headerSize bytes, ← front, ofBytes_toBytes]

/-- What follows does not matter to the header. -/
theorem ofBytes_append
    (bytes rest : Bytes)
    (long : headerSize ≤ bytes.length) :
    Header.ofBytes (bytes ++ rest) = Header.ofBytes bytes := by
  have longer : headerSize ≤ (bytes ++ rest).length := by
    rw [List.length_append]
    omega
  simp only [ofBytes, Bytes.cut?_eq, long, longer, if_true,
    List.take_append_of_le_length long]

/-- A chunk of a payload holds 65519 bytes. -/
theorem chunkCount_eq (header : Header) :
    header.chunkCount = (header.length.toNat + 65518) / 65519 := by
  have size : plainChunkSize = 65519 := by decide
  rw [chunkCount, size, Nat.add_sub_assoc (by decide)]

/-- A payload gets longer by being sealed. -/
theorem length_lt_sealedLength
    (header : Header)
    (filled : 0 < header.sealedLength) :
    header.length.toNat < header.sealedLength := by
  simp only [sealedLength, chunkCount_eq, tagSize] at filled ⊢
  omega

/-- A sealed payload is cut into as many chunks as the payload before it was sealed. -/
theorem length_chunks_sealedLength
    (header : Header)
    (payload : Bytes)
    (whole : payload.length = header.sealedLength) :
    (Bytes.chunks sealedChunkSize payload).length = header.chunkCount := by
  rw [Bytes.length_chunks sealedChunkSize (by decide), whole]
  simp only [sealedLength, chunkCount_eq, sealedChunkSize, tagSize]
  omega

end Frame.Header

/-! ## Messages -/

namespace Message

/-- No two kinds have one number, so the number of a kind leads back to it. -/
theorem Kind.ofAnyCode?_code (kind : Kind) : Kind.ofAnyCode? kind.code = some kind := by
  cases kind <;> decide

/-- The header under which a message is framed. -/
def header (message : Message) (fits : message.size ≤ U24.max) : Header where
  extensionType := markChannel 0 message.kind.channelBit
  messageType := message.kind.code
  length := ⟨message.size, Nat.lt_of_le_of_lt fits (by decide)⟩

/-- The bytes of the frame of a message before anything is sealed. -/
def clearFrame (message : Message) : Bytes :=
  Bytes.ofNatLE 2 (markChannel 0 message.kind.channelBit).toNat ++
    Bytes.ofNatLE 1 message.kind.code.toNat ++ Bytes.ofNatLE 3 message.size ++
    Record.encoding message.body

theorem clearFrame_eq
    (message : Message)
    (fits : message.size ≤ U24.max) :
    message.clearFrame = (message.header fits).toBytes ++ Record.encoding message.body :=
  rfl

theorem length_payload (message : Message) :
    (Record.encoding message.body).length = message.size :=
  Record.length_encoding message.body

@[simp]
theorem length_clearFrame (message : Message) :
    message.clearFrame.length = headerSize + message.size := by
  simp [clearFrame, length_payload, headerSize]
  omega

theorem ofMessage_of_fits
    (message : Message)
    (fits : message.size ≤ U24.max) :
    Frame.ofMessage message = .ok ⟨message.header fits, .message message⟩ := by
  have small : message.size < Bytes.capacity 3 := Nat.lt_of_le_of_lt fits (by decide)
  simp only [Frame.ofMessage, ofMessage?, Header.ofLength?, U24.ofNat, small, dite_true, header]

theorem ofMessage_of_large
    (message : Message)
    (large : U24.max < message.size) :
    Frame.ofMessage message = .error .tooLargeForFrame := by
  have big : ¬ message.size < Bytes.capacity 3 := by
    have : Bytes.capacity 3 = U24.max + 1 := by decide
    omega
  simp only [Frame.ofMessage, ofMessage?, Header.ofLength?, U24.ofNat, big, dite_false]

/-- A frame for which there is just enough room is written as the clear frame. -/
theorem write_frame
    (message : Message)
    (fits : message.size ≤ U24.max) :
    let frame : Frame := ⟨message.header fits, .message message⟩
    frame.write frame.encodedLength = .ok message.clearFrame := by
  have front :=
    Header.write_eq_toBytes (message.header fits) (message.size + headerSize) (Nat.le_add_left _ _)
  have back := (Record.writes_encoding message.body).fits message.size
    (Nat.le_of_eq message.length_payload)
  have room : message.size + headerSize - headerSize = message.size := Nat.add_sub_cancel _ _
  simp only [Frame.write, Frame.encodedLength, front, room, Message.write, back,
    clearFrame_eq message fits]

/-- A message of any kind is read back from its payload. -/
theorem read_payload (message : Message) :
    Message.read message.kind.code (Record.encoding message.body) = .ok message := by
  have read := Record.reads_encoding message.body []
  rw [List.append_nil] at read
  simp only [Message.read, Kind.ofAnyCode?_code, ofPayload, read]

/-- Only the base extension is spoken, with or without the channel bit. -/
theorem plainExtensionType_header
    (message : Message)
    (fits : message.size ≤ U24.max) :
    (message.header fits).plainExtensionType = 0 := by
  simp only [Header.plainExtensionType, header]
  cases message.kind.channelBit <;> decide

end Message

namespace Session

theorem frameBytes_of_fits
    (message : Message)
    (fits : message.size ≤ U24.max) :
    frameBytes message = .ok message.clearFrame := by
  simp only [frameBytes, message.ofMessage_of_fits fits, message.write_frame fits]

theorem frameBytes_of_large
    (message : Message)
    (large : U24.max < message.size) :
    frameBytes message = .error .malformedFrame := by
  simp only [frameBytes, message.ofMessage_of_large large, SessionError.ofParse]

/-- The clear frame of a message is parsed as the message. -/
theorem parseFrame_clearFrame
    (message : Message)
    (fits : message.size ≤ U24.max) :
    parseFrame message.clearFrame = .ok message := by
  have header := Header.ofBytes_toBytes (message.header fits) (Record.encoding message.body)
  rw [← message.clearFrame_eq fits] at header
  have complete : Frame.missing message.clearFrame = 0 := by
    simp only [Frame.missing, header, message.length_clearFrame, Message.header]
    omega
  have payload : message.clearFrame.drop headerSize = Record.encoding message.body := by
    rw [message.clearFrame_eq fits, ← (message.header fits).length_toBytes, List.drop_left]
  simp only [parseFrame, Frame.ofBytes, header, complete, if_true, payload,
    message.plainExtensionType_header fits, ne_eq, not_true_eq_false, if_false]
  simp only [Message.header, message.read_payload]

end Session

end MiningPool
