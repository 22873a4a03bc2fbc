import MiningPool.Proofs.Noise.Genuine
import MiningPool.Proofs.Session.Passage

/-!
# Integrity of an encrypted stream

One party writes messages in an encrypted session, and whoever is on the line feeds the other
party with whatever bytes it likes.  If the cipher of the reader accepts at a counter value
only what the cipher of the writer produced at it, then the messages that are read are the
first ones that were written: none is altered, repeated, left out or out of order.

Headers and chunks of payloads are sealed alike, each on its own.  What keeps them apart is
that a reader that opened a header is between two counter values that belong to one frame,
and knows from the header how many more there are.
-/

namespace MiningPool.Session

open MiningPool.Wire MiningPool.Noise MiningPool.Frame

/-! ## The messages and packets of a run -/

/-- What the sending cipher produces while a message is written. -/
def producedBy (suite : Suite) (message : Message) : Session → List Packet
  | encrypted transport =>
    match frameBytes message with
    | .error _ => []
    | .ok frame => transport.produced suite (sealedParts frame)
  | _ => []

/-- What the sending cipher produces while messages are written one after the other. -/
def produced (suite : Suite) : Writer → Session → List Message → List Packet
  | _, _, [] => []
  | writer, session, message :: rest =>
    let (laterWriter, later, _) := writer.encode suite message session
    session.producedBy suite message ++ produced suite laterWriter later rest

/-- The messages for which there were bytes to send. -/
def sent (suite : Suite) : Writer → Session → List Message → List Message
  | _, _, [] => []
  | writer, session, message :: rest =>
    match writer.encode suite message session with
    | (writer, session, .ok _) => message :: sent suite writer session rest
    | (writer, session, .error _) => sent suite writer session rest

namespace Reader

/-- What the receiving cipher accepts while a chunk is fed. -/
def acceptedBy (suite : Suite) (reader : Reader) (chunk : Bytes) : Session → List Packet
  | encrypted transport =>
    let reader := reader.attune (encrypted transport)
    let buffer := reader.buffer ++ chunk
    if reader.wanted < chunk.length ∨ buffer.length < reader.expected then []
    else
      match reader.header with
      | none => transport.accepted suite [buffer]
      | some _ => transport.accepted suite (Bytes.chunks sealedChunkSize buffer)
  | _ => []

/-- What the receiving cipher accepts while chunks are fed one after the other. -/
def accepted (suite : Suite) : Reader → Session → List Bytes → List Packet
  | _, _, [] => []
  | reader, session, chunk :: rest =>
    let (laterReader, later, _) := reader.feed suite chunk session
    reader.acceptedBy suite chunk session ++ accepted suite laterReader later rest

/-- The messages that are answered while the session is still encrypted. -/
def received (suite : Suite) : Reader → Session → List Bytes → List Message
  | _, _, [] => []
  | reader, session, chunk :: rest =>
    match reader.feed suite chunk session with
    | (reader, encrypted transport, .ok message) =>
      message :: received suite reader (encrypted transport) rest
    | (reader, session, _) => received suite reader session rest

end Reader

/-! ## The texts of messages -/

/-- The texts that are sealed for messages one after the other. -/
def partsOf (messages : List Message) : List Bytes :=
  messages.flatMap fun message => sealedParts message.clearFrame

/-- The messages for which there is a frame. -/
def fitting (messages : List Message) : List Message :=
  messages.filter fun message => message.size ≤ U24.max

@[simp]
theorem length_partsOf (messages : List Message) :
    (partsOf messages).length = Message.totalParts messages := by
  induction messages with
  | nil => rfl
  | cons message rest ih =>
    rw [partsOf, List.flatMap_cons, List.length_append, length_sealedParts, Message.totalParts,
      ← ih, partsOf]

theorem partsOf_append (first second : List Message) :
    partsOf (first ++ second) = partsOf first ++ partsOf second :=
  List.flatMap_append

theorem drop_partsOf (first second : List Message) :
    (partsOf (first ++ second)).drop (Message.totalParts first) = partsOf second := by
  rw [partsOf_append, ← length_partsOf, List.drop_left]

theorem drop_succ_partsOf
    (read others : List Message)
    (message : Message) :
    (partsOf (read ++ message :: others)).drop (Message.totalParts read + 1) =
      Bytes.chunks plainChunkSize (message.clearFrame.drop headerSize) ++ partsOf others := by
  rw [← List.drop_drop, drop_partsOf]
  rfl

theorem fitting_of_large
    {message : Message}
    (large : U24.max < message.size)
    (rest : List Message) :
    fitting (message :: rest) = fitting rest := by
  have unfit : ¬ message.size ≤ U24.max := Nat.not_le.mpr large
  simp [fitting, unfit]

theorem fitting_of_fits
    {message : Message}
    (fits : message.size ≤ U24.max)
    (rest : List Message) :
    fitting (message :: rest) = message :: fitting rest := by
  simp [fitting, fits]

/-! ## Writing -/

section

variable {suite : Suite} {direction receiving : Direction}

/-- A message is too large, or the cipher fails, or its frame is sealed part by part. -/
theorem encode_cases
    (suite : Suite)
    (direction receiving : Direction)
    (writer : Writer)
    (message : Message) :
    ∃ later,
      (U24.max < message.size ∧
        writer.encode suite message (encrypted ⟨direction, receiving⟩) =
          (later, encrypted ⟨direction, receiving⟩, .error .malformedFrame)) ∨
      (message.size ≤ U24.max ∧ ∃ failure,
        writer.encode suite message (encrypted ⟨direction, receiving⟩) =
          (later, plain, .error failure)) ∨
      (message.size ≤ U24.max ∧
        direction.counter.toNat + message.partCount < UInt64.size ∧ ∃ bytes,
          writer.encode suite message (encrypted ⟨direction, receiving⟩) =
            (later, encrypted ⟨direction.after message.partCount, receiving⟩, .ok bytes)) := by
  have written : (writer.encode suite message (encrypted ⟨direction, receiving⟩)).2 = _ :=
    writer.encode_eq message _
  rcases outcome : writer.encode suite message (encrypted ⟨direction, receiving⟩) with
    ⟨later, session, result⟩
  rw [outcome] at written
  refine ⟨later, ?_⟩
  rcases Nat.lt_or_ge U24.max message.size with large | fits
  · rw [encode_of_large _ message large] at written
    obtain ⟨rfl, rfl⟩ := Prod.mk.inj written
    exact .inl ⟨large, rfl⟩
  rcases done : sealChunks suite (sealedParts message.clearFrame) ⟨direction, receiving⟩ with
    failure | ⟨bytes, between⟩
  · simp only [encode, frameBytes_of_fits message fits, done] at written
    obtain ⟨rfl, rfl⟩ := Prod.mk.inj written
    exact .inr (.inl ⟨fits, _, rfl⟩)
  · obtain ⟨room, rfl⟩ := of_sealChunks_eq_ok done
    rw [length_sealedParts] at room
    simp only [encode, frameBytes_of_fits message fits, done, length_sealedParts] at written
    obtain ⟨rfl, rfl⟩ := Prod.mk.inj written
    exact .inr (.inr ⟨fits, room, bytes, rfl⟩)

theorem produced_plain
    (suite : Suite)
    (writer : Writer)
    (messages : List Message) :
    produced suite writer plain messages = [] := by
  induction messages generalizing writer with
  | nil => rfl
  | cons message rest ih =>
    have written : (writer.encode suite message plain).2 = _ := writer.encode_eq message plain
    rcases outcome : writer.encode suite message plain with ⟨laterWriter, later, result⟩
    rw [outcome] at written
    obtain rfl : later = plain :=
      (congrArg Prod.fst written).trans (encode_of_clear suite rfl message)
    simp only [produced, outcome, producedBy, List.nil_append, ih]

/-- All that is produced is genuine. -/
theorem genuine_of_mem_produced
    (writer : Writer)
    (messages : List Message)
    {packet : Packet}
    (member : packet ∈ produced suite writer (encrypted ⟨direction, receiving⟩) messages) :
    Genuine suite direction (partsOf (fitting messages)) packet := by
  induction messages generalizing direction writer with
  | nil => cases member
  | cons message rest ih =>
    obtain ⟨later, ⟨large, outcome⟩ | ⟨fits, failure, outcome⟩ | ⟨fits, room, bytes, outcome⟩⟩ :=
      encode_cases suite direction receiving writer message
    · simp only [produced, outcome, producedBy, frameBytes_of_large message large,
        List.nil_append] at member
      rw [fitting_of_large large]
      exact ih later member
    · simp only [produced, outcome, producedBy, frameBytes_of_fits message fits, produced_plain,
        List.append_nil] at member
      rw [fitting_of_fits fits]
      exact (Noise.genuine_of_mem_produced member).append_left _
    · simp only [produced, outcome, producedBy, frameBytes_of_fits message fits,
        List.mem_append] at member
      rw [fitting_of_fits fits]
      rcases member with now | next
      · exact (Noise.genuine_of_mem_produced now).append_left _
      · rw [← length_sealedParts] at room next
        exact (ih later next).append room

/-- Messages for which counter values are left are sent as they were written. -/
theorem prefix_sent
    (writer : Writer)
    (messages done : List Message)
    (front : done <+: fitting messages)
    (room : direction.counter.toNat + Message.totalParts done < UInt64.size) :
    done <+: sent suite writer (encrypted ⟨direction, receiving⟩) messages := by
  induction messages generalizing direction writer done with
  | nil => exact front
  | cons message rest ih =>
    obtain ⟨later, ⟨large, outcome⟩ | ⟨fits, failure, outcome⟩ | ⟨fits, -, bytes, outcome⟩⟩ :=
      encode_cases suite direction receiving writer message
    · simp only [sent, outcome]
      rw [fitting_of_large large] at front
      exact ih later done front room
    · rw [fitting_of_fits fits] at front
      cases done with
      | nil => exact List.nil_prefix
      | cons first others =>
        obtain ⟨rfl, -⟩ := List.cons_prefix_cons.mp front
        have enough : (encrypted ⟨direction, receiving⟩).outward.HasRoom first.partCount := by
          rintro _ ⟨⟩
          show direction.counter.toNat + first.partCount < UInt64.size
          rw [Message.totalParts] at room
          omega
        obtain ⟨_, written⟩ := writer.encode_of_fits suite first _ fits enough
        rw [outcome] at written
        cases written
    · simp only [sent, outcome]
      rw [fitting_of_fits fits] at front
      cases done with
      | nil => exact List.nil_prefix
      | cons first others =>
        obtain ⟨rfl, rest_front⟩ := List.cons_prefix_cons.mp front
        rw [Message.totalParts] at room
        refine List.cons_prefix_cons.mpr ⟨rfl, ih later others rest_front ?_⟩
        rw [direction.toNat_counter_after first.partCount (by omega)]
        omega

end

/-! ## Reading -/

/--
A reader and its session after some of the messages were read: between two frames or in a
header, in the payload of the next message, or with nothing more to come because the session
has ended.
-/
inductive Aligned
    (direction : Direction)
    (messages read : List Message) :
    Reader → Session → Prop
  /-- The next bytes are those of a header. -/
  | header
      (left : List Message)
      (reader : Reader)
      (buffer : Bytes)
      (sending : Direction)
      (split : messages = read ++ left)
      (room : direction.counter.toNat + Message.totalParts read < UInt64.size)
      (attuned :
        reader.attune (encrypted ⟨sending, direction.after (Message.totalParts read)⟩) =
          ⟨buffer, sealedHeaderSize, none⟩)
      (short : buffer.length < sealedHeaderSize) :
      Aligned direction messages read reader
        (encrypted ⟨sending, direction.after (Message.totalParts read)⟩)
  /-- The next bytes are those of the payload of a message. -/
  | payload
      (left : List Message)
      (message : Message)
      (fits : message.size ≤ U24.max)
      (buffer : Bytes)
      (sending : Direction)
      (split : messages = read ++ message :: left)
      (room : direction.counter.toNat + (Message.totalParts read + 1) < UInt64.size)
      (short : buffer.length < (message.header fits).sealedLength) :
      Aligned direction messages read
        ⟨buffer, (message.header fits).sealedLength, some (message.clearFrame.take headerSize)⟩
        (encrypted ⟨sending, direction.after (Message.totalParts read + 1)⟩)
  /-- The session has ended. -/
  | closed
      (left : List Message)
      (reader : Reader)
      (session : Session)
      (split : messages = read ++ left)
      (room : direction.counter.toNat + Message.totalParts read < UInt64.size)
      (clear : session.isEncrypted = false) :
      Aligned direction messages read reader session

section

variable {suite : Suite} {direction : Direction} {messages : List Message}

/-- A sealed payload is cut into as many chunks as the payload before it was sealed. -/
theorem length_chunks_sealed
    (message : Message)
    (fits : message.size ≤ U24.max)
    (payload : Bytes)
    (whole : payload.length = (message.header fits).sealedLength) :
    (Bytes.chunks sealedChunkSize payload).length =
      (Bytes.chunks plainChunkSize (message.clearFrame.drop headerSize)).length := by
  rw [(message.header fits).length_chunks_sealedLength payload whole,
    Bytes.length_chunks plainChunkSize (by decide), List.length_drop, message.length_clearFrame,
    Nat.add_sub_cancel_left]
  rfl

/-- What feeding a chunk leads to: the next message, a wait for more, or nothing encrypted. -/
inductive Progress
    (direction : Direction)
    (messages read : List Message) :
    Reader × Session × Except SessionError Message → Prop
  | got
      (message : Message)
      (reader : Reader)
      (transport : Transport)
      (aligned : Aligned direction messages (read ++ [message]) reader (encrypted transport)) :
      Progress direction messages read (reader, encrypted transport, .ok message)
  | waits
      (reader : Reader)
      (session : Session)
      (failure : SessionError)
      (aligned : Aligned direction messages read reader session) :
      Progress direction messages read (reader, session, .error failure)
  | closed
      (reader : Reader)
      (session : Session)
      (result : Except SessionError Message)
      (clear : session.isEncrypted = false)
      (aligned : Aligned direction messages read reader session) :
      Progress direction messages read (reader, session, result)

/-- Between two frames a reader starts with a header. -/
theorem Aligned.of_idle
    {read left : List Message}
    (split : messages = read ++ left)
    (room : direction.counter.toNat + Message.totalParts read < UInt64.size)
    (sending : Direction) :
    let session := encrypted ⟨sending, direction.after (Message.totalParts read)⟩
    Aligned direction messages read (Reader.idle session) session :=
  .header left _ [] sending split room (Reader.IsIdle.attune_eq ⟨rfl, rfl⟩ _) (by decide)

/-- Once all parts of the next message were read, a reader is between two frames again. -/
theorem Progress.of_whole
    {read others : List Message}
    {message : Message}
    {count : Nat}
    (split : messages = read ++ message :: others)
    (counted : count = Message.totalParts read + message.partCount)
    (room : direction.counter.toNat + count < UInt64.size)
    (sending : Direction) :
    let session := encrypted ⟨sending, direction.after count⟩
    Progress direction messages read (Reader.idle session, session, .ok message) := by
  rw [← Message.totalParts_concat] at counted
  subst counted
  have further : messages = read ++ [message] ++ others := by simp [split]
  exact .got message _ _ (.of_idle further room sending)

/-- The text after those of the messages that were read is the header of the next message. -/
theorem exists_message_of_drop
    {read left : List Message}
    {text : Bytes}
    {rest : List Bytes}
    (next : (partsOf (read ++ left)).drop (Message.totalParts read) = text :: rest) :
    ∃ message others, left = message :: others ∧ text = message.clearFrame.take headerSize := by
  rw [drop_partsOf] at next
  cases left with
  | nil => cases next
  | cons message others =>
    rw [partsOf, List.flatMap_cons, sealedParts, List.cons_append] at next
    exact ⟨message, others, rfl, (List.cons.inj next).1.symm⟩

/-- A whole header is read. -/
theorem progress_afterHeader
    (sealing : suite.Sealing)
    (small : ∀ message ∈ messages, message.size ≤ U24.max)
    {read left : List Message}
    {sending : Direction}
    {bytes : Bytes}
    (split : messages = read ++ left)
    (room : direction.counter.toNat + Message.totalParts read < UInt64.size)
    (genuine : ∀ packet ∈ Transport.accepted suite [bytes]
        ⟨sending, direction.after (Message.totalParts read)⟩,
      Genuine suite direction (partsOf messages) packet) :
    Progress direction messages read
      (Reader.afterHeader suite bytes
        (encrypted ⟨sending, direction.after (Message.totalParts read)⟩)) := by
  rcases opening : Transport.decrypt suite
    ⟨sending, direction.after (Message.totalParts read)⟩ bytes with failure | ⟨text, later⟩
  · simp only [Reader.afterHeader, readHeader, opening]
    exact .closed _ _ _ rfl (.closed left _ _ split room rfl)
  simp only [Transport.accepted, opening, List.mem_singleton, forall_eq] at genuine
  obtain ⟨next, more, rfl⟩ := genuine.drop_eq sealing room opening
  rw [split] at next
  obtain ⟨message, others, rfl, rfl⟩ := exists_message_of_drop next
  have fits : message.size ≤ U24.max := small message (by simp [split])
  have header :
      Header.ofBytes (message.clearFrame.take headerSize) = .ok (message.header fits) := by
    rw [ofBytes_take_headerSize, message.clearFrame_eq fits, Header.ofBytes_toBytes]
  simp only [Reader.afterHeader, readHeader, opening, header]
  split
  next bare =>
    have nothing : (message.header fits).length.toNat + (message.header fits).chunkCount * tagSize =
        0 := bare
    have empty : message.size = 0 := Nat.eq_zero_of_add_eq_zero_right nothing
    have whole : message.clearFrame.take headerSize = message.clearFrame := by
      rw [List.take_of_length_le]
      rw [message.length_clearFrame, empty]
      exact Nat.le_refl headerSize
    have single : message.partCount = 1 := by
      rw [Message.partCount, empty]
      rfl
    rw [whole, parseFrame_clearFrame message fits]
    exact .of_whole split (by rw [single]) more sending
  next filled =>
    exact .waits _ _ _
      (.payload others message fits [] sending split more (Nat.pos_of_ne_zero filled))

/-- A whole payload is read. -/
theorem progress_afterPayload
    (sealing : suite.Sealing)
    {read others : List Message}
    {message : Message}
    {sending : Direction}
    {bytes : Bytes}
    (fits : message.size ≤ U24.max)
    (split : messages = read ++ message :: others)
    (room : direction.counter.toNat + (Message.totalParts read + 1) < UInt64.size)
    (whole : bytes.length = (message.header fits).sealedLength)
    (genuine : ∀ packet ∈ Transport.accepted suite (Bytes.chunks sealedChunkSize bytes)
        ⟨sending, direction.after (Message.totalParts read + 1)⟩,
      Genuine suite direction (partsOf messages) packet) :
    Progress direction messages read
      (Reader.afterPayload suite (message.clearFrame.take headerSize) bytes
        (encrypted ⟨sending, direction.after (Message.totalParts read + 1)⟩)) := by
  rcases opening : openChunks suite (Bytes.chunks sealedChunkSize bytes)
    ⟨sending, direction.after (Message.totalParts read + 1)⟩ with failure | ⟨payload, later⟩
  · simp only [Reader.afterPayload, readPayload, opening]
    exact .closed _ _ _ rfl (.closed _ _ _ split (by omega) rfl)
  obtain ⟨taken, next, length, rfl, more, rfl⟩ := openChunks_genuine sealing room genuine opening
  rw [length_chunks_sealed message fits bytes whole] at next length more
  rw [split, drop_succ_partsOf] at next
  obtain rfl := (List.append_inj next length.symm).1
  have parts : (sealedParts message.clearFrame).length = message.partCount :=
    length_sealedParts message
  rw [sealedParts, List.length_cons] at parts
  simp only [Reader.afterPayload, readPayload, opening,
    length_chunks_sealed message fits bytes whole,
    Bytes.flatten_chunks plainChunkSize (by decide), List.take_append_drop,
    parseFrame_clearFrame message fits]
  exact .of_whole split (by omega) more sending

theorem wanted_lt_of_long
    {reader : Reader}
    {session : Session}
    {buffer chunk : Bytes}
    {expected : Nat}
    {header : Option Bytes}
    (attuned : reader.attune session = ⟨buffer, expected, header⟩)
    (short : buffer.length < expected)
    (long : expected < (buffer ++ chunk).length) :
    (reader.attune session).wanted < chunk.length := by
  rw [attuned]
  show expected - buffer.length < chunk.length
  rw [List.length_append] at long
  omega

/-- The chunk that completes a header or a payload decides what is accepted. -/
theorem acceptedBy_of_whole
    {reader : Reader}
    {transport : Transport}
    {buffer chunk : Bytes}
    {expected : Nat}
    {header : Option Bytes}
    (attuned : reader.attune (encrypted transport) = ⟨buffer, expected, header⟩)
    (whole : (buffer ++ chunk).length = expected) :
    reader.acceptedBy suite chunk (encrypted transport) =
      match header with
      | none => transport.accepted suite [buffer ++ chunk]
      | some _ => transport.accepted suite (Bytes.chunks sealedChunkSize (buffer ++ chunk)) := by
  have taken :
      ¬ (expected - buffer.length < chunk.length ∨ (buffer ++ chunk).length < expected) := by
    rw [List.length_append] at whole ⊢
    omega
  simp only [Reader.acceptedBy, attuned, Reader.wanted, taken, if_false]
  cases header <;> rfl

/-- Whatever chunk is fed, a reader that is aligned stays so. -/
theorem Aligned.feed
    (sealing : suite.Sealing)
    (small : ∀ message ∈ messages, message.size ≤ U24.max)
    {read : List Message}
    {reader : Reader}
    {session : Session}
    (aligned : Aligned direction messages read reader session)
    (chunk : Bytes)
    (genuine : ∀ packet ∈ reader.acceptedBy suite chunk session,
      Genuine suite direction (partsOf messages) packet) :
    Progress direction messages read (reader.feed suite chunk session) := by
  cases aligned with
  | header left _ buffer sending split room attuned short =>
    rcases Nat.lt_trichotomy (buffer ++ chunk).length sealedHeaderSize with less | whole | long
    · rw [Reader.feed_missing suite reader _ buffer chunk _ _ attuned less]
      exact .waits _ _ _
        (.header left _ (buffer ++ chunk) sending split room (Reader.attune_none ..) less)
    · rw [Reader.feed_header suite reader _ buffer chunk attuned whole]
      rw [acceptedBy_of_whole attuned whole] at genuine
      exact progress_afterHeader sealing small split room genuine
    · rw [Reader.feed_long suite reader _ chunk (wanted_lt_of_long attuned short long), attuned]
      exact .waits _ _ _
        (.header left _ buffer sending split room (Reader.attune_none ..) short)
  | payload others message fits buffer sending split room short =>
    have attuned := Reader.attune_some
      (encrypted ⟨sending, direction.after (Message.totalParts read + 1)⟩) buffer
      (message.clearFrame.take headerSize) (message.header fits).sealedLength
    rcases Nat.lt_trichotomy (buffer ++ chunk).length (message.header fits).sealedLength with
      less | whole | long
    · rw [Reader.feed_missing suite _ _ buffer chunk _ _ attuned less]
      exact .waits _ _ _ (.payload others message fits (buffer ++ chunk) sending split room less)
    · rw [Reader.feed_payload suite _ buffer chunk _ _ whole, ← Reader.afterPayload_eq]
      rw [acceptedBy_of_whole attuned whole] at genuine
      exact progress_afterPayload sealing fits split room whole genuine
    · rw [Reader.feed_long suite _ _ chunk (wanted_lt_of_long attuned short long), attuned]
      exact .waits _ _ _ (.payload others message fits buffer sending split room short)
  | closed left _ _ split room clear =>
    have same := (feed_of_clear suite clear reader chunk).1
    rcases outcome : reader.feed suite chunk session with ⟨laterReader, later, result⟩
    rw [outcome] at same
    obtain rfl : later = session := same
    exact .closed _ _ _ clear (.closed left _ _ split room clear)

/-- What was read so far came first, and there were counter values for it. -/
theorem Aligned.prefix_messages
    {read : List Message}
    {reader : Reader}
    {session : Session}
    (aligned : Aligned direction messages read reader session) :
    read <+: messages ∧ direction.counter.toNat + Message.totalParts read < UInt64.size := by
  cases aligned with
  | header left _ _ _ split room => exact ⟨⟨left, split.symm⟩, room⟩
  | payload others message _ _ _ split room => exact ⟨⟨message :: others, split.symm⟩, by omega⟩
  | closed left _ _ split room => exact ⟨⟨left, split.symm⟩, room⟩

/-- What is read with one more chunk, seen from what feeding it leads to. -/
theorem received_cons
    (reader : Reader)
    (session : Session)
    (chunk : Bytes)
    (rest : List Bytes)
    {laterReader : Reader}
    {later : Session}
    {result : Except SessionError Message}
    (outcome : reader.feed suite chunk session = (laterReader, later, result))
    (nothing : later.isEncrypted = false ∨ ∃ failure, result = .error failure) :
    reader.received suite session (chunk :: rest) = laterReader.received suite later rest := by
  rw [Reader.received, outcome]
  rcases nothing with clear | ⟨failure, rfl⟩
  · cases later with
    | encrypted transport => cases clear
    | plain | initiating | responding => rfl
  · cases later <;> rfl

/-- What an aligned reader reads continues what was read before. -/
theorem Aligned.received
    (sealing : suite.Sealing)
    (small : ∀ message ∈ messages, message.size ≤ U24.max)
    {read : List Message}
    {reader : Reader}
    {session : Session}
    (aligned : Aligned direction messages read reader session)
    (chunks : List Bytes)
    (genuine : ∀ packet ∈ reader.accepted suite session chunks,
      Genuine suite direction (partsOf messages) packet) :
    let all := read ++ reader.received suite session chunks
    all <+: messages ∧ direction.counter.toNat + Message.totalParts all < UInt64.size := by
  induction chunks generalizing read reader session with
  | nil => simpa only [Reader.received, List.append_nil] using aligned.prefix_messages
  | cons chunk rest ih =>
    rcases outcome : reader.feed suite chunk session with ⟨laterReader, later, result⟩
    simp only [Reader.accepted, outcome, List.mem_append] at genuine
    have progress := aligned.feed sealing small chunk fun packet member =>
      genuine packet (.inl member)
    have further (packet : Packet) (member : packet ∈ laterReader.accepted suite later rest) :=
      genuine packet (.inr member)
    rw [outcome] at progress
    cases progress with
    | got message _ transport next =>
      have continued := ih next further
      rw [List.append_assoc, List.singleton_append] at continued
      simp only [Reader.received, outcome]
      exact continued
    | waits _ _ failure next =>
      rw [received_cons reader session chunk rest outcome (.inr ⟨failure, rfl⟩)]
      exact ih next further
    | closed _ _ _ clear next =>
      rw [received_cons reader session chunk rest outcome (.inl clear)]
      exact ih next further

end

/--
Two parties are in an encrypted session, and one of them reads in the direction in which the
other writes.  If every packet that the reader accepts is one that the writer produced, then
whatever chunks the reader is fed, the messages that it reads while its session is encrypted
are the first of those that were written, in their order.
-/
theorem received_prefix_sent
    (suite : Suite)
    (sealing : suite.Sealing)
    (ours theirs : Transport)
    (mirrored : theirs.sending = ours.receiving)
    (writer : Writer)
    (messages : List Message)
    (chunks : List Bytes)
    (unforged : ∀ packet ∈ Reader.start.accepted suite (encrypted ours) chunks,
      packet ∈ produced suite writer (encrypted theirs) messages) :
    Reader.start.received suite (encrypted ours) chunks <+:
      sent suite writer (encrypted theirs) messages := by
  obtain ⟨direction, receiving⟩ := theirs
  obtain ⟨sending, _⟩ := ours
  obtain rfl := mirrored
  have small : ∀ message ∈ fitting messages, message.size ≤ U24.max := fun message member =>
    of_decide_eq_true (List.mem_filter.mp member).2
  have aligned : Aligned direction (fitting messages) [] Reader.start
      (encrypted ⟨sending, direction.after 0⟩) :=
    .header (fitting messages) .start [] sending rfl direction.counter.toNat_lt
      (Reader.IsIdle.attune_eq ⟨rfl, rfl⟩ _) (by decide)
  rw [Direction.after_zero] at aligned
  obtain ⟨front, room⟩ := aligned.received sealing small chunks fun packet member =>
    genuine_of_mem_produced writer messages (unforged packet member)
  exact prefix_sent writer messages _ front room

namespace Replay

/-- The party that writes. -/
def theirs : Transport :=
  ⟨.ofKey [1, 2, 3], .ofKey [4, 5, 6]⟩

/-- The party that reads. -/
def ours : Transport :=
  ⟨.ofKey [4, 5, 6], .ofKey [1, 2, 3]⟩

/-- What is written. -/
def messages : List Message :=
  [⟨.channelEndpointChanged, (⟨7⟩ : Message.Common.ChannelEndpointChanged)⟩]

/-- The packets of the header and of the payload. -/
def packets : List Packet :=
  [(0, Bytes.ofNatBE 22 0x7fcf87a5d5e8ca9e437d97d9125451cbecedf2d8414f),
   (1, Bytes.ofNatBE 20 0x98322fe0f833b29d309ee4fa9d94ff2c6a08f48c)]

/-- What the reader is fed: header and payload, and then the header again. -/
def chunks : List Bytes :=
  (packets ++ packets.take 1).map Prod.snd

theorem produced_eq :
    produced ellSwiftChaChaPoly .start (encrypted theirs) messages = packets := by
  decide +kernel

theorem accepted_eq :
    Reader.start.accepted ellSwiftChaChaPoly (encrypted ours) chunks = packets := by
  decide +kernel

end Replay

/-- The frame is read once, and its repetition is not. -/
theorem received_prefix_sent_replay :
    (Reader.start.received ellSwiftChaChaPoly (encrypted Replay.ours) Replay.chunks).length = 1 ∧
      Reader.start.received ellSwiftChaChaPoly (encrypted Replay.ours) Replay.chunks <+:
        sent ellSwiftChaChaPoly .start (encrypted Replay.theirs) Replay.messages := by
  refine ⟨by decide +kernel, ?_⟩
  apply received_prefix_sent ellSwiftChaChaPoly ellSwiftChaChaPoly_sealing Replay.ours Replay.theirs
    rfl
  intro packet member
  rwa [Replay.accepted_eq, ← Replay.produced_eq] at member

end MiningPool.Session
