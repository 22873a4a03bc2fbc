import MiningPool.Proofs.Session.Boundary

/-!
# Reading while the session changes

A reader is given the session with every chunk, and between two chunks a handshake may have
been completed or the session may have been lost.  Then a frame is begun in one mode, and its
header or its payload is completed in another.  The reader does not keep the mode; it counts
bytes, and what it counts is sixteen bytes longer for every part that is sealed.

To say in which mode a part was read, a reader is watched: beside it stand the session in which
the first byte of the frame was taken and the one in which its header was completed.

Main result: the reader stays in its bounds, and a message is taken from a frame of mixed modes
in one case only.  If a sealed header is awaited when the session is lost, 22 bytes are read as
a clear header; if the payload that they announce is then opened as a single chunk, it loses
just as many bytes as the header has too many.
-/

namespace MiningPool.Session

open MiningPool.Noise MiningPool.Frame

/-- A call to a reader: the session at that time, and the bytes that are fed. -/
structure Feeding where
  session : Session
  chunk : Bytes

/-- A reader and what is to be known of the frame it reads. -/
structure Watched where
  reader : Reader
  /-- The session in which the first byte was taken. -/
  begun : Option Session
  /-- The session in which the header was completed. -/
  headed : Option Session

namespace Watched

/-- A reader that has seen nothing. -/
def start : Watched :=
  ⟨.start, none, none⟩

/-- The frame goes on while bytes are missing or a chunk is refused, and else it is done with. -/
def feed (suite : Suite) (watched : Watched) (next : Feeding) : Watched :=
  match watched.reader.feed suite next.chunk next.session with
  | (later, _, .error (.excessBytes _ _)) => { watched with reader := later }
  | (later, _, .error (.missingBytes _)) =>
    { reader := later
      begun := watched.begun.or (if next.chunk.isEmpty then none else some next.session)
      headed := watched.headed.or (later.header.map fun _ => next.session) }
  | (later, _, _) => ⟨later, none, none⟩

/-- What was watched through calls one after the other. -/
def after (suite : Suite) (watched : Watched) (course : List Feeding) : Watched :=
  course.foldl (feed suite) watched

/-- Watching a reader does not change what it does. -/
theorem reader_feed
    (suite : Suite)
    (watched : Watched)
    (next : Feeding) :
    (watched.feed suite next).reader =
      (watched.reader.feed suite next.chunk next.session).1 := by
  unfold feed
  split
  all_goals simp_all

theorem reader_after
    (suite : Suite)
    (watched : Watched)
    (course : List Feeding) :
    (watched.after suite course).reader =
      course.foldl (fun reader next => (reader.feed suite next.chunk next.session).1)
        watched.reader := by
  induction course generalizing watched with
  | nil => rfl
  | cons next rest ih =>
    rw [List.foldl_cons, ← reader_feed]
    exact ih (watched.feed suite next)

end Watched

/-! ## Headers -/

section

variable (session : Session)

theorem headerLength_cases :
    session.headerLength = headerSize ∨ session.headerLength = sealedHeaderSize := by
  unfold headerLength
  split
  · exact .inr rfl
  · exact .inl rfl

theorem headerLength_eq_sealedHeaderSize_iff :
    session.headerLength = sealedHeaderSize ↔ session.isEncrypted = true := by
  unfold headerLength
  cases session.isEncrypted <;> decide

theorem headerSize_le_headerLength : headerSize ≤ session.headerLength := by
  rcases session.headerLength_cases with short | long
  · exact Nat.le_of_eq short.symm
  · rw [long]
    exact Nat.le_add_right _ _

theorem payloadLength_of_isEncrypted_eq
    {later : Session}
    (same : later.isEncrypted = session.isEncrypted)
    (header : Header) :
    later.payloadLength header = session.payloadLength header := by
  rw [payloadLength, payloadLength, same]

end

namespace Watched

/-- How a header was read in one session off as many bytes as another asked for. -/
structure Fronts (begun headed : Session) (opened : Bytes) (header : Header) : Prop where
  announced : Header.ofBytes opened = .ok header
  length : opened.length = if headed.isEncrypted then headerSize else begun.headerLength
  mode : headed.isEncrypted = true → begun.isEncrypted = true

/-- The header is still there when the payload follows. -/
theorem Fronts.announced_append
    {begun headed : Session}
    {opened : Bytes}
    {header : Header}
    (fronts : Fronts begun headed opened header)
    (payload : Bytes) :
    Header.ofBytes (opened ++ payload) = .ok header := by
  have long : headerSize ≤ opened.length := by
    rw [fronts.length]
    split
    · exact Nat.le_refl headerSize
    · exact headerSize_le_headerLength begun
  rw [Header.ofBytes_append opened payload long, fronts.announced]

section

variable {suite : Suite}

/-- A header that is read leaves the mode, and in an encrypted session it was sealed. -/
theorem fronts_of_readHeader
    (tagged : suite.OpensTagged)
    {begun session later : Session}
    {bytes opened : Bytes}
    {header : Header}
    (whole : bytes.length = begun.headerLength)
    (read : session.readHeader suite bytes = (later, .ok (header, opened))) :
    Fronts begun session opened header ∧ later.isEncrypted = session.isEncrypted := by
  cases session with
  | encrypted transport =>
    rcases opening : transport.decrypt suite bytes with failure | ⟨front, between⟩
    · simp [readHeader, opening] at read
    obtain ⟨-, first, -⟩ := of_decrypt_eq_ok opening
    have length := tagged _ _ _ _ _ first
    rw [whole] at length
    -- A clear header is too short to be a text with its tag.
    have begunLength : begun.headerLength = sealedHeaderSize := by
      refine begun.headerLength_cases.resolve_left fun short => ?_
      simp only [short, headerSize, tagSize] at length
      omega
    rw [begunLength] at length
    have size : front.length = headerSize := (Nat.add_right_cancel length).symm
    obtain ⟨found, announced⟩ := Header.exists_ofBytes_eq_ok front (Nat.le_of_eq size.symm)
    simp only [readHeader, opening, announced, Prod.mk.injEq, Except.ok.injEq] at read
    obtain ⟨rfl, rfl, rfl⟩ := read
    have mode := begun.headerLength_eq_sealedHeaderSize_iff.mp begunLength
    exact ⟨⟨announced, size, fun _ => mode⟩, rfl⟩
  | plain | initiating | responding =>
    have long := headerSize_le_headerLength begun
    obtain ⟨found, announced⟩ := Header.exists_ofBytes_eq_ok bytes (by omega)
    simp only [readHeader, announced, Prod.mk.injEq, Except.ok.injEq] at read
    obtain ⟨rfl, rfl, rfl⟩ := read
    exact ⟨⟨announced, whole, fun sealedMode => by cases sealedMode⟩, rfl⟩

/-- Bytes that hold a message are as long as the header in front of them says. -/
theorem length_of_parseFrame_eq_ok
    {bytes : Bytes}
    {header : Header}
    {message : Message}
    (announced : Header.ofBytes bytes = .ok header)
    (parsed : parseFrame bytes = .ok message) :
    bytes.length = headerSize + header.length.toNat := by
  refine Decidable.byContradiction fun differs => ?_
  rw [parseFrame_of_length_ne bytes fun other found => by
    rw [announced] at found
    cases found
    exact differs] at parsed
  cases parsed

/-! ## Payloads -/

/--
A header was begun sealed and completed in clear, so that all of its 22 bytes count as header
and payload, and the payload that they announce is opened as a single chunk.
-/
inductive HeadedInClear
    (suite : Suite)
    (watched : Watched)
    (next : Feeding)
    (message : Message) :
    Prop
  | opened
      (begun headed : Session)
      (transport : Transport)
      (front text : Bytes)
      (header : Header)
      (begunSealed : watched.begun = some begun ∧ begun.isEncrypted = true)
      (headedClear : watched.headed = some headed ∧ headed.isEncrypted = false)
      (nextSealed : next.session = encrypted transport)
      (kept : watched.reader.header = some front ∧ front.length = sealedHeaderSize)
      (announced : Header.ofBytes front = .ok header)
      (payload : (watched.reader.buffer ++ next.chunk).length = header.length.toNat)
      (single : tagSize ≤ header.length.toNat ∧ header.length.toNat ≤ sealedChunkSize)
      (authentic : suite.openText? transport.receiving.key transport.receiving.counter []
        (watched.reader.buffer ++ next.chunk) = some text)
      (parsed : parseFrame (front ++ text) = .ok message)

/-- The sessions of all parts of a frame are in the mode of the last one. -/
def SameModes (watched : Watched) (next : Feeding) : Prop :=
  (watched.begun.getD next.session).isEncrypted = next.session.isEncrypted ∧
    (watched.headed.getD next.session).isEncrypted = next.session.isEncrypted

section

variable
  {begun headed : Session}
  {buffer opened : Bytes}
  {header : Header}
  {message : Message}
  {next : Feeding}

/-- What was headed and completed in clear was begun in clear. -/
theorem begun_clear_of_parsed
    (fronts : Fronts begun headed opened header)
    (headedClear : headed.isEncrypted = false)
    {payload : Bytes}
    (whole : payload.length = headed.payloadLength header)
    (parsed : parseFrame (opened ++ payload) = .ok message) :
    begun.isEncrypted = false := by
  have length := length_of_parseFrame_eq_ok (fronts.announced_append _) parsed
  have front := fronts.length
  rw [List.length_append, whole] at length
  simp only [payloadLength, headedClear, Bool.false_eq_true, if_false] at length front
  rw [← Bool.not_eq_true, ← headerLength_eq_sealedHeaderSize_iff, ← front]
  simp only [sealedHeaderSize, headerSize, tagSize] at length ⊢
  omega

/-- A payload that is completed in clear was announced in clear. -/
theorem headed_clear_of_parsed
    (fronts : Fronts begun headed opened header)
    (filled : 0 < headed.payloadLength header)
    {payload : Bytes}
    (whole : payload.length = headed.payloadLength header)
    (parsed : parseFrame (opened ++ payload) = .ok message) :
    headed.isEncrypted = false := by
  rw [← Bool.not_eq_true]
  intro headedMode
  have length := length_of_parseFrame_eq_ok (fronts.announced_append _) parsed
  have front := fronts.length
  rw [List.length_append, whole] at length
  simp only [payloadLength, headedMode, if_true] at length filled front
  have := header.length_lt_sealedLength filled
  omega

/-- A payload that is completed encrypted was announced so, or it is a single chunk. -/
theorem headedInClear_of_complete_sealed
    (tagged : suite.OpensTagged)
    (fronts : Fronts begun headed opened header)
    (filled : 0 < headed.payloadLength header)
    (whole : (buffer ++ next.chunk).length = headed.payloadLength header)
    (transport later : Transport)
    (nextSealed : next.session = encrypted transport)
    (headedClear : headed.isEncrypted = false)
    (payload : Bytes)
    (done : openChunks suite (Bytes.chunks sealedChunkSize (buffer ++ next.chunk)) transport =
      .ok (payload, later))
    (parsed : parseFrame (opened ++ payload) = .ok message) :
    HeadedInClear suite
      ⟨⟨buffer, headed.payloadLength header, some opened⟩, some begun, some headed⟩ next
      message := by
  have length := length_of_parseFrame_eq_ok (fronts.announced_append _) parsed
  have front := fronts.length
  obtain ⟨texts, opens, rfl, -, -⟩ := exists_opensAll_of_openChunks_eq_ok done
  have tags := opens.length_flatten tagged
  have count := Bytes.length_chunks sealedChunkSize (by decide) (buffer ++ next.chunk)
  have cut := Bytes.flatten_chunks sealedChunkSize (by decide) (buffer ++ next.chunk)
  generalize Bytes.chunks sealedChunkSize (buffer ++ next.chunk) = chunks at opens tags count cut
  simp only [payloadLength, headedClear, Bool.false_eq_true, if_false] at filled whole front
  rw [List.length_append] at length
  rw [cut, whole] at tags
  rw [whole] at count
  have size := begun.headerLength_cases
  -- The payload is opened without its tags, and the header is at most one tag too long.
  obtain ⟨begunLength, one⟩ : begun.headerLength = sealedHeaderSize ∧ chunks.length = 1 := by
    simp only [sealedChunkSize] at count
    simp only [sealedHeaderSize, headerSize, tagSize] at size length tags ⊢
    omega
  obtain ⟨chunk, rfl⟩ := List.length_eq_one_iff.mp one
  rw [List.flatten_singleton] at cut
  subst cut
  cases opens with
  | cons _ _ text _ _ authentic others =>
    cases others
    rw [List.flatten_singleton] at tags parsed
    refine .opened begun headed transport opened text header ⟨rfl, ?_⟩ ⟨rfl, headedClear⟩ nextSealed
      ⟨rfl, front.trans begunLength⟩ fronts.announced whole ⟨?_, ?_⟩ authentic parsed
    · exact begun.headerLength_eq_sealedHeaderSize_iff.mp begunLength
    · rw [tags, one]
      omega
    · simp only [sealedChunkSize] at count ⊢
      omega

/-- A message that is completed with a payload was read in one mode, but for the one case. -/
theorem modes_of_complete
    (tagged : suite.OpensTagged)
    (fronts : Fronts begun headed opened header)
    (filled : 0 < headed.payloadLength header)
    (whole : (buffer ++ next.chunk).length = headed.payloadLength header)
    (taken : (next.session.complete suite opened (buffer ++ next.chunk)).2 = .ok message) :
    let watched : Watched :=
      ⟨⟨buffer, headed.payloadLength header, some opened⟩, some begun, some headed⟩
    watched.SameModes next ∨ HeadedInClear suite watched next message := by
  cases mode : next.session.isEncrypted with
  | false =>
    rw [complete_of_clear suite mode] at taken
    have headedClear := headed_clear_of_parsed fronts filled whole taken
    have begunClear := begun_clear_of_parsed fronts headedClear whole taken
    exact .inl ⟨begunClear.trans mode.symm, headedClear.trans mode.symm⟩
  | true =>
    obtain ⟨transport, nextSealed⟩ : ∃ transport, next.session = encrypted transport := by
      cases session : next.session with
      | encrypted transport => exact ⟨transport, rfl⟩
      | plain | initiating | responding => rw [session] at mode; cases mode
    cases headedMode : headed.isEncrypted with
    | true => exact .inl ⟨(fronts.mode headedMode).trans mode.symm, headedMode.trans mode.symm⟩
    | false =>
      rw [nextSealed] at taken
      rcases done : openChunks suite (Bytes.chunks sealedChunkSize (buffer ++ next.chunk))
        transport with failure | ⟨payload, later⟩
      · simp [complete, readPayload, done] at taken
      simp only [complete, readPayload, done] at taken
      exact .inr (headedInClear_of_complete_sealed tagged fronts filled whole transport later
        nextSealed headedMode payload done taken)

end

end

/-! ## Calls -/

/-- A watched reader between two frames, in a header, or in a payload. -/
inductive Sound : Watched → Prop
  | idle
      (expected : Nat) :
      Sound ⟨⟨[], expected, none⟩, none, none⟩
  | header
      (begun : Session)
      (buffer : Bytes)
      (filled : buffer ≠ [])
      (short : buffer.length < begun.headerLength) :
      Sound ⟨⟨buffer, begun.headerLength, none⟩, some begun, none⟩
  | payload
      (begun headed : Session)
      (buffer opened : Bytes)
      (header : Header)
      (fronts : Fronts begun headed opened header)
      (short : buffer.length < headed.payloadLength header) :
      Sound ⟨⟨buffer, headed.payloadLength header, some opened⟩, some begun, some headed⟩

/-- What a watched reader answers to a call. -/
inductive Answers
    (suite : Suite)
    (watched : Watched)
    (next : Feeding) :
    Reader × Session × Except SessionError Message → Prop
  /-- The chunk is too long, and nothing of it is taken. -/
  | refused
      (sound : Sound { watched with reader := watched.reader.attune next.session }) :
      Answers suite watched next
        (watched.reader.attune next.session, next.session,
          .error (.excessBytes (watched.reader.attune next.session).wanted next.chunk.length))
  /-- The chunk is taken, and bytes are missing from the header or the payload. -/
  | missing
      (later : Reader)
      (session : Session)
      (more : 0 < later.wanted)
      (sound : Sound
        { reader := later
          begun := watched.begun.or (if next.chunk.isEmpty then none else some next.session)
          headed := watched.headed.or (later.header.map fun _ => next.session) }) :
      Answers suite watched next (later, session, .error (.missingBytes later.wanted))
  /-- The frame ends. -/
  | ended
      (session : Session)
      (result : Except SessionError Message)
      (final : IsFinal result)
      (modes : ∀ message, result = .ok message →
        watched.SameModes next ∨ HeadedInClear suite watched next message) :
      Answers suite watched next (Reader.idle session, session, result)

section

variable {suite : Suite} {watched : Watched} {next : Feeding}

theorem Sound.length_le
    (sound : Sound watched) :
    watched.reader.buffer.length ≤ watched.reader.expected := by
  cases sound with
  | idle => exact Nat.zero_le _
  | header _ _ _ short => exact Nat.le_of_lt short
  | payload _ _ _ _ _ _ short => exact Nat.le_of_lt short

/-- A whole header is read. -/
theorem answers_afterHeader
    (tagged : suite.OpensTagged)
    {begun : Session}
    {bytes : Bytes}
    (unheaded : watched.headed = none)
    (begunAt : watched.begun.getD next.session = begun)
    (begunNow : watched.begun.or (if next.chunk.isEmpty then none else some next.session) =
      some begun)
    (whole : bytes.length = begun.headerLength) :
    Answers suite watched next (Reader.afterHeader suite bytes next.session) := by
  rcases read : next.session.readHeader suite bytes with ⟨later, failure | ⟨header, opened⟩⟩
  · simp only [Reader.afterHeader, read]
    exact .ended later _ (isFinal_readHeader _ _ _ _ read) (by rintro _ ⟨⟩)
  obtain ⟨fronts, same⟩ := fronts_of_readHeader tagged whole read
  simp only [Reader.afterHeader, read, payloadLength_of_isEncrypted_eq _ same]
  split
  next bare =>
    refine .ended later _ (isFinal_parseFrame _) fun message parsed => .inl ?_
    rw [SameModes, begunAt, unheaded]
    refine ⟨?_, rfl⟩
    cases mode : next.session.isEncrypted with
    | true => exact fronts.mode mode
    | false =>
      have nothing : ([] : Bytes).length = next.session.payloadLength header := bare.symm
      rw [← List.append_nil opened] at parsed
      exact begun_clear_of_parsed fronts mode nothing parsed
  next filled =>
    have more := Nat.pos_of_ne_zero filled
    refine .missing _ later more ?_
    rw [begunNow, unheaded]
    exact .payload begun next.session [] opened header fronts more

/-- Bytes of a header are fed. -/
theorem answers_header
    (tagged : suite.OpensTagged)
    {begun : Session}
    {buffer : Bytes}
    (unheaded : watched.headed = none)
    (begunAt : watched.begun.getD next.session = begun)
    (begunNow : watched.begun.or (if next.chunk.isEmpty then none else some next.session) =
      some begun)
    (attuned : watched.reader.attune next.session = ⟨buffer, begun.headerLength, none⟩)
    (sound : Sound { watched with reader := watched.reader.attune next.session })
    (filled : buffer ++ next.chunk ≠ [])
    (short : buffer.length < begun.headerLength) :
    Answers suite watched next (watched.reader.feed suite next.chunk next.session) := by
  rcases Nat.lt_trichotomy (buffer ++ next.chunk).length begun.headerLength with
    less | whole | long
  · rw [Reader.feed_missing suite _ _ buffer next.chunk _ _ attuned less]
    refine .missing ⟨buffer ++ next.chunk, begun.headerLength, none⟩ _ (Nat.sub_pos_of_lt less) ?_
    rw [begunNow, unheaded]
    exact .header begun _ filled less
  · rw [Reader.feed_header suite _ _ buffer next.chunk attuned whole]
    exact answers_afterHeader tagged unheaded begunAt begunNow whole
  · rw [Reader.feed_long suite _ _ next.chunk (wanted_lt_of_long attuned short long)]
    exact .refused sound

/-- Bytes of a payload are fed. -/
theorem answers_payload
    (tagged : suite.OpensTagged)
    {begun headed : Session}
    {buffer opened : Bytes}
    {header : Header}
    (fronts : Fronts begun headed opened header)
    (short : buffer.length < headed.payloadLength header) :
    let watched : Watched :=
      ⟨⟨buffer, headed.payloadLength header, some opened⟩, some begun, some headed⟩
    Answers suite watched next (watched.reader.feed suite next.chunk next.session) := by
  intro watched
  have attuned : watched.reader.attune next.session = watched.reader := Reader.attune_some ..
  rcases Nat.lt_trichotomy (buffer ++ next.chunk).length (headed.payloadLength header) with
    less | whole | long
  · rw [Reader.feed_missing suite _ _ buffer next.chunk _ _ attuned less]
    refine .missing ⟨buffer ++ next.chunk, _, some opened⟩ _ (Nat.sub_pos_of_lt less) ?_
    exact .payload begun headed _ opened header fronts less
  · rw [Reader.feed_payload suite _ buffer next.chunk opened _ whole]
    refine .ended _ _ (isFinal_complete _ _ _) fun message taken => ?_
    exact modes_of_complete tagged fronts (by omega) whole taken
  · rw [Reader.feed_long suite _ _ next.chunk (wanted_lt_of_long attuned short long)]
    refine .refused ?_
    rw [attuned]
    exact .payload begun headed buffer opened header fronts short

/-- Whatever is fed in whatever session, a sound reader answers. -/
theorem answers_feed
    (tagged : suite.OpensTagged)
    (sound : Sound watched) :
    Answers suite watched next (watched.reader.feed suite next.chunk next.session) := by
  cases sound with
  | idle expected =>
    have attuned : Reader.attune ⟨[], expected, none⟩ next.session =
        ⟨[], next.session.headerLength, none⟩ :=
      Reader.IsIdle.attune_eq ⟨rfl, rfl⟩ next.session
    have short : ([] : Bytes).length < next.session.headerLength :=
      Nat.lt_of_lt_of_le (by decide) (headerSize_le_headerLength next.session)
    have kept : Sound ⟨⟨[], next.session.headerLength, none⟩, none, none⟩ := .idle _
    by_cases empty : next.chunk = []
    · rw [empty, Reader.feed_missing suite _ _ [] [] _ _ attuned short]
      refine .missing ⟨[], _, none⟩ _ (Nat.sub_pos_of_lt short) ?_
      simp only [empty]
      exact kept
    · refine answers_header tagged rfl rfl ?_ attuned (by rw [attuned]; exact kept) ?_ short
      · simp [empty]
      · simpa using empty
  | header begun buffer filled short =>
    have attuned : Reader.attune ⟨buffer, begun.headerLength, none⟩ next.session =
        ⟨buffer, begun.headerLength, none⟩ := by
      simp [Reader.attune, filled]
    refine answers_header tagged rfl rfl rfl attuned ?_ (by simp [filled]) short
    rw [attuned]
    exact .header begun buffer filled short
  | payload begun headed buffer opened header fronts short =>
    exact answers_payload tagged fronts short

/-- A call leaves a watched reader sound. -/
theorem sound_feed
    (answers : Answers suite watched next
      (watched.reader.feed suite next.chunk next.session)) :
    Sound (watched.feed suite next) := by
  unfold feed
  generalize watched.reader.feed suite next.chunk next.session = outcome at answers
  cases answers with
  | refused sound => exact sound
  | missing later session more sound => exact sound
  | ended session result final modes =>
    rcases result with failure | message
    · cases failure
      all_goals first | exact final.elim | exact .idle _
    · exact .idle _

theorem sound_after
    (tagged : suite.OpensTagged)
    (sound : Sound watched)
    (course : List Feeding) :
    Sound (watched.after suite course) := by
  induction course generalizing watched with
  | nil => exact sound
  | cons next rest ih => exact ih (sound_feed (answers_feed tagged sound))

end

end Watched

/--
Whatever a new reader was fed in whatever sessions, it has taken no more than it asked for.  The
next call answers the bytes that are still missing, which are some, or refuses the chunk and
keeps what was taken, or ends the frame and leaves the reader idle.  If it ends it with a
message, then all parts of the frame were read in one mode, or the header was completed in clear
between two sealed parts.
-/
theorem feed_across_modes
    (suite : Suite)
    (tagged : suite.OpensTagged)
    (course : List Feeding)
    (next : Feeding) :
    let watched := Watched.start.after suite course
    let (later, session, result) := watched.reader.feed suite next.chunk next.session
    watched.reader = course.foldl
      (fun reader call => (reader.feed suite call.chunk call.session).1) Reader.start ∧
    watched.reader.buffer.length ≤ watched.reader.expected ∧
    (∀ count, result = .error (.missingBytes count) → count = later.wanted ∧ 0 < count) ∧
    (∀ expected actual, result = .error (.excessBytes expected actual) →
      later.buffer = watched.reader.buffer ∧ later.header = watched.reader.header ∧
        session = next.session) ∧
    (IsFinal result → later = Reader.idle session) ∧
    ∀ message, result = .ok message →
      watched.SameModes next ∨ watched.HeadedInClear suite next message := by
  intro watched
  have sound : Watched.Sound watched :=
    Watched.sound_after tagged (.idle 0) course
  have answers : Watched.Answers suite watched next
      (watched.reader.feed suite next.chunk next.session) :=
    Watched.answers_feed tagged sound
  have same := Watched.start.reader_after suite course
  generalize watched.reader.feed suite next.chunk next.session = outcome at answers
  refine ⟨same, sound.length_le, ?_⟩
  cases answers with
  | refused =>
    refine ⟨by rintro _ ⟨⟩, ?_, fun final => final.elim, by rintro _ ⟨⟩⟩
    rintro _ _ -
    exact ⟨Reader.buffer_attune _ _, Reader.header_attune _ _, rfl⟩
  | missing later session more =>
    refine ⟨?_, by rintro _ _ ⟨⟩, fun final => final.elim, by rintro _ ⟨⟩⟩
    rintro _ ⟨⟩
    exact ⟨rfl, more⟩
  | ended session result final modes =>
    refine ⟨?_, ?_, fun _ => rfl, modes⟩
    · rintro _ rfl
      exact final.elim
    · rintro _ _ rfl
      exact final.elim

namespace Mixture

/-- A sealed header is awaited when the session is lost, and its bytes are completed in clear. -/
def course : List Feeding :=
  [⟨encrypted Replay.ours, [0x00]⟩,
    ⟨plain, [0x80, 0x19, 0x16, 0x00, 0x00, 0x07, 0x00, 0x00, 0x00, 0x11] ++
      List.replicate 11 0x61⟩]

/-- Then a header that was sealed for the session is taken for the payload. -/
def last : Feeding :=
  ⟨encrypted Replay.ours, Replay.frame.take sealedHeaderSize⟩

/-- The reader after the bytes of the header. -/
def watched : Watched where
  reader := ⟨[], 22,
    some ([0x00, 0x80, 0x19, 0x16, 0x00, 0x00, 0x07, 0x00, 0x00, 0x00, 0x11] ++
      List.replicate 11 0x61)⟩
  begun := some (encrypted Replay.ours)
  headed := some plain

theorem after_course :
    Watched.start.after ellSwiftChaChaPoly course = watched := by
  rfl

theorem kind_taken :
    (watched.reader.feed ellSwiftChaChaPoly last.chunk last.session).2.2.toOption.map
      Message.kind = some .setExtranoncePrefix := by
  decide +kernel

theorem exists_taken :
    ∃ message, (watched.reader.feed ellSwiftChaChaPoly last.chunk last.session).2.2 = .ok message ∧
      message.kind = .setExtranoncePrefix := by
  have kind := kind_taken
  cases outcome : (watched.reader.feed ellSwiftChaChaPoly last.chunk last.session).2.2 with
  | error failure =>
    rw [outcome] at kind
    cases kind
  | ok message =>
    rw [outcome] at kind
    exact ⟨message, rfl, Option.some.inj kind⟩

theorem not_sameModes : ¬ watched.SameModes last := by
  rintro ⟨-, headed⟩
  cases headed

end Mixture

open Mixture in
/-- The case is there: 16 of the 22 bytes of the payload of this message were never sealed. -/
theorem headed_in_clear_taken :
    let watched := Watched.start.after ellSwiftChaChaPoly course
    watched.begun.map isEncrypted = some true ∧ watched.headed.map isEncrypted = some false ∧
      last.session.isEncrypted = true ∧
      ∃ message,
        (watched.reader.feed ellSwiftChaChaPoly last.chunk last.session).2.2 = .ok message ∧
          message.kind = .setExtranoncePrefix := by
  rw [after_course]
  exact ⟨rfl, rfl, rfl, exists_taken⟩

open Mixture in
theorem feed_across_modes_mixture :
    ∃ message, message.kind = .setExtranoncePrefix ∧
      Mixture.watched.HeadedInClear ellSwiftChaChaPoly last message := by
  have across := feed_across_modes ellSwiftChaChaPoly ellSwiftChaChaPoly_opensTagged course last
  rw [after_course] at across
  obtain ⟨message, taken, kind⟩ := exists_taken
  exact ⟨message, kind, (across.2.2.2.2.2 message taken).resolve_left not_sameModes⟩

end MiningPool.Session
