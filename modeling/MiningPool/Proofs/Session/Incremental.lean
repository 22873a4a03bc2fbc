import MiningPool.Session.Reader

/-!
# Reading in chunks

A reader that is fed a frame in chunks gives what decoding the whole frame gives, however
the frame is cut.  Nothing is assumed of the cipher, and nothing of the bytes but that
they are as long as their header announces: frames that are not authentic or hold no
message are refused alike.  Only afterwards may a chunk hold bytes of the next frame, so
a chunk that is too long is refused and nothing of it is taken.
-/

namespace MiningPool.Session

open MiningPool.Noise MiningPool.Frame

variable {suite : Suite}

/-! ## Whole frames -/

/--
The bytes are as long as a frame with their header.  Bytes of another length hold no frame at
all and are refused for their length, by `decode_of_not_lengthFits`.
-/
def LengthFits (suite : Suite) (bytes : Bytes) (session : Session) : Prop :=
  session.headerLength ≤ bytes.length ∧
    ∀ later header opened,
      session.readHeader suite (bytes.take session.headerLength) = (later, .ok (header, opened)) →
        bytes.length = session.headerLength + later.payloadLength header

/-- Bytes of another length are refused for their length. -/
theorem decode_of_not_lengthFits
    (bytes : Bytes)
    (session : Session)
    (unfit : ¬ session.LengthFits suite bytes) :
    (session.decode suite bytes).2 = .error .malformedFrame := by
  by_cases short : bytes.length < session.headerLength
  · simp only [decode, short, if_true]
  · simp only [LengthFits, not_and, Classical.not_forall] at unfit
    obtain ⟨later, header, opened, read, differs⟩ := unfit (Nat.le_of_not_lt short)
    simp only [decode, short, if_false, read, ne_eq, differs, not_false_eq_true, if_true]

theorem readPayload_nil (session : Session) :
    session.readPayload suite [] = (session, .ok []) := by
  cases session <;> simp [readPayload, Bytes.chunks, Bytes.chunksOnto, openChunks]

/-- What becomes of a frame whose header was opened. -/
def complete
    (suite : Suite)
    (opened payload : Bytes)
    (session : Session) :
    Session × Except SessionError Message :=
  match session.readPayload suite payload with
  | (session, .error failure) => (session, .error failure)
  | (session, .ok payload) => (session, parseFrame (opened ++ payload))

theorem decode_of_opened
    (session later : Session)
    (header : Header)
    (front opened payload : Bytes)
    (whole : front.length = session.headerLength)
    (read : session.readHeader suite front = (later, .ok (header, opened)))
    (fits : payload.length = later.payloadLength header) :
    session.decode suite (front ++ payload) = later.complete suite opened payload := by
  have long : ¬ (front ++ payload).length < session.headerLength := by
    simp [← whole]
  have length : (front ++ payload).length = session.headerLength + later.payloadLength header := by
    simp [whole, fits]
  simp only [decode, long, if_false]
  rw [← whole, List.take_left, List.drop_left, read, whole]
  simp only [length, ne_eq, not_true_eq_false, if_false]
  rfl

theorem decode_of_failed
    (session later : Session)
    (failure : SessionError)
    (front payload : Bytes)
    (whole : front.length = session.headerLength)
    (read : session.readHeader suite front = (later, .error failure)) :
    session.decode suite (front ++ payload) = (later, .error failure) := by
  have long : ¬ (front ++ payload).length < session.headerLength := by
    simp [← whole]
  simp only [decode, long, if_false]
  rw [← whole, List.take_left, read]

/-- A result that asks for nothing more of the same frame. -/
def IsFinal : Except SessionError Message → Prop
  | .error (.missingBytes _) => False
  | .error (.excessBytes _ _) => False
  | _ => True

theorem isFinal_ofCipher (failure : NoiseError) :
    IsFinal (.error (SessionError.ofCipher failure)) := by
  cases failure <;> trivial

theorem isFinal_parseFrame (bytes : Bytes) : IsFinal (parseFrame bytes) := by
  unfold parseFrame
  repeat' split
  all_goals trivial

theorem isFinal_readHeader
    (session later : Session)
    (bytes : Bytes)
    (failure : SessionError)
    (failed : session.readHeader suite bytes = (later, .error failure)) :
    IsFinal (.error failure) := by
  unfold readHeader at failed
  repeat' split at failed
  all_goals cases failed
  all_goals first | trivial | exact isFinal_ofCipher _

theorem isFinal_complete
    (opened payload : Bytes)
    (session : Session) :
    IsFinal (session.complete suite opened payload).2 := by
  cases read : session.readPayload suite payload with
  | mk later result =>
    cases result with
    | ok payload =>
      simp only [complete, read]
      exact isFinal_parseFrame _
    | error failure =>
      simp only [complete, read]
      unfold readPayload at read
      repeat' split at read
      all_goals cases read
      exact isFinal_ofCipher _

theorem isFinal_decode
    (bytes : Bytes)
    (session : Session) :
    IsFinal (session.decode suite bytes).2 := by
  by_cases short : bytes.length < session.headerLength
  · simp only [decode, short, if_true]
    trivial
  · cases read : session.readHeader suite (bytes.take session.headerLength) with
    | mk later result =>
      cases result with
      | error failure =>
        simp only [decode, short, if_false, read]
        exact isFinal_readHeader _ _ _ _ read
      | ok front =>
        simp only [decode, short, if_false, read]
        split
        · trivial
        · exact isFinal_complete front.2 _ _

namespace Reader

/-! ## Chunks -/

/-- Nothing is being read. -/
def IsIdle (reader : Reader) : Prop :=
  reader.buffer = [] ∧ reader.header = none

/--
The bytes of a frame that chunks offer a reader.  Chunks that are longer than what the
reader asks for are left out; once the frame is complete, all that follows is offered.
-/
def offered (suite : Suite) : Reader → Session → List Bytes → Bytes
  | _, _, [] => []
  | reader, session, chunk :: rest =>
    if (reader.attune session).wanted < chunk.length then
      offered suite (reader.attune session) session rest
    else
      match reader.feed suite chunk session with
      | (reader, session, .error (.missingBytes _)) =>
        chunk ++ offered suite reader session rest
      | _ => chunk ++ rest.flatten

/--
Fed one chunk after the other, the reader refuses those that are too long and asks for
the bytes that are missing, until it gives the outcome and is idle.
-/
inductive Settles
    (suite : Suite)
    (outcome : Session × Except SessionError Message) :
    Reader → Session → List Bytes → Prop
  /-- A chunk is too long, and nothing of it is taken. -/
  | refused
      (reader : Reader)
      (session : Session)
      (chunk : Bytes)
      (rest : List Bytes)
      (long : (reader.attune session).wanted < chunk.length)
      (answer : reader.feed suite chunk session =
        (reader.attune session, session,
          .error (.excessBytes (reader.attune session).wanted chunk.length)))
      (next : Settles suite outcome (reader.attune session) session rest) :
      Settles suite outcome reader session (chunk :: rest)
  /-- A chunk is taken, and bytes are still missing. -/
  | missing
      (reader later : Reader)
      (session between : Session)
      (chunk : Bytes)
      (rest : List Bytes)
      (fits : chunk.length ≤ (reader.attune session).wanted)
      (answer : reader.feed suite chunk session =
        (later, between, .error (.missingBytes later.wanted)))
      (more : 0 < later.wanted)
      (attuned : later.attune between = later)
      (next : Settles suite outcome later between rest) :
      Settles suite outcome reader session (chunk :: rest)
  /-- A chunk completes what the outcome depends on. -/
  | settled
      (reader : Reader)
      (session : Session)
      (chunk : Bytes)
      (rest : List Bytes)
      (fits : chunk.length ≤ (reader.attune session).wanted)
      (answer : reader.feed suite chunk session = (idle outcome.1, outcome)) :
      Settles suite outcome reader session (chunk :: rest)

/-! ## One chunk -/

@[simp]
theorem attune_some
    (session : Session)
    (buffer opened : Bytes)
    (expected : Nat) :
    attune ⟨buffer, expected, some opened⟩ session = ⟨buffer, expected, some opened⟩ := by
  simp [attune]

@[simp]
theorem attune_none
    (session : Session)
    (buffer : Bytes) :
    attune ⟨buffer, session.headerLength, none⟩ session =
      ⟨buffer, session.headerLength, none⟩ := by
  cases buffer <;> simp [attune]

@[simp]
theorem buffer_attune (reader : Reader) (session : Session) :
    (reader.attune session).buffer = reader.buffer := by
  unfold attune
  split <;> rfl

@[simp]
theorem header_attune (reader : Reader) (session : Session) :
    (reader.attune session).header = reader.header := by
  unfold attune
  split <;> rfl

theorem IsIdle.attune_eq
    {reader : Reader}
    (idle : reader.IsIdle)
    (session : Session) :
    reader.attune session = ⟨[], session.headerLength, none⟩ := by
  cases reader with
  | mk buffer expected header =>
    obtain ⟨rfl, rfl⟩ := idle
    simp [attune]

/-- All idle readers go on alike. -/
theorem IsIdle.feed_eq
    (suite : Suite)
    {reader other : Reader}
    (idle : reader.IsIdle)
    (otherIdle : other.IsIdle)
    (chunk : Bytes)
    (session : Session) :
    reader.feed suite chunk session = other.feed suite chunk session := by
  simp only [feed, idle.attune_eq, otherIdle.attune_eq]

theorem feed_long
    (suite : Suite)
    (reader : Reader)
    (session : Session)
    (chunk : Bytes)
    (long : (reader.attune session).wanted < chunk.length) :
    reader.feed suite chunk session =
      (reader.attune session, session,
        .error (.excessBytes (reader.attune session).wanted chunk.length)) := by
  simp only [feed, long, if_true]

theorem feed_missing
    (suite : Suite)
    (reader : Reader)
    (session : Session)
    (buffer chunk : Bytes)
    (expected : Nat)
    (header : Option Bytes)
    (attuned : reader.attune session = ⟨buffer, expected, header⟩)
    (short : (buffer ++ chunk).length < expected) :
    reader.feed suite chunk session =
      (⟨buffer ++ chunk, expected, header⟩, session,
        .error (.missingBytes (expected - (buffer ++ chunk).length))) := by
  have fits : ¬ expected - buffer.length < chunk.length := by
    simp only [List.length_append] at short
    omega
  simp only [feed, attuned, wanted, fits, if_false, short, if_true]

theorem feed_header
    (suite : Suite)
    (reader : Reader)
    (session : Session)
    (buffer chunk : Bytes)
    {expected : Nat}
    (attuned : reader.attune session = ⟨buffer, expected, none⟩)
    (whole : (buffer ++ chunk).length = expected) :
    reader.feed suite chunk session = afterHeader suite (buffer ++ chunk) session := by
  have fits : ¬ expected - buffer.length < chunk.length := by
    simp only [List.length_append] at whole
    omega
  simp only [feed, attuned, wanted, fits, if_false, whole, Nat.lt_irrefl]

theorem afterPayload_eq
    (suite : Suite)
    (session : Session)
    (opened payload : Bytes) :
    afterPayload suite opened payload session =
      (idle (session.complete suite opened payload).1, session.complete suite opened payload) := by
  rcases read : session.readPayload suite payload with ⟨later, _ | _⟩ <;>
    simp only [afterPayload, complete, read]

theorem feed_payload
    (suite : Suite)
    (session : Session)
    (buffer chunk opened : Bytes)
    (expected : Nat)
    (whole : (buffer ++ chunk).length = expected) :
    feed suite ⟨buffer, expected, some opened⟩ chunk session =
      (idle (session.complete suite opened (buffer ++ chunk)).1,
        session.complete suite opened (buffer ++ chunk)) := by
  have fits : ¬ expected - buffer.length < chunk.length := by
    simp only [List.length_append] at whole
    omega
  simp only [feed, attune_some, wanted, fits, if_false, whole, Nat.lt_irrefl, afterPayload_eq]

/-! ## All chunks -/

theorem offered_long
    (suite : Suite)
    (reader : Reader)
    (session : Session)
    (chunk : Bytes)
    (rest : List Bytes)
    (long : (reader.attune session).wanted < chunk.length) :
    reader.offered suite session (chunk :: rest) =
      (reader.attune session).offered suite session rest := by
  simp only [offered, long, if_true]

theorem offered_missing
    (suite : Suite)
    (reader later : Reader)
    (session between : Session)
    (chunk : Bytes)
    (rest : List Bytes)
    (count : Nat)
    (fits : chunk.length ≤ (reader.attune session).wanted)
    (answer : reader.feed suite chunk session = (later, between, .error (.missingBytes count))) :
    reader.offered suite session (chunk :: rest) =
      chunk ++ later.offered suite between rest := by
  simp only [offered, Nat.not_lt.mpr fits, if_false, answer]

theorem offered_final
    (suite : Suite)
    (reader later : Reader)
    (session between : Session)
    (chunk : Bytes)
    (rest : List Bytes)
    (result : Except SessionError Message)
    (final : IsFinal result)
    (fits : chunk.length ≤ (reader.attune session).wanted)
    (answer : reader.feed suite chunk session = (later, between, result)) :
    reader.offered suite session (chunk :: rest) = chunk ++ rest.flatten := by
  simp only [offered, Nat.not_lt.mpr fits, if_false, answer]
  split
  next stop =>
    cases stop
    exact final.elim
  next => rfl

/-- While the payload is read, the outcome is that of the whole payload. -/
theorem settles_payload
    (session : Session)
    (opened payload buffer : Bytes)
    (chunks : List Bytes)
    (started : buffer.length < payload.length)
    (cut : buffer ++ offered suite ⟨buffer, payload.length, some opened⟩ session chunks =
      payload) :
    Settles suite (session.complete suite opened payload)
      ⟨buffer, payload.length, some opened⟩ session chunks := by
  induction chunks generalizing buffer with
  | nil =>
    rw [offered, List.append_nil] at cut
    exact absurd started (cut ▸ Nat.lt_irrefl _)
  | cons chunk rest ih =>
    let reader : Reader := ⟨buffer, payload.length, some opened⟩
    have attuned : reader.attune session = reader :=
      attune_some session buffer opened payload.length
    rcases Nat.lt_or_ge (reader.attune session).wanted chunk.length with long | fits
    · rw [offered_long suite reader session chunk rest long, attuned] at cut
      refine .refused reader session chunk rest long (feed_long suite reader session chunk long) ?_
      rw [attuned]
      exact ih buffer started cut
    · have room : chunk.length ≤ payload.length - buffer.length := by
        rwa [attuned] at fits
      by_cases short : (buffer ++ chunk).length < payload.length
      · have answer := feed_missing suite reader session buffer chunk _ _ attuned short
        rw [offered_missing suite reader _ session session chunk rest _ fits answer,
          ← List.append_assoc] at cut
        refine .missing reader _ session session chunk rest fits answer ?_ (attune_some ..)
          (ih _ short cut)
        simp only [wanted]
        omega
      · have whole : (buffer ++ chunk).length = payload.length := by
          rw [List.length_append] at short ⊢
          omega
        have answer := feed_payload suite session buffer chunk opened payload.length whole
        rw [offered_final suite reader _ session _ chunk rest _ (isFinal_complete _ _ _) fits
          answer, ← List.append_assoc] at cut
        have all : buffer ++ chunk = payload :=
          (List.append_inj (cut.trans (List.append_nil payload).symm) whole).1
        rw [all] at answer
        exact .settled reader session chunk rest fits answer

/-- Once the header is complete, the outcome is that of the whole frame. -/
theorem settles_opened
    (session : Session)
    (bytes : Bytes)
    (fitting : session.LengthFits suite bytes)
    (reader : Reader)
    (chunk : Bytes)
    (rest : List Bytes)
    (buffer : Bytes)
    (fits : chunk.length ≤ (reader.attune session).wanted)
    (answer : reader.feed suite chunk session = afterHeader suite (buffer ++ chunk) session)
    (whole : (buffer ++ chunk).length = session.headerLength)
    (cut : buffer ++ reader.offered suite session (chunk :: rest) = bytes) :
    Settles suite (session.decode suite bytes) reader session (chunk :: rest) := by
  rcases read : session.readHeader suite (buffer ++ chunk) with ⟨later, failure | ⟨header, opened⟩⟩
  · simp only [afterHeader, read] at answer
    rw [offered_final suite reader _ session later chunk rest _
      (isFinal_readHeader _ _ _ _ read) fits answer, ← List.append_assoc] at cut
    rw [← cut, decode_of_failed session later failure _ _ whole read]
    exact .settled reader session chunk rest fits answer
  · simp only [afterHeader, read] at answer
    have length (payload : Bytes) (joined : buffer ++ chunk ++ payload = bytes) :
        payload.length = later.payloadLength header := by
      have announced := fitting.2 later header opened
      rw [← joined, ← whole, List.take_left, List.length_append] at announced
      exact Nat.add_left_cancel (announced read)
    by_cases bare : later.payloadLength header = 0
    · simp only [bare, if_true] at answer
      rw [offered_final suite reader _ session later chunk rest _ (isFinal_parseFrame _) fits
        answer, ← List.append_assoc] at cut
      have nothing := List.length_eq_zero_iff.mp ((length _ cut).trans bare)
      rw [← cut, decode_of_opened session later header _ opened _ whole read (length _ cut),
        nothing]
      simp only [complete, readPayload_nil, List.append_nil]
      exact .settled reader session chunk rest fits answer
    · simp only [bare, if_false] at answer
      rw [offered_missing suite reader _ session later chunk rest _ fits answer,
        ← List.append_assoc] at cut
      have size := length _ cut
      rw [← cut, decode_of_opened session later header _ opened _ whole read size]
      generalize joined : offered suite ⟨[], later.payloadLength header, some opened⟩ later rest =
        payload at *
      rw [← size] at bare answer joined
      refine .missing reader _ session later chunk rest fits answer ?_ (attune_some ..) ?_
      · exact Nat.pos_of_ne_zero bare
      · exact settles_payload later opened payload [] rest (Nat.pos_of_ne_zero bare) joined

/-- While the header is read, the outcome is that of the whole frame. -/
theorem settles_header
    (session : Session)
    (bytes : Bytes)
    (fitting : session.LengthFits suite bytes)
    (reader : Reader)
    (buffer : Bytes)
    (chunks : List Bytes)
    (attuned : reader.attune session = ⟨buffer, session.headerLength, none⟩)
    (started : buffer.length < session.headerLength)
    (cut : buffer ++ reader.offered suite session chunks = bytes) :
    Settles suite (session.decode suite bytes) reader session chunks := by
  induction chunks generalizing reader buffer with
  | nil =>
    rw [offered, List.append_nil] at cut
    exact absurd started (cut ▸ Nat.not_lt.mpr fitting.1)
  | cons chunk rest ih =>
    rcases Nat.lt_or_ge (reader.attune session).wanted chunk.length with long | fits
    · rw [offered_long suite reader session chunk rest long] at cut
      refine .refused reader session chunk rest long (feed_long suite reader session chunk long) ?_
      rw [attuned] at cut ⊢
      exact ih _ buffer (attune_none session buffer) started cut
    · have room : chunk.length ≤ session.headerLength - buffer.length := by
        rwa [attuned] at fits
      by_cases short : (buffer ++ chunk).length < session.headerLength
      · have answer := feed_missing suite reader session buffer chunk _ _ attuned short
        rw [offered_missing suite reader _ session session chunk rest _ fits answer,
          ← List.append_assoc] at cut
        refine .missing reader _ session session chunk rest fits answer ?_ (attune_none ..)
          (ih _ _ (attune_none ..) short cut)
        simp only [wanted]
        omega
      · have whole : (buffer ++ chunk).length = session.headerLength := by
          rw [List.length_append] at short ⊢
          omega
        have answer := feed_header suite reader session buffer chunk attuned whole
        exact settles_opened session bytes fitting reader chunk rest buffer fits answer whole cut

/--
However a frame is cut into chunks, an idle reader that is fed with them asks for what is
missing and refuses what is too much until it answers what decoding the whole frame
answers; the session is then the one that decoding leaves, and the reader goes on like a
new one.
-/
theorem settles_decode
    (suite : Suite)
    (session : Session)
    (bytes : Bytes)
    (fitting : session.LengthFits suite bytes)
    (reader : Reader)
    (ready : reader.IsIdle)
    (chunks : List Bytes)
    (cut : reader.offered suite session chunks = bytes) :
    Settles suite (session.decode suite bytes) reader session chunks ∧
    IsFinal (session.decode suite bytes).2 ∧
    ∀ next chunk,
      (idle (session.decode suite bytes).1).feed suite chunk next =
        start.feed suite chunk next := by
  refine ⟨?_, isFinal_decode bytes session, ?_⟩
  · have positive : 0 < session.headerLength := by
      rw [headerLength]
      split <;> decide
    exact settles_header session bytes fitting reader [] chunks (ready.attune_eq session) positive
      cut
  · intro next chunk
    exact IsIdle.feed_eq suite ⟨rfl, rfl⟩ ⟨rfl, rfl⟩ chunk next

/-- The frame of a message in clear text. -/
def announcement : Bytes :=
  [0x00, 0x80, 0x03, 0x04, 0x00, 0x00, 0x07, 0x00, 0x00, 0x00]

/-- The second piece is longer than what is left of the header. -/
def pieces : List Bytes :=
  [[0x00, 0x80, 0x03], [0x04, 0x00, 0x00, 0x07], [0x04, 0x00, 0x00], [], [0x07, 0x00],
    [0x00, 0x00]]

theorem settles_decode_announcement :
    Settles ellSwiftChaChaPoly (plain.decode ellSwiftChaChaPoly announcement) start plain
      pieces := by
  have fitting : plain.LengthFits ellSwiftChaChaPoly announcement := by
    refine ⟨by decide, ?_⟩
    intro later header opened read
    have front : plain.readHeader ellSwiftChaChaPoly (announcement.take plain.headerLength) =
        (plain, .ok (⟨0x8000, 0x03, ⟨4, by decide⟩⟩, announcement.take 6)) := by
      rfl
    obtain ⟨rfl, rfl, rfl⟩ : _ ∧ _ ∧ _ := by simpa using front.symm.trans read
    rfl
  exact (settles_decode ellSwiftChaChaPoly plain announcement fitting start ⟨rfl, rfl⟩ pieces
    rfl).1

end Reader

end MiningPool.Session
