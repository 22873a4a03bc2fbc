import MiningPool.Proofs.Noise.Counting
import MiningPool.Proofs.Session.Closing
import MiningPool.Proofs.Session.Integrity

/-!
# Counter values of a session

Whatever is written and read in an encrypted session comes down to a run of calls on its two
ciphers.  A call that fails is the last one, because it ends the session.  So along every
course of operations the texts of each direction are sealed and opened at successive counter
values, none of them twice, and the last counter value is never used.

A message is written with counter values for all the parts of its frame, or nothing is
answered and the session ends, or nothing was sealed at all.
-/

namespace MiningPool

open MiningPool.Wire MiningPool.Noise MiningPool.Frame

/-- Suites whose ciphers differ at the last counter value at most. -/
structure Noise.Suite.AgreesBeforeLast (suite other : Suite) : Prop where
  sealText : ∀ key counter associated text,
    counter ≠ lastCounter →
      other.sealText key counter associated text = suite.sealText key counter associated text
  openText? : ∀ key counter associated sealedText,
    counter ≠ lastCounter →
      other.openText? key counter associated sealedText =
        suite.openText? key counter associated sealedText

namespace Session

/-! ## The calls of an operation -/

/-- The calls on the ciphers with which a message is written. -/
def encodeCalls (suite : Suite) (transport : Transport) (message : Message) : List Call :=
  match frameBytes message with
  | .error _ => []
  | .ok frame => transport.stretch suite .sending (sealedParts frame)

/-- The calls with which a payload is opened. -/
def payloadCalls (suite : Suite) (transport : Transport) (bytes : Bytes) : List Call :=
  transport.stretch suite .receiving (Bytes.chunks sealedChunkSize bytes)

/-- The calls with which a whole frame is decoded. -/
def decodeCalls (suite : Suite) (transport : Transport) (bytes : Bytes) : List Call :=
  let front := (encrypted transport).headerLength
  if bytes.length < front then []
  else
    ⟨.receiving, bytes.take front⟩ ::
      match (encrypted transport).readHeader suite (bytes.take front) with
      | (encrypted later, .ok (header, _)) =>
        if bytes.length ≠ front + (encrypted later).payloadLength header then []
        else payloadCalls suite later (bytes.drop front)
      | _ => []

/-- The calls with which a reader takes a chunk. -/
def feedCalls
    (suite : Suite)
    (transport : Transport)
    (reader : Reader)
    (chunk : Bytes) :
    List Call :=
  let reader := reader.attune (encrypted transport)
  let buffer := reader.buffer ++ chunk
  if reader.wanted < chunk.length then []
  else if buffer.length < reader.expected then []
  else
    match reader.header with
    | none => [⟨.receiving, buffer⟩]
    | some _ => payloadCalls suite transport buffer

/-- The calls that an operation on a session makes. -/
def calls (suite : Suite) : Session → Operation → List Call
  | encrypted transport, .encode _ message => encodeCalls suite transport message
  | encrypted transport, .decode _ bytes => decodeCalls suite transport bytes
  | encrypted transport, .feed reader chunk => feedCalls suite transport reader chunk
  | _, _ => []

/-- The calls that a course of operations makes. -/
def callsAll (suite : Suite) : Session → List Operation → List Call
  | _, [] => []
  | session, operation :: rest =>
    session.calls suite operation ++ callsAll suite (session.after suite operation) rest

/-! ## Calls and what becomes of the session -/

/-- What becomes of an encrypted session with calls on its ciphers. -/
inductive Served (suite : Suite) (transport : Transport) : List Call → Session → Prop
  /-- All the calls succeed, and the session goes on with the ciphers that they leave. -/
  | on
      (calls : List Call)
      (flawless : ∀ use ∈ transport.uses suite calls, use.answer.isOk) :
      Served suite transport calls (encrypted (transport.afterCalls suite calls))
  /-- No call but the last one fails, and the session ends. -/
  | closed
      (calls : List Call)
      (flawless : ∀ use ∈ (transport.uses suite calls).dropLast, use.answer.isOk) :
      Served suite transport calls plain

section

variable {suite : Suite} {transport : Transport}

/-- Without a call the session is what it was. -/
theorem Served.nil : Served suite transport [] (encrypted transport) :=
  .on [] fun _ member => nomatch member

/-- After calls that succeed more calls can follow. -/
theorem Served.append
    {first second : List Call}
    {between : Transport}
    {session : Session}
    (earlier : Served suite transport first (encrypted between))
    (later : Served suite between second session) :
    Served suite transport (first ++ second) session := by
  cases earlier with
  | on flawless =>
    cases later with
    | on further =>
      rw [← Transport.afterCalls_append]
      apply Served.on
      intro use member
      rw [Transport.uses_append, List.mem_append] at member
      exact member.elim (flawless use) (further use)
    | closed further =>
      apply Served.closed
      intro use member
      rw [Transport.uses_append] at member
      rcases uses : Transport.uses suite (transport.afterCalls suite first) second with
        _ | ⟨head, tail⟩
      · rw [uses, List.append_nil] at member
        exact flawless use ((List.dropLast_sublist _).subset member)
      · have some : Transport.uses suite (transport.afterCalls suite first) second ≠ [] := by
          rw [uses]
          exact List.cons_ne_nil head tail
        rw [List.dropLast_append_of_ne_nil some, List.mem_append] at member
        exact member.elim (flawless use) (further use)

/-- Only the last call can fail. -/
theorem Served.isOk_of_mem_dropLast
    {calls : List Call}
    {session : Session}
    (served : Served suite transport calls session)
    (use : Use)
    (member : use ∈ (transport.uses suite calls).dropLast) :
    use.answer.isOk := by
  cases served with
  | on flawless => exact flawless use ((List.dropLast_sublist _).subset member)
  | closed flawless => exact flawless use member

/-- A session that is still encrypted has the ciphers that its calls have left. -/
theorem Served.of_encrypted
    {calls : List Call}
    {later : Transport}
    (served : Served suite transport calls (encrypted later)) :
    later = transport.afterCalls suite calls ∧
      ∀ use ∈ transport.uses suite calls, use.answer.isOk := by
  cases served with
  | on flawless => exact ⟨rfl, flawless⟩

/-- A session can also end once all its calls have succeeded. -/
theorem Served.ended
    {calls : List Call}
    {later : Transport}
    (served : Served suite transport calls (encrypted later)) :
    Served suite transport calls plain :=
  .closed calls served.isOk_of_mem_dropLast

/-- One call that succeeds. -/
theorem Served.of_call_eq_ok
    {call : Call}
    {answer : Bytes}
    {later : Transport}
    (done : transport.call suite call = .ok (answer, later)) :
    Served suite transport [call] (encrypted later) := by
  have left : transport.afterCalls suite [call] = later := by
    rw [Transport.afterCalls_cons, Transport.afterCall, done, Transport.afterCalls_nil]
  rw [← left]
  apply Served.on
  intro use member
  obtain rfl : use = transport.use suite call := List.mem_singleton.mp member
  rw [Transport.use, done]
  rfl

/-- One call, and no more after it, when it fails. -/
theorem Served.single (call : Call) : Served suite transport [call] plain :=
  .closed [call] fun _ member => nomatch member

/-- What becomes of a session with texts that are put through a cipher one after the other. -/
theorem served_stretch
    (suite : Suite)
    (transport : Transport)
    (side : Side)
    (texts : List Bytes) :
    Served suite transport (transport.stretch suite side texts)
      (match transport.through suite side texts with
        | .error _ => plain
        | .ok (_, later) => encrypted later) := by
  induction texts generalizing transport with
  | nil => exact .nil
  | cons text rest ih =>
    rcases done : transport.call suite ⟨side, text⟩ with failure | ⟨answer, later⟩
    · simp only [Transport.stretch, Transport.through, done]
      exact .single _
    · have further := ih later
      simp only [Transport.stretch, Transport.through, done]
      rcases others : later.through suite side rest with failure | ⟨answers, final⟩
      · rw [others] at further
        exact (Served.of_call_eq_ok done).append further
      · rw [others] at further
        exact (Served.of_call_eq_ok done).append further

end

/-! ## What becomes of a session with one operation -/

section

variable (suite : Suite) (transport : Transport)

theorem served_encode (message : Message) :
    Served suite transport (encodeCalls suite transport message)
      ((encrypted transport).encode suite message).1 := by
  cases laidOut : frameBytes message with
  | error failure =>
    simp only [encodeCalls, encode, laidOut]
    exact .nil
  | ok frame =>
    have served := served_stretch suite transport .sending (sealedParts frame)
    rw [Transport.through_sending] at served
    simp only [encodeCalls, encode, laidOut]
    rcases done : sealChunks suite (sealedParts frame) transport with failure | ⟨bytes, later⟩
    · rwa [done] at served
    · rwa [done] at served

theorem served_readHeader (bytes : Bytes) :
    Served suite transport [⟨.receiving, bytes⟩]
      ((encrypted transport).readHeader suite bytes).1 := by
  rcases done : transport.decrypt suite bytes with failure | ⟨opened, later⟩
  · simp only [readHeader, done]
    exact .single _
  · have served : Served suite transport [⟨.receiving, bytes⟩] (encrypted later) :=
      .of_call_eq_ok done
    simp only [readHeader, done]
    split <;> exact served

theorem served_complete (opened payload : Bytes) :
    Served suite transport (payloadCalls suite transport payload)
      ((encrypted transport).complete suite opened payload).1 := by
  have served :=
    served_stretch suite transport .receiving (Bytes.chunks sealedChunkSize payload)
  rw [Transport.through_receiving] at served
  rcases done : openChunks suite (Bytes.chunks sealedChunkSize payload) transport with
    failure | ⟨bytes, later⟩
  · simp only [complete, readPayload, done]
    rwa [done] at served
  · simp only [complete, readPayload, done]
    rwa [done] at served

theorem served_decode (bytes : Bytes) :
    Served suite transport (decodeCalls suite transport bytes)
      ((encrypted transport).decode suite bytes).1 := by
  by_cases short : bytes.length < (encrypted transport).headerLength
  · simp only [decodeCalls, decode, short, if_true]
    exact .nil
  · have front := served_readHeader suite transport
      (bytes.take (encrypted transport).headerLength)
    simp only [decodeCalls, decode, short, if_false]
    revert front
    generalize (encrypted transport).readHeader suite _ = outcome
    intro front
    obtain ⟨session, failure | ⟨header, opened⟩⟩ := outcome
    · cases session <;> exact front
    · cases session with
      | encrypted later =>
        dsimp only
        by_cases fits : bytes.length =
          (encrypted transport).headerLength + (encrypted later).payloadLength header
        · rw [if_neg (not_not_intro fits), if_neg (not_not_intro fits)]
          exact front.append (served_complete suite later opened _)
        · rw [if_pos fits, if_pos fits]
          exact front.ended
      | plain =>
        dsimp only
        split <;> exact front
      | initiating | responding => cases front

theorem served_afterHeader (bytes : Bytes) :
    Served suite transport [⟨.receiving, bytes⟩]
      (Reader.afterHeader suite bytes (encrypted transport)).2.1 := by
  have front := served_readHeader suite transport bytes
  simp only [Reader.afterHeader]
  revert front
  generalize (encrypted transport).readHeader suite bytes = outcome
  intro front
  obtain ⟨session, failure | ⟨header, opened⟩⟩ := outcome
  · exact front
  · dsimp only
    split <;> exact front

theorem served_feed (reader : Reader) (chunk : Bytes) :
    Served suite transport (feedCalls suite transport reader chunk)
      (reader.feed suite chunk (encrypted transport)).2.1 := by
  unfold feedCalls Reader.feed
  dsimp only
  split
  · exact .nil
  split
  · exact .nil
  cases (reader.attune (encrypted transport)).header with
  | none => exact served_afterHeader suite transport _
  | some opened =>
    dsimp only
    rw [Reader.afterPayload_eq]
    exact served_complete suite transport opened _

/-- What one operation makes of an encrypted session comes down to its calls. -/
theorem served_run (operation : Operation) :
    Served suite transport ((encrypted transport).calls suite operation)
      ((encrypted transport).after suite operation) := by
  cases operation with
  | encode writer message =>
    rw [after, run_encode]
    exact served_encode suite transport message
  | decode reader bytes => exact served_decode suite transport bytes
  | feed reader chunk => exact served_feed suite transport reader chunk
  | hello | reply | finish => exact .nil

/-! ## Courses of operations -/

@[simp]
theorem callsAll_plain (course : List Operation) : plain.callsAll suite course = [] := by
  induction course with
  | nil => rfl
  | cons operation rest ih =>
    rw [callsAll, after_plain, ih]
    rfl

/-- What a course of operations makes of an encrypted session comes down to its calls. -/
theorem served_course (course : List Operation) :
    Served suite transport ((encrypted transport).callsAll suite course)
      ((encrypted transport).afterAll suite course) := by
  induction course generalizing transport with
  | nil => exact .nil
  | cons operation rest ih =>
    have now := served_run suite transport operation
    rw [callsAll, afterAll_cons]
    generalize (encrypted transport).after suite operation = session at now ⊢
    cases session with
    | encrypted later => exact now.append (ih later)
    | plain =>
      rw [callsAll_plain, List.append_nil, afterAll_plain]
      exact now
    | initiating | responding => cases now

end

/-! ## Writing a message -/

/--
What writing a message makes of an encrypted session, what it answers and the uses that it
makes of the ciphers.
-/
inductive Written
    (suite : Suite)
    (transport : Transport)
    (message : Message) :
    Session × Except SessionError Bytes → List Use → Prop
  /-- The message is too large: nothing is sealed, and the session stays as it is. -/
  | refused
      (large : U24.max < message.size) :
      Written suite transport message (encrypted transport, .error .malformedFrame) []
  /-- All parts of the frame are sealed and answered, each at its counter value. -/
  | whole
      (uses : List Use)
      (fits : message.size ≤ U24.max)
      (room : transport.sending.counter.toNat + message.partCount < UInt64.size)
      (answered :
        uses.map Use.answer =
          (transport.sending.sealAll suite (sealedParts message.clearFrame)).map .ok) :
      Written suite transport message
        (encrypted { transport with sending := transport.sending.after message.partCount },
          .ok (transport.sending.sealAll suite (sealedParts message.clearFrame)).flatten)
        uses
  /-- There are not enough counter values: the session ends without an answer. -/
  | ended
      (uses : List Use)
      (fits : message.size ≤ U24.max)
      (full : UInt64.size ≤ transport.sending.counter.toNat + message.partCount) :
      Written suite transport message (plain, .error .nonceExhausted) uses

theorem written_encode
    (suite : Suite)
    (transport : Transport)
    (message : Message) :
    Written suite transport message ((encrypted transport).encode suite message)
      (transport.uses suite (encodeCalls suite transport message)) := by
  rcases Nat.lt_or_ge U24.max message.size with large | fits
  · rw [encode_of_large _ message large, encodeCalls, frameBytes_of_large message large]
    exact .refused large
  rcases Nat.lt_or_ge (transport.sending.counter.toNat + message.partCount) UInt64.size with
    room | full
  · have enough : (encrypted transport).outward.HasRoom message.partCount := by
      rintro _ ⟨⟩
      exact room
    have parts : transport.sending.counter.toNat + (sealedParts message.clearFrame).length <
        UInt64.size := by
      rwa [length_sealedParts]
    rw [encode_eq _ message fits enough, encodeCalls, frameBytes_of_fits message fits]
    exact .whole _ fits room (transport.answers_stretch_sending suite _ parts)
  · rcases done : sealChunks suite (sealedParts message.clearFrame) transport with
      failure | ⟨bytes, later⟩
    · obtain rfl := Transport.of_sealChunks_eq_error done
      simp only [encode, frameBytes_of_fits message fits, done]
      exact .ended _ fits full
    · obtain ⟨room, -⟩ := of_sealChunks_eq_ok done
      rw [length_sealedParts] at room
      exact absurd room (Nat.not_lt.mpr full)

/-! ## Suites that differ at the last counter value -/

section

variable {suite other : Suite} (agrees : suite.AgreesBeforeLast other)

include agrees

theorem encrypt_eq_of_agrees : Transport.encrypt other = Transport.encrypt suite := by
  funext transport text
  by_cases exhausted : transport.sending.counter = lastCounter
  · simp only [Transport.encrypt, sealNext, exhausted, if_true]
  · simp only [Transport.encrypt, sealNext, exhausted, if_false,
      agrees.sealText _ _ _ _ exhausted]

theorem decrypt_eq_of_agrees : Transport.decrypt other = Transport.decrypt suite := by
  funext transport sealedText
  by_cases exhausted : transport.receiving.counter = lastCounter
  · simp only [Transport.decrypt, openNext, exhausted, if_true]
  · simp only [Transport.decrypt, openNext, exhausted, if_false,
      agrees.openText? _ _ _ _ exhausted]

theorem sealChunks_eq_of_agrees : sealChunks other = sealChunks suite := by
  funext texts transport
  induction texts generalizing transport with
  | nil => rfl
  | cons text rest ih => simp only [sealChunks, encrypt_eq_of_agrees agrees, ih]

theorem openChunks_eq_of_agrees : openChunks other = openChunks suite := by
  funext sealedTexts transport
  induction sealedTexts generalizing transport with
  | nil => rfl
  | cons sealedText rest ih => simp only [openChunks, decrypt_eq_of_agrees agrees, ih]

theorem encode_eq_of_agrees : encode other = encode suite := by
  funext message session
  simp only [encode, sealChunks_eq_of_agrees agrees]

theorem readHeader_eq_of_agrees : readHeader other = readHeader suite := by
  funext bytes session
  cases session with
  | encrypted transport => simp only [readHeader, decrypt_eq_of_agrees agrees]
  | plain | initiating | responding => rfl

theorem readPayload_eq_of_agrees : readPayload other = readPayload suite := by
  funext bytes session
  cases session with
  | encrypted transport => simp only [readPayload, openChunks_eq_of_agrees agrees]
  | plain | initiating | responding => rfl

theorem decode_eq_of_agrees : decode other = decode suite := by
  funext bytes session
  simp only [decode, readHeader_eq_of_agrees agrees, readPayload_eq_of_agrees agrees]

theorem feed_eq_of_agrees : Reader.feed other = Reader.feed suite := by
  funext reader chunk session
  simp only [Reader.feed, Reader.afterHeader, Reader.afterPayload,
    readHeader_eq_of_agrees agrees, readPayload_eq_of_agrees agrees]

/-- Without a handshake the last counter value makes no difference to an operation. -/
theorem run_eq_of_agrees
    {session : Session}
    (settled : session.isEncrypted ∨ session.isPlain)
    (operation : Operation) :
    operation.run other session = operation.run suite session := by
  cases operation with
  | encode writer message => rw [run_encode, run_encode, encode_eq_of_agrees agrees]
  | decode reader bytes =>
    simp only [Operation.run, Reader.decode, decode_eq_of_agrees agrees]
  | feed reader chunk => simp only [Operation.run, feed_eq_of_agrees agrees]
  | hello | reply | finish =>
    cases session with
    | encrypted | plain => rfl
    | initiating | responding => simp [isEncrypted, isPlain] at settled

omit agrees in
/-- Without a handshake there will be none. -/
theorem settled_after
    {session : Session}
    (settled : session.isEncrypted ∨ session.isPlain)
    (operation : Operation) :
    (session.after suite operation).isEncrypted ∨ (session.after suite operation).isPlain := by
  cases session with
  | encrypted transport =>
    have served := served_run suite transport operation
    generalize (encrypted transport).after suite operation = later at served ⊢
    cases served with
    | on => exact .inl rfl
    | closed => exact .inr rfl
  | plain =>
    rw [after_plain]
    exact .inr rfl
  | initiating | responding => simp [isEncrypted, isPlain] at settled

theorem afterAll_eq_of_agrees
    {session : Session}
    (settled : session.isEncrypted ∨ session.isPlain)
    (course : List Operation) :
    session.afterAll other course = session.afterAll suite course ∧
      ((session.afterAll suite course).isEncrypted ∨
        (session.afterAll suite course).isPlain) := by
  induction course generalizing session with
  | nil => exact ⟨rfl, settled⟩
  | cons operation rest ih =>
    have same : session.after other operation = session.after suite operation := by
      rw [after, after, run_eq_of_agrees agrees settled operation]
    rw [afterAll_cons, afterAll_cons, same]
    exact ih (settled_after settled operation)

end

/-! ## Every course of operations -/

/--
In an encrypted session, along every course of operations:

* each cipher takes its counter values one after the other from where it started, no two texts
  are sealed or opened with the same nonce, and the last counter value is never taken; where
  the cipher stands afterwards counts the uses that succeeded, so one that fails takes none;
* each use is answered by the cipher at its counter value, and only the last use can fail;
* while the session is encrypted, a message is written whole, or the session ends without an
  answer, or nothing was sealed;
* what the ciphers would do at the last counter value makes no difference.
-/
theorem counters_once
    (suite : Suite)
    (transport : Transport)
    (course : List Operation) :
    let session := (encrypted transport).afterAll suite course
    let calls := (encrypted transport).callsAll suite course
    let uses := transport.uses suite calls
    (∀ side,
      let start := transport.direction side
      let taken := Use.counters side uses
      taken.map UInt64.toNat = List.range' start.counter.toNat taken.length ∧
      (taken.map nonceBytes).Nodup ∧
      lastCounter ∉ taken ∧
      (transport.afterCalls suite calls).direction side = start.after taken.length) ∧
    (∀ use ∈ uses,
      use.answer =
        use.call.answer suite (transport.direction use.call.side).key use.counter) ∧
    (∀ use ∈ uses.dropLast, use.answer.isOk) ∧
    (∀ later, session = encrypted later →
      later = transport.afterCalls suite calls ∧
      (∀ use ∈ uses, use.answer.isOk) ∧
      ∀ writer message,
        Written suite later message (writer.encode suite message session).2
          (later.uses suite (session.calls suite (.encode writer message)))) ∧
    ∀ other, suite.AgreesBeforeLast other →
      (encrypted transport).afterAll other course = session ∧
      ∀ operation, session.answer other operation = session.answer suite operation := by
  intro session calls uses
  have served : Served suite transport calls session := served_course suite transport course
  refine ⟨?_, transport.answer_of_mem_uses suite calls, served.isOk_of_mem_dropLast, ?_, ?_⟩
  · intro side start taken
    obtain ⟨successive, moved, -⟩ := transport.counted_uses suite calls side
    exact ⟨successive, transport.nodup_nonces suite calls side,
      transport.lastCounter_not_mem_counters suite calls side, moved⟩
  · intro later still
    rw [still] at served ⊢
    obtain ⟨left, flawless⟩ := served.of_encrypted
    refine ⟨left, flawless, ?_⟩
    intro writer message
    rw [writer.encode_eq]
    exact written_encode suite later message
  · intro other agrees
    have begun : (encrypted transport).isEncrypted ∨ (encrypted transport).isPlain := .inl rfl
    obtain ⟨same, settled⟩ := afterAll_eq_of_agrees agrees begun course
    refine ⟨same, ?_⟩
    intro operation
    rw [answer, answer, run_eq_of_agrees agrees settled operation]

/-- A party that has three counter values left before the last one. -/
def nearLast : Transport :=
  ⟨⟨[1, 2, 3], lastCounter - 3⟩, .ofKey [4, 5, 6]⟩

/-- A frame of two parts, after which one counter value is left. -/
theorem after_announced :
    (encrypted nearLast).afterAll ellSwiftChaChaPoly [.encode .start announced] =
      encrypted (nearLast.advance 2 .sending) := by
  decide +kernel

/-- The frame is written whole, and the same message once more ends the session. -/
theorem counters_once_nearLast :
    let suite := ellSwiftChaChaPoly
    let later := nearLast.advance 2 .sending
    let course := [Operation.encode .start announced, .encode .start announced]
    let uses := nearLast.uses suite ((encrypted nearLast).callsAll suite course)
    (Use.counters .sending uses).map UInt64.toNat = List.range' (lastCounter - 3).toNat 3 ∧
      (∀ use ∈ uses.dropLast, use.answer.isOk) ∧
      Written suite later announced (plain, .error .nonceExhausted)
        (later.uses suite (encodeCalls suite later announced)) := by
  intro suite later course uses
  obtain ⟨counted, -, flawless, -⟩ := counters_once suite nearLast course
  obtain ⟨-, -, -, goesOn, -⟩ := counters_once suite nearLast [.encode .start announced]
  have length : (Use.counters .sending uses).length = 3 := by decide +kernel
  have ends : (Writer.start.encode suite announced (encrypted later)).2 =
      (plain, .error .nonceExhausted) := by
    decide +kernel
  refine ⟨?_, flawless, ?_⟩
  · rw [(counted .sending).1, length]
    rfl
  · have written := (goesOn later after_announced).2.2 .start announced
    rw [after_announced, ends] at written
    exact written

end Session

end MiningPool
