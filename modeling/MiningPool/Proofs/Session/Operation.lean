import MiningPool.Proofs.Session.Passage

/-!
# Operations on a session

Messages are written and read over a session and the steps of a handshake are taken, in any
order and with any writers and readers.  What one operation can make of a session is said
once, by `Turn`; what holds along every course of operations is derived from it.
-/

namespace MiningPool.Session

open MiningPool.Noise

/-- What can be asked of a session. -/
inductive Operation
  | encode (writer : Writer) (message : Message)
  | decode (reader : Reader) (bytes : Bytes)
  | feed (reader : Reader) (chunk : Bytes)
  | hello
  | reply (message : Bytes) (now : UInt32) (stream : Digest.Stream)
  | finish (message : Bytes) (now : UInt32)

/-- What is answered. -/
inductive Answer
  | sent (result : Except SessionError Bytes)
  | received (result : Except SessionError Message)
  | done (result : Except SessionError Unit)

/-- Why an operation was refused, if it was. -/
def Answer.failure? : Answer → Option SessionError
  | sent (.error failure) | received (.error failure) | done (.error failure) => some failure
  | _ => none

/-- Carry out an operation. -/
def Operation.run (suite : Suite) (session : Session) : Operation → Session × Answer
  | encode writer message =>
    let (_, session, result) := writer.encode suite message session
    (session, .sent result)
  | decode reader bytes =>
    let (_, session, result) := reader.decode suite bytes session
    (session, .received result)
  | feed reader chunk =>
    let (_, session, result) := reader.feed suite chunk session
    (session, .received result)
  | hello =>
    let (session, result) := session.hello suite
    (session, .sent result)
  | reply message now stream =>
    let (session, result) := session.reply suite message now stream
    (session, .sent result)
  | finish message now =>
    let (session, result) := session.finish suite message now
    (session, .done result)

/-- The session after an operation. -/
def after (suite : Suite) (session : Session) (operation : Operation) : Session :=
  (operation.run suite session).1

/-- What an operation is answered. -/
def answer (suite : Suite) (session : Session) (operation : Operation) : Answer :=
  (operation.run suite session).2

/-- The session after a course of operations. -/
def afterAll (suite : Suite) (session : Session) (course : List Operation) : Session :=
  course.foldl (after suite) session

/-- What was written before with a writer makes no difference. -/
theorem run_encode
    (suite : Suite)
    (session : Session)
    (writer : Writer)
    (message : Message) :
    Operation.run suite session (.encode writer message) =
      ((session.encode suite message).1, .sent (session.encode suite message).2) := by
  rw [← writer.encode_eq]
  rfl

/-- What one operation can make of a session. -/
inductive Turn (suite : Suite) : Session → Operation → Session → Answer → Prop
  /-- The session stays what it is. -/
  | kept
      (session : Session)
      (operation : Operation)
      (answer : Answer) :
      Turn suite session operation session answer
  /-- An encrypted session goes on with the same keys. -/
  | advanced
      (transport later : Transport)
      (operation : Operation)
      (answer : Answer)
      (same : transport.SameKeys later) :
      Turn suite (encrypted transport) operation (encrypted later) answer
  /-- An encrypted session ends. -/
  | ended
      (transport : Transport)
      (operation : Operation)
      (answer : Answer)
      (failure : SessionError)
      (ending : failure ∈ endings)
      (refused : answer.failure? = some failure) :
      Turn suite (encrypted transport) operation plain answer
  /-- The handshake of an initiator goes on; the key it drew and whom it trusts stay. -/
  | initiated
      (initiator : Initiator)
      (symmetric : Symmetric)
      (operation : Operation)
      (answer : Answer) :
      Turn suite (initiating initiator) operation (initiating { initiator with symmetric }) answer
  /-- An initiator admits a responder. -/
  | admitted
      (initiator later : Initiator)
      (message : Bytes)
      (now : UInt32)
      (transport : Transport)
      (length : message.length = replySize)
      (finished : initiator.finish suite message now = (later, .ok transport)) :
      Turn suite (initiating initiator) (.finish message now) (encrypted transport)
        (.done (.ok ()))
  /-- The handshake of a responder goes on. -/
  | responded
      (responder later : Responder)
      (operation : Operation)
      (answer : Answer) :
      Turn suite (responding responder) operation (responding later) answer
  /-- A responder has answered. -/
  | replied
      (responder later : Responder)
      (message reply : Bytes)
      (now : UInt32)
      (stream : Digest.Stream)
      (transport : Transport)
      (length : message.length = encodingSize)
      (replied : responder.reply suite message now stream = (later, .ok (reply, transport))) :
      Turn suite (responding responder) (.reply message now stream) (encrypted transport)
        (.sent (.ok reply))

section

variable {suite : Suite} {session : Session}

/-- What reading or writing makes of an encrypted session is a turn. -/
theorem Turn.of_passage
    {α : Type}
    {transport : Transport}
    {outcome : Session × Except SessionError α}
    (passage : Passage transport outcome)
    (operation : Operation)
    (wrap : Except SessionError α → Answer)
    (wraps : ∀ failure, (wrap (.error failure)).failure? = some failure) :
    Turn suite (encrypted transport) operation outcome.1 (wrap outcome.2) := by
  cases passage with
  | advanced later result same => exact .advanced transport later operation _ same
  | ended failure ending => exact .ended transport operation _ failure ending (wraps failure)

/-- Outside of an encrypted session nothing that is read or written makes a difference. -/
theorem Turn.of_eq
    {later : Session}
    (same : later = session)
    (operation : Operation)
    (answer : Answer) :
    Turn suite session operation later answer := by
  rw [same]
  exact .kept session operation answer

end

theorem turn_run
    (suite : Suite)
    (session : Session)
    (operation : Operation) :
    Turn suite session operation (session.after suite operation)
      (session.answer suite operation) := by
  cases operation with
  | encode writer message =>
    rw [after, answer, run_encode]
    cases session with
    | encrypted transport =>
      exact .of_passage (passage_encode suite transport message) _ .sent fun _ => rfl
    | plain | initiating | responding => exact .of_eq (encode_of_clear suite rfl message) _ _
  | decode reader bytes =>
    cases session with
    | encrypted transport =>
      exact .of_passage (passage_decode suite transport bytes) _ .received fun _ => rfl
    | plain | initiating | responding =>
      exact .of_eq (congrArg Prod.fst (decode_of_clear suite rfl bytes)) _ _
  | feed reader chunk =>
    cases session with
    | encrypted transport =>
      exact .of_passage (passage_feed suite transport reader chunk) _ .received fun _ => rfl
    | plain | initiating | responding =>
      exact .of_eq (feed_of_clear suite rfl reader chunk).1 _ _
  | hello =>
    cases session with
    | initiating initiator =>
      rcases outcome : initiator.hello suite with ⟨later, result⟩
      obtain ⟨symmetric, rfl⟩ : ∃ symmetric, later = { initiator with symmetric } :=
        ⟨_, (congrArg Prod.fst outcome).symm⟩
      cases result with
      | error failure =>
        simp only [after, answer, Operation.run, Session.hello, outcome]
        exact .initiated initiator symmetric _ _
      | ok message =>
        simp only [after, answer, Operation.run, Session.hello, outcome]
        exact .initiated initiator symmetric _ _
    | plain | responding | encrypted => exact .kept _ _ _
  | reply message now stream =>
    cases session with
    | responding responder =>
      by_cases length : message.length = encodingSize
      · rcases outcome : responder.reply suite message now stream with
          ⟨later, failure | ⟨reply, transport⟩⟩
        · simp only [after, answer, Operation.run, Session.reply, length, ne_eq,
            not_true_eq_false, if_false, outcome]
          exact .responded responder later _ _
        · simp only [after, answer, Operation.run, Session.reply, length, ne_eq,
            not_true_eq_false, if_false, outcome]
          exact .replied responder later message reply now stream transport length outcome
      · simp only [after, answer, Operation.run, Session.reply, length, ne_eq,
          not_false_eq_true, if_true]
        exact .kept _ _ _
    | plain | initiating | encrypted => exact .kept _ _ _
  | finish message now =>
    cases session with
    | initiating initiator =>
      by_cases length : message.length = replySize
      · rcases outcome : initiator.finish suite message now with ⟨later, failure | transport⟩
        · simp only [after, answer, Operation.run, Session.finish, length, ne_eq,
            not_true_eq_false, if_false, outcome]
          obtain ⟨symmetric, rfl⟩ : ∃ symmetric, later = { initiator with symmetric } :=
            ⟨_, (congrArg Prod.fst outcome).symm⟩
          exact .initiated initiator symmetric _ _
        · simp only [after, answer, Operation.run, Session.finish, length, ne_eq,
            not_true_eq_false, if_false, outcome]
          exact .admitted initiator later message now transport length outcome
      · simp only [after, answer, Operation.run, Session.finish, length, ne_eq,
          not_false_eq_true, if_true]
        exact .kept _ _ _
    | plain | responding | encrypted => exact .kept _ _ _

/-! ## Courses of operations -/

section

variable (suite : Suite) (session : Session)

@[simp]
theorem afterAll_nil : session.afterAll suite [] = session :=
  rfl

@[simp]
theorem afterAll_cons
    (operation : Operation)
    (course : List Operation) :
    session.afterAll suite (operation :: course) =
      (session.after suite operation).afterAll suite course :=
  rfl

theorem afterAll_append (first second : List Operation) :
    session.afterAll suite (first ++ second) =
      (session.afterAll suite first).afterAll suite second :=
  List.foldl_append

/-- Without a handshake or a cipher a session stays so. -/
theorem after_plain (operation : Operation) : plain.after suite operation = plain := by
  have turn := turn_run suite plain operation
  generalize plain.after suite operation = later at turn ⊢
  cases turn
  rfl

theorem afterAll_plain (course : List Operation) : plain.afterAll suite course = plain := by
  induction course with
  | nil => rfl
  | cons operation rest ih => rw [afterAll_cons, after_plain, ih]

end

end MiningPool.Session
