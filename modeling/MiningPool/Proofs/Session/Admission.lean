import MiningPool.Proofs.Noise.Agreement
import MiningPool.Proofs.Session.Operation

/-!
# Sessions that an initiator starts

A session that was started with a trusted authority is encrypted only if an answer was taken
that holds a static key and a certificate of this authority for it, valid at the time.  The
secret agreed with that static key is in the keys of the session for as long as it lasts.
An answer of another length and the step of the other role change nothing.
-/

namespace MiningPool

open MiningPool.Digest (keyed)
open MiningPool.Noise

namespace Noise.Initiator

/-- An answer is that of a responder for which an authority vouches at the time. -/
structure Admits
    (suite : Suite)
    (initiator : Initiator)
    (authority reply : Bytes)
    (now : UInt32)
    (theirStatic certificate : Bytes) :
    Prop where
  length : reply.length = replySize
  reads : initiator.Reads suite reply theirStatic certificate
  signed :
    suite.verify authority ((Certificate.ofBytes certificate).digest (suite.decode theirStatic))
      (Certificate.ofBytes certificate).signature = true
  current : (Certificate.ofBytes certificate).IsCurrent now

/-- The keys of a session with a responder: the secret with its static key is mixed in last. -/
def transportKeys
    (suite : Suite)
    (initiator : Initiator)
    (reply theirStatic : Bytes) :
    Bytes × Bytes :=
  let extracted :=
    keyed (initiator.heard suite reply).chainingKey (initiator.secretWith suite theirStatic)
  let chainingKey := keyed extracted [1]
  let final := keyed chainingKey []
  let first := keyed final [1]
  (first, keyed final (first ++ [2]))

theorem split_concluded
    (suite : Suite)
    (initiator : Initiator)
    (reply theirStatic : Bytes) :
    (initiator.concluded suite reply theirStatic).split =
      initiator.transportKeys suite reply theirStatic :=
  rfl

/-- An initiator is left with ciphers only by the answer of a responder that it admits. -/
theorem exists_admits
    {suite : Suite}
    {initiator later : Initiator}
    {authority reply : Bytes}
    {now : UInt32}
    {transport : Transport}
    (trusted : initiator.authority = some authority)
    (length : reply.length = replySize)
    (finished : initiator.finish suite reply now = (later, .ok transport)) :
    ∃ theirStatic certificate,
      initiator.Admits suite authority reply now theirStatic certificate ∧
      (transport.sending.key, transport.receiving.key) =
        initiator.transportKeys suite reply theirStatic := by
  obtain ⟨theirStatic, certificate, reads, checked, rfl⟩ := reads_of_finish finished
  rw [trusted, Certificate.check_some_eq_ok_iff] at checked
  exact ⟨theirStatic, certificate, ⟨length, reads, checked.1, checked.2⟩,
    initiator.split_concluded suite reply theirStatic⟩

end Noise.Initiator

namespace Session

variable {suite : Suite} {authority : Bytes} {started : Session}

/-- A course of operations holds the step that led to a pair of transport keys. -/
def AdmittedIn
    (suite : Suite)
    (authority : Bytes)
    (started : Session)
    (course : List Operation)
    (transport : Transport) :
    Prop :=
  ∃ before reply now rest initiator theirStatic certificate,
    course = before ++ .finish reply now :: rest ∧
    started.afterAll suite before = initiating initiator ∧
    initiator.Admits suite authority reply now theirStatic certificate ∧
    (transport.sending.key, transport.receiving.key) =
      initiator.transportKeys suite reply theirStatic

/-- What a course of operations can have made of a session that an initiator started. -/
def Standing
    (suite : Suite)
    (authority : Bytes)
    (started : Session)
    (course : List Operation) :
    Session → Prop
  | plain => True
  | initiating initiator => initiator.authority = some authority
  | responding _ => False
  | encrypted transport => AdmittedIn suite authority started course transport

theorem AdmittedIn.concat
    {course : List Operation}
    {transport later : Transport}
    (admitted : AdmittedIn suite authority started course transport)
    (same : transport.SameKeys later)
    (operation : Operation) :
    AdmittedIn suite authority started (course ++ [operation]) later := by
  obtain ⟨before, reply, now, rest, initiator, theirStatic, certificate, split, reached, admits,
    keys⟩ := admitted
  refine ⟨before, reply, now, rest ++ [operation], initiator, theirStatic, certificate, ?_, reached,
    admits, ?_⟩
  · rw [split, List.append_assoc, List.cons_append]
  · rw [← keys, same.1, same.2]

/-- One more operation keeps the standing of a session. -/
theorem Standing.concat
    {course : List Operation}
    (standing : Standing suite authority started course (started.afterAll suite course))
    (operation : Operation) :
    Standing suite authority started (course ++ [operation])
      (started.afterAll suite (course ++ [operation])) := by
  have turn := turn_run suite (started.afterAll suite course) operation
  rw [afterAll_append, afterAll_cons, afterAll_nil]
  generalize reached : started.afterAll suite course = session at standing turn
  generalize session.after suite operation = later at turn ⊢
  generalize session.answer suite operation = answer at turn
  cases turn with
  | kept =>
    cases session with
    | encrypted transport => exact AdmittedIn.concat standing ⟨rfl, rfl⟩ operation
    | plain | initiating | responding => exact standing
  | advanced transport later _ _ same => exact AdmittedIn.concat standing same operation
  | ended => trivial
  | initiated => exact standing
  | admitted initiator _ reply now transport length finished =>
    obtain ⟨theirStatic, certificate, admits, keys⟩ :=
      Initiator.exists_admits standing length finished
    exact ⟨course, reply, now, [], initiator, theirStatic, certificate, rfl, reached, admits, keys⟩
  | responded => exact standing
  | replied => exact standing.elim

theorem Standing.append
    {course : List Operation}
    (standing : Standing suite authority started course (started.afterAll suite course))
    (more : List Operation) :
    Standing suite authority started (course ++ more)
      (started.afterAll suite (course ++ more)) := by
  induction more generalizing course with
  | nil => rwa [List.append_nil]
  | cons operation rest ih =>
    have further := ih (standing.concat operation)
    rwa [List.append_assoc, List.singleton_append] at further

/-- Every course of operations leads to a session of that standing. -/
theorem standing_afterAll
    {stream : Digest.Stream}
    (start : Session.initiate suite authority stream = .ok started)
    (course : List Operation) :
    Standing suite authority started course (started.afterAll suite course) := by
  have fresh : Standing suite authority started [] started := by
    unfold Session.initiate at start
    split at start
    · cases start
    split at start
    · cases start
    · cases start
      rfl
  exact fresh.append course

/-- An answer of another length changes nothing, and who does not wait for one ignores it. -/
theorem after_finish_of_length_ne
    (session : Session)
    (reply : Bytes)
    (now : UInt32)
    (different : reply.length ≠ replySize) :
    session.after suite (.finish reply now) = session := by
  cases session with
  | initiating initiator =>
    simp only [after, Operation.run, Session.finish, ne_eq, different, not_false_eq_true, if_true]
  | plain | responding | encrypted => rfl

/-- Only a responder answers an ephemeral key. -/
theorem Standing.after_reply
    {course : List Operation}
    {session : Session}
    (standing : Standing suite authority started course session)
    (message : Bytes)
    (now : UInt32)
    (stream : Digest.Stream) :
    session.after suite (.reply message now stream) = session := by
  cases session with
  | responding responder => exact standing.elim
  | plain | initiating | encrypted => rfl

/-- The operation that makes a session encrypted takes the answer of an admitted responder. -/
theorem Standing.admits_of_encrypted
    {course : List Operation}
    {session : Session}
    (standing : Standing suite authority started course session)
    (operation : Operation)
    (clear : session.isEncrypted = false)
    (encrypted : (session.after suite operation).isEncrypted = true) :
    ∃ reply now initiator theirStatic certificate,
      operation = .finish reply now ∧ session = initiating initiator ∧
      initiator.Admits suite authority reply now theirStatic certificate := by
  have turn := turn_run suite session operation
  generalize session.after suite operation = later at turn encrypted
  generalize session.answer suite operation = answer at turn
  cases turn with
  | kept =>
    rw [clear] at encrypted
    cases encrypted
  | advanced => cases clear
  | ended => cases clear
  | initiated => cases encrypted
  | admitted initiator _ reply now transport length finished =>
    obtain ⟨theirStatic, certificate, admits, -⟩ :=
      Initiator.exists_admits standing length finished
    exact ⟨reply, now, initiator, theirStatic, certificate, rfl, rfl, admits⟩
  | responded => cases encrypted
  | replied => exact standing.elim

/--
A session that was started with a trusted authority is encrypted, after any course of
operations, only with keys that were agreed with a responder for whose static key this
authority vouched at the time.  Only the operation that takes the answer of such a responder
makes it encrypted; answers of another length and the step of the other role leave it as it
is, and so do the steps of an initiator once its handshake is over.
-/
theorem encrypted_only_with_admitted
    (suite : Suite)
    (authority : Bytes)
    (stream : Digest.Stream)
    (started : Session)
    (start : Session.initiate suite authority stream = .ok started)
    (course : List Operation) :
    let session := started.afterAll suite course
    (∀ transport, session = encrypted transport →
      ∃ before reply now rest initiator theirStatic certificate,
        course = before ++ .finish reply now :: rest ∧
        started.afterAll suite before = initiating initiator ∧
        initiator.Admits suite authority reply now theirStatic certificate ∧
        (transport.sending.key, transport.receiving.key) =
          initiator.transportKeys suite reply theirStatic) ∧
    (∀ operation, session.isEncrypted = false →
      (session.after suite operation).isEncrypted = true →
        ∃ reply now initiator theirStatic certificate,
          operation = .finish reply now ∧ session = initiating initiator ∧
          initiator.Admits suite authority reply now theirStatic certificate) ∧
    (∀ reply now, reply.length ≠ replySize →
      session.after suite (.finish reply now) = session) ∧
    (∀ message now stream, session.after suite (.reply message now stream) = session) ∧
    ((∀ initiator, session ≠ initiating initiator) →
      session.after suite .hello = session ∧
      ∀ reply now, session.after suite (.finish reply now) = session) := by
  intro session
  have standing : Standing suite authority started course session :=
    standing_afterAll start course
  refine ⟨?_, standing.admits_of_encrypted, session.after_finish_of_length_ne,
    standing.after_reply, ?_⟩
  · intro transport reached
    rw [reached] at standing
    exact standing
  · intro elsewhere
    cases reached : session with
    | initiating initiator => exact absurd reached (elsewhere initiator)
    | plain | responding | encrypted => exact ⟨rfl, fun _ _ => rfl⟩

/-- The answer of a responder that is trusted makes the sessions of both sides encrypted. -/
theorem exists_encrypted
    {suite : Suite}
    {initiator : Initiator}
    {responder : Responder}
    (sealing : suite.Sealing)
    (fresh : initiator.symmetric = .start)
    (waiting : responder.symmetric = .start)
    (now time : UInt32)
    (stream : Digest.Stream) :
    let hello := suite.encode initiator.ephemeral
    let answering := responder.answering suite hello stream
    suite.Serves initiator answering (answering.certificate suite now (suite.drawSecret stream).2) →
      initiator.authority = some (suite.publicKey responder.authority) →
      InSpan now responder.validity time →
        ∃ reply ours theirs,
          (responding responder).reply suite hello now stream = (encrypted theirs, .ok reply) ∧
          (initiating initiator).afterAll suite [.hello, .finish reply time] = encrypted ours := by
  intro hello answering serves trusted inside
  obtain ⟨reply, greeted, final, greeting, replied, length, finished⟩ :=
    exists_handshake sealing fresh waiting now time stream serves
  have accepted := (serves.map_check time final.initiatorTransport).1.mpr (.inr ⟨trusted, inside⟩)
  rw [show suite.encode responder.static = suite.encode answering.static from rfl, accepted]
    at finished
  refine ⟨reply, final.initiatorTransport, final.responderTransport, ?_, ?_⟩
  · have whole : hello.length = encodingSize := serves.length_hello
    simp only [Session.reply, whole, ne_eq, not_true_eq_false, if_false]
    rw [replied]
  · have first : (initiating initiator).after suite .hello = initiating greeted := by
      simp only [after, Operation.run, Session.hello, greeting]
    have second : (initiating greeted).after suite (.finish reply time) =
        encrypted final.initiatorTransport := by
      simp only [after, Operation.run, Session.finish, length, ne_eq, not_true_eq_false, if_false,
        finished]
    rw [afterAll_cons, afterAll_cons, afterAll_nil, first, second]

/-- What the initiator of the rehearsal draws. -/
def rehearsalDraw : Digest.Stream :=
  ⟨[], 0, smallSecret 3⟩

theorem initiate_rehearsal :
    Session.initiate rehearsal (rehearsal.publicKey (smallSecret 2)) rehearsalDraw =
      .ok (initiating Rehearsal.initiator) := by
  have length : (rehearsal.publicKey (smallSecret 2)).length = authorityKeySize := by
    decide +kernel
  have isKey : rehearsal.isPublic (rehearsal.publicKey (smallSecret 2)) = true := by
    decide +kernel
  have drawn : (rehearsal.drawSecret rehearsalDraw).1 = smallSecret 3 := by
    decide +kernel
  simp only [Session.initiate, length, ne_eq, not_true_eq_false, if_false, checkPublic, isKey,
    if_true, Initiator.prepare, drawn]
  rfl

theorem encrypted_only_with_admitted_rehearsal :
    ∃ (course : List Operation) (transport : Transport) (initiator : Initiator)
        (reply theirStatic certificate : Bytes) (now : UInt32),
      (initiating Rehearsal.initiator).afterAll rehearsal course = encrypted transport ∧
      initiator.Admits rehearsal (rehearsal.publicKey (smallSecret 2)) reply now theirStatic
        certificate ∧
      (transport.sending.key, transport.receiving.key) =
        initiator.transportKeys rehearsal reply theirStatic := by
  obtain ⟨answer, ours, -, -, reached⟩ :=
    exists_encrypted rehearsal_sealing rfl rfl 1700000000 1700003600 Rehearsal.stream
      Rehearsal.serves rfl (by decide)
  obtain ⟨before, reply, now, rest, initiator, theirStatic, certificate, -, -, admits, keys⟩ :=
    (encrypted_only_with_admitted rehearsal _ rehearsalDraw _ initiate_rehearsal
      [.hello, .finish answer 1700003600]).1 ours reached
  exact ⟨_, ours, initiator, reply, theirStatic, certificate, now, reached, admits, keys⟩

end Session

end MiningPool
