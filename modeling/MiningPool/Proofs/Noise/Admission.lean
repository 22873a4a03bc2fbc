import MiningPool.Proofs.Noise.Transcript

/-!
# Whom an initiator admits

An initiator takes the answer of a responder exactly if its sealed parts are authentic: a
static key, then a certificate that the trusted authority signed for this very key and that
is valid at the time.  The secret agreed with the same static key goes into the keys of the
transport, so only its owner can go on.
-/

namespace MiningPool.Noise

namespace Initiator

open MiningPool.Noise.Symmetric

/-- The part of an answer that seals the static key. -/
def sealedStatic (reply : Bytes) : Bytes :=
  (reply.drop encodingSize).take sealedEncodingSize

/-- The part of an answer that seals the certificate. -/
def sealedCertificate (reply : Bytes) : Bytes :=
  reply.drop (encodingSize + sealedEncodingSize)

/-- The secret agreed with the owner of an encoded key. -/
def secretWith (suite : Suite) (initiator : Initiator) (theirs : Bytes) : Bytes :=
  suite.sharedSecret (suite.encode initiator.ephemeral) theirs initiator.ephemeral .initiator

/-- The state once the ephemeral key of the responder was taken. -/
def heard (suite : Suite) (initiator : Initiator) (reply : Bytes) : Symmetric :=
  (initiator.symmetric.mixHash (reply.take encodingSize)).mixKey
    (initiator.secretWith suite (reply.take encodingSize))

/-- The state once the static key of the responder was taken as well. -/
def agreed (suite : Suite) (initiator : Initiator) (reply theirStatic : Bytes) : Symmetric :=
  ((initiator.heard suite reply).took (sealedStatic reply)).mixKey
    (initiator.secretWith suite theirStatic)

/-- The state once the certificate was taken, too. -/
def concluded (suite : Suite) (initiator : Initiator) (reply theirStatic : Bytes) : Symmetric :=
  (initiator.agreed suite reply theirStatic).took (sealedCertificate reply)

theorem ready_heard
    (suite : Suite)
    (initiator : Initiator)
    (reply : Bytes) :
    (initiator.heard suite reply).Ready :=
  ready_mixKey _ _

theorem ready_agreed
    (suite : Suite)
    (initiator : Initiator)
    (reply theirStatic : Bytes) :
    (initiator.agreed suite reply theirStatic).Ready :=
  ready_mixKey _ _

/-- The step in plain form: what it makes of an answer, part by part. -/
theorem run_finishStep
    (suite : Suite)
    (initiator : Initiator)
    (reply : Bytes)
    (now : UInt32) :
    (initiator.finishStep suite reply now).run.run initiator.symmetric =
      match (initiator.heard suite reply).decryptAndHash suite (sealedStatic reply) with
      | .error failure => (.error failure, initiator.heard suite reply)
      | .ok (theirStatic, state) =>
        if theirStatic.length ≠ encodingSize then (.error .wrongLength, state)
        else
          let state := state.mixKey (initiator.secretWith suite theirStatic)
          match state.decryptAndHash suite (sealedCertificate reply) with
          | .error failure => (.error failure, state)
          | .ok (certificate, state) =>
            if certificate.length ≠ certificateSize then (.error .wrongLength, state)
            else
              match (Certificate.ofBytes certificate).check suite (suite.decode theirStatic)
                initiator.authority now with
              | .error failure => (.error failure, state)
              | .ok () => (.ok state.initiatorTransport, state) := by
  simp only [finishStep, Handshake.run_bind, Handshake.run_change, Handshake.run_attempt, heard,
    secretWith, sealedStatic, sealedCertificate]
  generalize Symmetric.decryptAndHash suite _ (List.take _ _) = opened
  rcases opened with failure | ⟨theirStatic, state⟩
  · rfl
  by_cases whole : theirStatic.length = encodingSize
  · simp only [whole, ne_eq, not_true_eq_false, if_false, Handshake.run_bind,
      Handshake.run_change, Handshake.run_attempt]
    generalize Symmetric.decryptAndHash suite _ (List.drop _ _) = opened
    rcases opened with failure | ⟨certificate, later⟩
    · rfl
    by_cases complete : certificate.length = certificateSize
    · simp only [complete, not_true_eq_false, if_false]
      rcases (Certificate.ofBytes certificate).check suite (suite.decode theirStatic)
        initiator.authority now with failure | ⟨⟨⟩⟩ <;> rfl
    · simp only [complete, not_false_eq_true, if_true, Handshake.run_bind, Handshake.run_throw]
  · simp only [whole, ne_eq, not_false_eq_true, if_true, Handshake.run_bind,
      Handshake.run_throw]

/-- An answer holds a static key and a certificate, either authentic and of its length. -/
structure Reads
    (suite : Suite)
    (initiator : Initiator)
    (reply theirStatic certificate : Bytes) :
    Prop where
  static_authentic :
    (initiator.heard suite reply).Authentic suite (sealedStatic reply) theirStatic
  length_static : theirStatic.length = encodingSize
  certificate_authentic :
    (initiator.agreed suite reply theirStatic).Authentic suite (sealedCertificate reply)
      certificate
  length_certificate : certificate.length = certificateSize

variable {suite : Suite} {initiator : Initiator} {reply theirStatic certificate : Bytes}
  {now : UInt32}

/-- What the initiator makes of an answer that it can read depends on the certificate only. -/
theorem Reads.finish_eq
    (reads : initiator.Reads suite reply theirStatic certificate)
    (now : UInt32) :
    let concluded := initiator.concluded suite reply theirStatic
    initiator.finish suite reply now =
      ({ initiator with symmetric := concluded },
        ((Certificate.ofBytes certificate).check suite (suite.decode theirStatic)
          initiator.authority now).map fun _ => concluded.initiatorTransport) := by
  have static := (initiator.ready_heard suite reply).decryptAndHash reads.static_authentic
  have vouched :=
    (initiator.ready_agreed suite reply theirStatic).decryptAndHash reads.certificate_authentic
  have step := initiator.run_finishStep suite reply now
  rw [agreed] at vouched
  simp only [static, reads.length_static, vouched, reads.length_certificate, ne_eq,
    not_true_eq_false, if_false] at step
  simp only [Initiator.finish, Initiator.run, step, concluded, agreed]
  rcases (Certificate.ofBytes certificate).check suite (suite.decode theirStatic)
    initiator.authority now with failure | ⟨⟨⟩⟩ <;> rfl

/-- An answer that leads to transport ciphers was read and vouched for. -/
theorem reads_of_finish
    {later : Initiator}
    {transport : Transport}
    (finished : initiator.finish suite reply now = (later, .ok transport)) :
    ∃ theirStatic certificate,
      initiator.Reads suite reply theirStatic certificate ∧
      (Certificate.ofBytes certificate).check suite (suite.decode theirStatic)
        initiator.authority now = .ok () ∧
      transport = (initiator.concluded suite reply theirStatic).initiatorTransport := by
  have step := initiator.run_finishStep suite reply now
  simp only [Initiator.finish, Initiator.run, step] at finished
  rcases static : (initiator.heard suite reply).decryptAndHash suite (sealedStatic reply) with
    failure | ⟨theirStatic, state⟩
  · simp [static] at finished
  obtain ⟨authentic, rfl⟩ := (initiator.ready_heard suite reply).authentic_of_decryptAndHash static
  by_cases other : theirStatic.length ≠ encodingSize
  · simp [static, other] at finished
  have whole := Decidable.not_not.mp other
  simp only [static, whole, ne_eq, not_true_eq_false, if_false] at finished
  rw [← agreed] at finished
  rcases vouched : (initiator.agreed suite reply theirStatic).decryptAndHash suite
    (sealedCertificate reply) with failure | ⟨certificate, state⟩
  · simp [vouched] at finished
  obtain ⟨certified, rfl⟩ :=
    (initiator.ready_agreed suite reply theirStatic).authentic_of_decryptAndHash vouched
  by_cases different : certificate.length ≠ certificateSize
  · simp [vouched, different] at finished
  have complete := Decidable.not_not.mp different
  have reads : initiator.Reads suite reply theirStatic certificate :=
    ⟨authentic, whole, certified, complete⟩
  rcases checked : (Certificate.ofBytes certificate).check suite (suite.decode theirStatic)
    initiator.authority now with failure | ⟨⟨⟩⟩
  · simp [vouched, complete, checked] at finished
  · simp only [vouched, complete, checked, not_true_eq_false, if_false, Prod.mk.injEq,
      Except.ok.injEq] at finished
    exact ⟨theirStatic, certificate, reads, checked, finished.2.symm⟩

end Initiator

end MiningPool.Noise
