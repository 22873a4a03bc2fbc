import MiningPool.Proofs.Noise.Admission
import MiningPool.Proofs.Noise.Certificate

/-!
# Agreement

Whatever keys two parties drew, the answer to a first message is sealed in the very states
in which the initiator opens it.  So the initiator reads the static key and the certificate
that were sent, and is left in the state of the responder, with the same keys for the
directions between them.
-/

namespace MiningPool.Noise

open MiningPool.Noise.Symmetric

/-! ## The first message -/

/-- The state after the ephemeral key of the initiator was sent and nothing else. -/
def Symmetric.greeted (hello : Bytes) : Symmetric :=
  (start.mixHash hello).mixHash []

theorem Initiator.hello_of_fresh
    (suite : Suite)
    (initiator : Initiator)
    (fresh : initiator.symmetric = start) :
    initiator.hello suite =
      ({ initiator with symmetric := greeted (suite.encode initiator.ephemeral) },
        .ok (suite.encode initiator.ephemeral)) := by
  have step : (do
      Handshake.change (·.mixHash (suite.encode initiator.ephemeral))
      let _ ← Handshake.attempt (·.encryptAndHash suite [])
      return suite.encode initiator.ephemeral : Handshake Bytes).run.run start =
        (.ok (suite.encode initiator.ephemeral),
          greeted (suite.encode initiator.ephemeral)) := by
    simp only [Handshake.run_bind, Handshake.run_change, Handshake.run_attempt]
    rfl
  simp only [Initiator.hello, Initiator.run, fresh, step]

theorem Responder.run_receiveStep
    (suite : Suite)
    (theirs : Bytes) :
    (receiveStep suite theirs).run.run start = (.ok (), greeted theirs) := by
  simp only [receiveStep, Handshake.run_bind, Handshake.run_change, Handshake.run_attempt]
  rfl

/-- The responder as it answers a first message: with the message taken and a new key. -/
def Responder.answering
    (suite : Suite)
    (responder : Responder)
    (theirs : Bytes)
    (stream : Digest.Stream) :
    Responder :=
  { responder with symmetric := greeted theirs, ephemeral := (suite.drawSecret stream).1 }

theorem Responder.reply_of_fresh
    (suite : Suite)
    (responder : Responder)
    (theirs : Bytes)
    (now : UInt32)
    (stream : Digest.Stream)
    (fresh : responder.symmetric = start) :
    let answering := responder.answering suite theirs stream
    responder.reply suite theirs now stream =
      answering.run (answering.replyStep suite theirs now (suite.drawSecret stream).2) := by
  have step := run_receiveStep suite theirs
  simp only [Responder.reply, Responder.run, fresh, step]
  rfl

/-! ## The answer -/

namespace Responder

/-- The certificate for the static key, with the next bytes of a stream as randomness. -/
def certificate
    (suite : Suite)
    (responder : Responder)
    (now : UInt32)
    (stream : Digest.Stream) :
    Certificate :=
  (Certificate.issue suite 0 now (notValidAfter now responder.validity)
    (suite.publicKey responder.static) responder.authority stream).1

/-- The secret agreed with the owner of an encoded key, by a secret key of this side. -/
def secretWith (suite : Suite) (theirs secret : Bytes) : Bytes :=
  suite.sharedSecret theirs (suite.encode secret) secret .responder

/-- The state once the ephemeral key of this side was sent. -/
def heard (suite : Suite) (responder : Responder) (theirs : Bytes) : Symmetric :=
  (responder.symmetric.mixHash (suite.encode responder.ephemeral)).mixKey
    (secretWith suite theirs responder.ephemeral)

/-- The step in plain form: what is sealed, part by part. -/
theorem run_replyStep
    (suite : Suite)
    (responder : Responder)
    (theirs : Bytes)
    (now : UInt32)
    (stream : Digest.Stream) :
    (responder.replyStep suite theirs now stream).run.run responder.symmetric =
      match (responder.heard suite theirs).encryptAndHash suite (suite.encode responder.static) with
      | .error failure => (.error failure, responder.heard suite theirs)
      | .ok (sealedStatic, state) =>
        if sealedStatic.length ≠ sealedEncodingSize then (.error .wrongLength, state)
        else
          let state := state.mixKey (secretWith suite theirs responder.static)
          match state.encryptAndHash suite (responder.certificate suite now stream).toBytes with
          | .error failure => (.error failure, state)
          | .ok (sealedCertificate, state) =>
            if sealedCertificate.length ≠ certificateSize + 16 then (.error .wrongLength, state)
            else
              (.ok (suite.encode responder.ephemeral ++ sealedStatic ++ sealedCertificate,
                state.responderTransport), state) := by
  simp only [replyStep, Handshake.run_bind, Handshake.run_change, Handshake.run_attempt, heard,
    secretWith, certificate]
  generalize Symmetric.encryptAndHash suite _ (suite.encode responder.static) = sealing
  rcases sealing with failure | ⟨sealedStatic, state⟩
  · rfl
  by_cases whole : sealedStatic.length = sealedEncodingSize
  · simp only [whole, ne_eq, not_true_eq_false, if_false, Handshake.run_bind,
      Handshake.run_change, Handshake.run_attempt]
    generalize Symmetric.encryptAndHash suite _ (Certificate.toBytes _) = sealing
    rcases sealing with failure | ⟨sealedCertificate, later⟩
    · rfl
    by_cases complete : sealedCertificate.length = certificateSize + 16
    · simp only [complete, not_true_eq_false, if_false]
      rfl
    · simp only [complete, not_false_eq_true, if_true, Handshake.run_bind, Handshake.run_throw]
  · simp only [whole, ne_eq, not_false_eq_true, if_true, Handshake.run_bind,
      Handshake.run_throw]

/-- The state once the static key of this side was sent as well. -/
def agreed
    (suite : Suite)
    (responder : Responder)
    (theirs sealedStatic : Bytes) :
    Symmetric :=
  ((responder.heard suite theirs).took sealedStatic).mixKey
    (secretWith suite theirs responder.static)

theorem ready_heard
    (suite : Suite)
    (responder : Responder)
    (theirs : Bytes) :
    (responder.heard suite theirs).Ready :=
  ready_mixKey _ _

theorem ready_agreed
    (suite : Suite)
    (responder : Responder)
    (theirs sealedStatic : Bytes) :
    (responder.agreed suite theirs sealedStatic).Ready :=
  ready_mixKey _ _

/-- The sealed parts of an answer are authentic in the states in which they were sealed. -/
structure Answers
    (suite : Suite)
    (responder : Responder)
    (theirs certificate sealedStatic sealedCertificate : Bytes) :
    Prop where
  static_authentic :
    (responder.heard suite theirs).Authentic suite sealedStatic (suite.encode responder.static)
  length_static : sealedStatic.length = sealedEncodingSize
  certificate_authentic :
    (responder.agreed suite theirs sealedStatic).Authentic suite sealedCertificate certificate
  length_certificate : sealedCertificate.length = certificateSize + 16

variable {suite : Suite}

/-- A responder with a key to send and a certificate for it does not fail to answer. -/
theorem exists_answers
    (sealing : suite.Sealing)
    (responder : Responder)
    (theirs : Bytes)
    (now : UInt32)
    (stream : Digest.Stream)
    (whole : (suite.encode responder.static).length = encodingSize)
    (complete : (responder.certificate suite now stream).toBytes.length = certificateSize) :
    ∃ sealedStatic sealedCertificate,
      responder.Answers suite theirs (responder.certificate suite now stream).toBytes sealedStatic
        sealedCertificate ∧
      let concluded := (responder.agreed suite theirs sealedStatic).took sealedCertificate
      (responder.replyStep suite theirs now stream).run.run responder.symmetric =
        (.ok (suite.encode responder.ephemeral ++ sealedStatic ++ sealedCertificate,
          concluded.responderTransport), concluded) := by
  obtain ⟨sealedStatic, sentStatic, authentic, length⟩ :=
    (responder.ready_heard suite theirs).encryptAndHash sealing (suite.encode responder.static)
  obtain ⟨sealedCertificate, sentCertificate, certified, size⟩ :=
    (responder.ready_agreed suite theirs sealedStatic).encryptAndHash sealing
      (responder.certificate suite now stream).toBytes
  rw [whole] at length
  rw [complete] at size
  refine ⟨sealedStatic, sealedCertificate, ⟨authentic, length, certified, size⟩, ?_⟩
  have sized : sealedStatic.length = sealedEncodingSize := length
  have ended : sealedCertificate.length = certificateSize + 16 := size
  rw [responder.run_replyStep, sentStatic]
  rw [agreed] at sentCertificate
  simp only [sized, ne_eq, not_true_eq_false, if_false, sentCertificate, ended]
  rfl

end Responder

/-! ## Reading the answer -/

/-- An answer is read as it was sealed by who shares both secrets with the responder. -/
theorem Responder.Answers.reads
    {suite : Suite}
    {responder : Responder}
    {theirs certificate sealedStatic sealedCertificate : Bytes}
    (answers : responder.Answers suite theirs certificate sealedStatic sealedCertificate)
    (initiator : Initiator)
    (alike : initiator.symmetric = responder.symmetric)
    (whole : (suite.encode responder.ephemeral).length = encodingSize)
    (length : (suite.encode responder.static).length = encodingSize)
    (complete : certificate.length = certificateSize)
    (ephemeral_shared : initiator.secretWith suite (suite.encode responder.ephemeral) =
      secretWith suite theirs responder.ephemeral)
    (static_shared : initiator.secretWith suite (suite.encode responder.static) =
      secretWith suite theirs responder.static) :
    let reply := suite.encode responder.ephemeral ++ sealedStatic ++ sealedCertificate
    initiator.Reads suite reply (suite.encode responder.static) certificate ∧
      initiator.concluded suite reply (suite.encode responder.static) =
        (responder.agreed suite theirs sealedStatic).took sealedCertificate := by
  intro reply
  have first : reply.take encodingSize = suite.encode responder.ephemeral := by
    simp only [reply, List.append_assoc, ← whole, List.take_left]
  have second : Initiator.sealedStatic reply = sealedStatic := by
    simp only [Initiator.sealedStatic, reply, List.append_assoc, ← whole, List.drop_left,
      ← answers.length_static, List.take_left]
  have third : Initiator.sealedCertificate reply = sealedCertificate := by
    have front : (suite.encode responder.ephemeral ++ sealedStatic).length =
        encodingSize + sealedEncodingSize := by
      rw [List.length_append, whole, answers.length_static]
    simp only [Initiator.sealedCertificate, reply, ← front, List.drop_left]
  have heard : initiator.heard suite reply = responder.heard suite theirs := by
    rw [Initiator.heard, Responder.heard, first, ephemeral_shared, alike]
  have agreed : initiator.agreed suite reply (suite.encode responder.static) =
      responder.agreed suite theirs sealedStatic := by
    rw [Initiator.agreed, Responder.agreed, heard, second, static_shared]
  refine ⟨⟨?_, length, ?_, complete⟩, ?_⟩
  · rw [heard, second]
    exact answers.static_authentic
  · rw [agreed, third]
    exact answers.certificate_authentic
  · rw [Initiator.concluded, agreed, third]

/-! ## The whole handshake -/

/-- The span of a certificate ends after its validity, at most at the largest time. -/
theorem toNat_notValidAfter (now validity : UInt32) :
    (notValidAfter now validity).toNat =
      min (now.toNat + validity.toNat) (UInt32.size - 1) := by
  rw [notValidAfter]
  split
  next fits =>
    rw [UInt32.toNat_add, Nat.mod_eq_of_lt fits]
    omega
  next late =>
    show UInt32.size - 1 = _
    omega

/-- What the parties of a run rely on of keys, encodings and signatures. -/
structure Suite.Serves
    (suite : Suite)
    (initiator : Initiator)
    (responder : Responder)
    (certificate : Certificate) :
    Prop where
  length_hello : (suite.encode initiator.ephemeral).length = encodingSize
  length_ephemeral : (suite.encode responder.ephemeral).length = encodingSize
  length_static : (suite.encode responder.static).length = encodingSize
  /-- Both parties agree on a secret from the ephemeral keys. -/
  ephemeral_shared :
    initiator.secretWith suite (suite.encode responder.ephemeral) =
      Responder.secretWith suite (suite.encode initiator.ephemeral) responder.ephemeral
  /-- And on one from the static key of the responder. -/
  static_shared :
    initiator.secretWith suite (suite.encode responder.static) =
      Responder.secretWith suite (suite.encode initiator.ephemeral) responder.static
  decode_static : suite.decode (suite.encode responder.static) = suite.publicKey responder.static
  length_signature : certificate.signature.length = 64
  /-- What the authority signed is accepted under its own key and under no other trusted one. -/
  verify_iff : ∀ key ∈ initiator.authority,
    suite.verify key (certificate.digest (suite.publicKey responder.static))
      certificate.signature = true ↔ key = suite.publicKey responder.authority

/-- The time is in the span of a certificate that is issued at a time with a validity. -/
def InSpan (now validity time : UInt32) : Prop :=
  now ≤ time ∧ time.toNat ≤ min (now.toNat + validity.toNat) (UInt32.size - 1)

instance (now validity time : UInt32) : Decidable (InSpan now validity time) :=
  inferInstanceAs (Decidable (_ ∧ _))

section

variable {suite : Suite} {initiator : Initiator} {responder : Responder} {now : UInt32}
  {stream : Digest.Stream}

/-- What the check makes of the certificate of a responder depends on key and time only. -/
theorem Suite.Serves.check_eq
    (serves : suite.Serves initiator responder (responder.certificate suite now stream))
    (time : UInt32) :
    (responder.certificate suite now stream).check suite
        (suite.decode (suite.encode responder.static)) initiator.authority time =
      match initiator.authority with
      | none => .ok ()
      | some key =>
        if key = suite.publicKey responder.authority then
          if InSpan now responder.validity time then .ok ()
          else .error (.certificateExpired now (notValidAfter now responder.validity) time)
        else .error (.invalidCertificate (responder.certificate suite now stream).toBytes) := by
  have current : (responder.certificate suite now stream).IsCurrent time ↔
      InSpan now responder.validity time := by
    rw [InSpan, ← toNat_notValidAfter]
    rfl
  rw [serves.decode_static]
  cases trusted : initiator.authority with
  | none => rfl
  | some key =>
    have signed := serves.verify_iff key trusted
    simp only [Certificate.check_some, signed, current]
    rfl

/-- The ciphers are ready exactly for who trusts the certificate, and the failure says why not. -/
theorem Suite.Serves.map_check
    (serves : suite.Serves initiator responder (responder.certificate suite now stream))
    (time : UInt32)
    (transport : Transport) :
    let result :=
      ((responder.certificate suite now stream).check suite
        (suite.decode (suite.encode responder.static)) initiator.authority time).map
          fun _ => transport
    (result = .ok transport ↔
      initiator.authority = none ∨
        initiator.authority = some (suite.publicKey responder.authority) ∧
          InSpan now responder.validity time) ∧
    (∀ key, initiator.authority = some key → key ≠ suite.publicKey responder.authority →
      result =
        .error (.invalidCertificate (responder.certificate suite now stream).toBytes)) ∧
    (initiator.authority = some (suite.publicKey responder.authority) →
      ¬ InSpan now responder.validity time →
        result =
          .error (.certificateExpired now (notValidAfter now responder.validity) time)) ∧
    (∀ other, result = .ok other → other = transport) := by
  rw [serves.check_eq time]
  cases initiator.authority with
  | none => simp [Except.map, eq_comm]
  | some key =>
    by_cases own : key = suite.publicKey responder.authority
    · by_cases inside : InSpan now responder.validity time
      · simp [own, inside, Except.map, eq_comm]
      · simp [own, inside, Except.map]
    · simp [own, Except.map]

end

/-- The three steps of parties that have said nothing yet, with one final state for both. -/
theorem exists_handshake
    {suite : Suite}
    {initiator : Initiator}
    {responder : Responder}
    (sealing : suite.Sealing)
    (fresh : initiator.symmetric = start)
    (waiting : responder.symmetric = start)
    (now time : UInt32)
    (stream : Digest.Stream) :
    let hello := suite.encode initiator.ephemeral
    let answering := responder.answering suite hello stream
    let certificate := answering.certificate suite now (suite.drawSecret stream).2
    suite.Serves initiator answering certificate →
      ∃ reply greeted final,
        initiator.hello suite = (greeted, .ok hello) ∧
        responder.reply suite hello now stream =
          ({ answering with symmetric := final }, .ok (reply, final.responderTransport)) ∧
        reply.length = replySize ∧
        greeted.finish suite reply time =
          ({ initiator with symmetric := final },
            (certificate.check suite (suite.decode (suite.encode responder.static))
              initiator.authority time).map fun _ => final.initiatorTransport) := by
  intro hello answering certificate serves
  have complete : certificate.toBytes.length = certificateSize := by
    rw [Certificate.length_toBytes, serves.length_signature]
    rfl
  obtain ⟨sealedStatic, sealedCertificate, answers, step⟩ :=
    answering.exists_answers sealing hello now (suite.drawSecret stream).2 serves.length_static
      complete
  obtain ⟨reads, concluded⟩ :=
    answers.reads { initiator with symmetric := greeted hello } rfl serves.length_ephemeral
      serves.length_static complete serves.ephemeral_shared serves.static_shared
  have finished := reads.finish_eq time
  rw [concluded, Certificate.ofBytes_toBytes] at finished
  refine ⟨_, _, _, initiator.hello_of_fresh suite fresh, ?_, ?_, finished⟩
  · rw [responder.reply_of_fresh suite hello now stream waiting]
    simp only [Responder.run]
    rw [step]
  · rw [List.length_append, List.length_append, serves.length_ephemeral, answers.length_static,
      answers.length_certificate]
    rfl

/--
Two parties that exchange their messages unchanged agree: the responder always answers; the
initiator takes the answer exactly if it trusts no authority, or trusts the one of the
responder and its clock is in the span of the certificate; and then both are in one state,
with the same cipher for either direction.
-/
theorem handshake_agreement
    (suite : Suite)
    (sealing : suite.Sealing)
    (initiator : Initiator)
    (responder : Responder)
    (fresh : initiator.symmetric = start)
    (waiting : responder.symmetric = start)
    (now time : UInt32)
    (stream : Digest.Stream) :
    let hello := suite.encode initiator.ephemeral
    let answering := responder.answering suite hello stream
    let certificate := answering.certificate suite now (suite.drawSecret stream).2
    suite.Serves initiator answering certificate →
      ∃ greeted answered reply theirTransport ourTransport finished result,
        initiator.hello suite = (greeted, .ok hello) ∧
        hello.length = encodingSize ∧
        responder.reply suite hello now stream = (answered, .ok (reply, theirTransport)) ∧
        reply.length = replySize ∧
        greeted.finish suite reply time = (finished, result) ∧
        (result = .ok ourTransport ↔
          initiator.authority = none ∨
            initiator.authority = some (suite.publicKey responder.authority) ∧
              InSpan now responder.validity time) ∧
        (∀ key, initiator.authority = some key → key ≠ suite.publicKey responder.authority →
          result = .error (.invalidCertificate certificate.toBytes)) ∧
        (initiator.authority = some (suite.publicKey responder.authority) →
          ¬ InSpan now responder.validity time →
            result =
              .error (.certificateExpired now (notValidAfter now responder.validity) time)) ∧
        (∀ other, result = .ok other → other = ourTransport) ∧
        finished.symmetric = answered.symmetric ∧
        ourTransport.sending = theirTransport.receiving ∧
        ourTransport.receiving = theirTransport.sending ∧
        ourTransport.sending.counter = 0 ∧
        ourTransport.receiving.counter = 0 := by
  intro hello answering certificate serves
  obtain ⟨reply, greeted, final, greeting, replied, length, finished⟩ :=
    exists_handshake sealing fresh waiting now time stream serves
  obtain ⟨taken, foreign, expired, only⟩ := serves.map_check time final.initiatorTransport
  exact ⟨greeted, _, reply, _, final.initiatorTransport, _, _, greeting, serves.length_hello,
    replied, length, finished, taken, foreign, expired, only, rfl, rfl, rfl, rfl, rfl⟩

/-! ## A rehearsal -/

/-- The secret key of a small number. -/
def smallSecret (number : Nat) : Bytes :=
  Bytes.ofNatBE 32 number

/--
The suite in use, with the encodings of three keys and one signature worked out beforehand.
-/
def rehearsal : Suite :=
  { ellSwiftChaChaPoly with
    encode := fun secret =>
      if secret = smallSecret 3 then
        Bytes.ofNatBE 32 0x91ec3e49ab850897d94e580fdb7dc5fd4b4b53bd81e488ad2ff40e56ff63f936 ++
          Bytes.ofNatBE 32 0x039481d375ac51f4f991e4bf89b9dac9147e6a5077726b07ac9e3b9585d325e8
      else if secret = smallSecret 5 then
        Bytes.ofNatBE 32 0x9ec4e4cb9de20d12c8f088e19927249ffbbf77b2f4db5be2d02239c4cc290a28 ++
          Bytes.ofNatBE 32 0xa139c744b54f009addc27adf654dfc2e56209655114c5515aa5492f73c3ae338
      else if secret = smallSecret 7 then
        Bytes.ofNatBE 32 0x0f02e1f8b68b07bf5dee7ccb7621bed4fab16da3cecc0fe07c0f1897019a5e1c ++
          Bytes.ofNatBE 32 0xa3c44f7006eb056287a9df3471232b87bc12a590057d2a4d514afea52718a7ec
      else ellSwiftChaChaPoly.encode secret
    sign := fun secret message auxiliary =>
      if secret = smallSecret 2 ∧ auxiliary = smallSecret 9 then
        Bytes.ofNatBE 32 0x4d8d62189a7624bed70a7b8434b380981d24d74b0da0bc875acaf53d5ca9f9fc ++
          Bytes.ofNatBE 32 0x6018e56ac19c4830a5a4120ed153b8325d81560f2145c5e3a5213dc16137bf08
      else ellSwiftChaChaPoly.sign secret message auxiliary }

theorem rehearsal_sealing : rehearsal.Sealing where
  openText?_sealText := ellSwiftChaChaPoly_sealing.openText?_sealText
  length_sealText := ellSwiftChaChaPoly_sealing.length_sealText

namespace Rehearsal

/-- An initiator that trusts the authority of the responder. -/
def initiator : Initiator :=
  ⟨start, smallSecret 3, some (rehearsal.publicKey (smallSecret 2))⟩

/-- A responder whose certificates are valid for an hour. -/
def responder : Responder :=
  ⟨start, smallSecret 1, smallSecret 7, smallSecret 2, 3600⟩

/-- What the responder draws to answer. -/
def stream : Digest.Stream :=
  ⟨[], 0, smallSecret 5 ++ smallSecret 9⟩

/-- The responder as it answers. -/
def answering : Responder :=
  responder.answering rehearsal (rehearsal.encode initiator.ephemeral) stream

theorem serves :
    rehearsal.Serves initiator answering
      (answering.certificate rehearsal 1700000000 (rehearsal.drawSecret stream).2) where
  length_hello := by decide +kernel
  length_ephemeral := by decide +kernel
  length_static := by decide +kernel
  ephemeral_shared := by
    refine congrArg (fun shared => Digest.Sha256.tagged "bip324_ellswift_xonly_ecdh"
      (rehearsal.encode initiator.ephemeral ++ rehearsal.encode answering.ephemeral ++
        Curve.Point.bytes shared)) ?_
    decide +kernel
  static_shared := by
    refine congrArg (fun shared => Digest.Sha256.tagged "bip324_ellswift_xonly_ecdh"
      (rehearsal.encode initiator.ephemeral ++ rehearsal.encode answering.static ++
        Curve.Point.bytes shared)) ?_
    decide +kernel
  decode_static := by decide +kernel
  length_signature := by decide +kernel
  verify_iff := by
    intro key trusted
    obtain rfl : rehearsal.publicKey (smallSecret 2) = key := Option.some.inj trusted
    refine iff_of_true ?_ rfl
    decide +kernel

end Rehearsal

theorem handshake_agreement_rehearsal :
    ∃ greeted answered reply theirTransport ourTransport finished,
      Rehearsal.initiator.hello rehearsal =
        (greeted, .ok (rehearsal.encode Rehearsal.initiator.ephemeral)) ∧
      Rehearsal.responder.reply rehearsal (rehearsal.encode Rehearsal.initiator.ephemeral)
        1700000000 Rehearsal.stream = (answered, .ok (reply, theirTransport)) ∧
      greeted.finish rehearsal reply 1700003600 = (finished, .ok ourTransport) ∧
      ourTransport.sending = theirTransport.receiving ∧
      ourTransport.receiving = theirTransport.sending := by
  obtain ⟨greeted, answered, reply, theirTransport, ourTransport, finished, result, greeting, -,
      replied, -, taken, accepted, -, -, -, -, sending, receiving, -⟩ :=
    handshake_agreement rehearsal rehearsal_sealing Rehearsal.initiator Rehearsal.responder rfl rfl
      1700000000 1700003600 Rehearsal.stream Rehearsal.serves
  obtain rfl := accepted.mpr (.inr ⟨rfl, by decide⟩)
  exact ⟨greeted, answered, reply, theirTransport, ourTransport, finished, greeting, replied, taken,
    sending, receiving⟩

end MiningPool.Noise
