import MiningPool.Noise.Handshake
import MiningPool.Proofs.Noise.Direction

/-!
# The transcript of a handshake

Both parties of a handshake take the same bytes into a digest and the same secrets into a
chaining key.  What one of them seals with the key in force, bound to the digest, the other
opens from an equal state, and both are in equal states again.  A text that is opened is
authentic: no step opens anything without a key.
-/

namespace MiningPool.Noise

/-! ## Steps of a handshake -/

namespace Handshake

variable {α β : Type}

@[simp]
theorem run_throw (failure : NoiseError) (state : Symmetric) :
    (throw failure : Handshake α).run.run state = (.error failure, state) :=
  rfl

@[simp]
theorem run_get (state : Symmetric) :
    (get : Handshake Symmetric).run.run state = (.ok state, state) :=
  rfl

@[simp]
theorem run_change (next : Symmetric → Symmetric) (state : Symmetric) :
    (change next).run.run state = (.ok (), next state) :=
  rfl

/-- A step that fails keeps the state it reached, and what was to follow is left out. -/
theorem run_bind
    (step : Handshake α)
    (rest : α → Handshake β)
    (state : Symmetric) :
    (step >>= rest).run.run state =
      match step.run.run state with
      | (.ok value, later) => (rest value).run.run later
      | (.error failure, later) => (.error failure, later) := by
  unfold ExceptT.run StateT.run
  simp only [bind, ExceptT.bind, ExceptT.mk, StateT.bind, ExceptT.bindCont]
  rcases step state with ⟨_ | _, later⟩ <;> rfl

/-- An operation that fails leaves the state alone. -/
theorem run_attempt
    (operation : Symmetric → Except NoiseError (Bytes × Symmetric))
    (state : Symmetric) :
    (attempt operation).run.run state =
      match operation state with
      | .error failure => (.error failure, state)
      | .ok (bytes, later) => (.ok bytes, later) := by
  simp only [attempt, run_bind, run_get]
  rcases operation state with failure | ⟨bytes, later⟩ <;> rfl

end Handshake

/-! ## Texts under the key in force -/

namespace Symmetric

variable {suite : Suite} {state : Symmetric}

/-- A sealed text is authentic under the key in force, bound to all that was said. -/
def Authentic (suite : Suite) (state : Symmetric) (sealedText text : Bytes) : Prop :=
  ∃ key, state.key = some key ∧ state.cipher = some key ∧
    suite.openText? key state.counter state.hash sealedText = some text

/-- There is a key in force, the cipher was made with it and has counter values left. -/
def Ready (state : Symmetric) : Prop :=
  ∃ key, state.key = some key ∧ state.cipher = some key ∧ state.counter ≠ lastCounter

theorem ready_mixKey (state : Symmetric) (secret : Bytes) : (state.mixKey secret).Ready := by
  refine ⟨(Digest.derivePair state.chainingKey secret).2, rfl, rfl, ?_⟩
  show (0 : UInt64) ≠ lastCounter
  decide

/-- The state after one more text was sealed or opened and taken into the digest. -/
def took (state : Symmetric) (sealedText : Bytes) : Symmetric :=
  { state with counter := state.counter + 1 }.mixHash sealedText

/-- What is sealed is authentic in the state in which it was sealed, and longer by a tag. -/
theorem Ready.encryptAndHash
    (sealing : suite.Sealing)
    (ready : state.Ready)
    (text : Bytes) :
    ∃ sealedText,
      state.encryptAndHash suite text = .ok (sealedText, state.took sealedText) ∧
      state.Authentic suite sealedText text ∧
      sealedText.length = text.length + Frame.tagSize := by
  obtain ⟨key, inForce, made, unused⟩ := ready
  refine ⟨suite.sealText key state.counter state.hash text, ?_, ?_, ?_⟩
  · simp only [Symmetric.encryptAndHash, inForce, sealWith, made, sealNext, unused, if_false, took]
  · exact ⟨key, inForce, made, sealing.openText?_sealText key state.counter state.hash text⟩
  · exact sealing.length_sealText key state.counter state.hash text

/-- What is authentic is opened, and the state goes on as that of the party that sealed it. -/
theorem Ready.decryptAndHash
    {sealedText text : Bytes}
    (ready : state.Ready)
    (authentic : state.Authentic suite sealedText text) :
    state.decryptAndHash suite sealedText = .ok (text, state.took sealedText) := by
  obtain ⟨-, -, -, unused⟩ := ready
  obtain ⟨key, inForce, made, opened⟩ := authentic
  simp only [Symmetric.decryptAndHash, inForce, openWith, made, openNext, unused, if_false, opened,
    took]

/-- Only what is authentic is opened. -/
theorem Ready.authentic_of_decryptAndHash
    {later : Symmetric}
    {sealedText text : Bytes}
    (ready : state.Ready)
    (opened : state.decryptAndHash suite sealedText = .ok (text, later)) :
    state.Authentic suite sealedText text ∧ later = state.took sealedText := by
  obtain ⟨key, inForce, made, unused⟩ := ready
  cases found : suite.openText? key state.counter state.hash sealedText with
  | none =>
    simp [Symmetric.decryptAndHash, inForce, openWith, made, openNext, unused, found] at opened
  | some plain =>
    have authentic : state.Authentic suite sealedText plain := ⟨key, inForce, made, found⟩
    have same := opened.symm.trans (Ready.decryptAndHash ⟨key, inForce, made, unused⟩ authentic)
    obtain ⟨rfl, rfl⟩ := Prod.mk.inj (Except.ok.inj same)
    exact ⟨authentic, rfl⟩

/-- The ciphers of the party that started the handshake, for the directions from it and to it. -/
def initiatorTransport (state : Symmetric) : Transport :=
  ⟨Direction.ofKey state.split.1, Direction.ofKey state.split.2⟩

/-- The ciphers of the party that answered, for the same directions. -/
def responderTransport (state : Symmetric) : Transport :=
  ⟨Direction.ofKey state.split.2, Direction.ofKey state.split.1⟩

end Symmetric

end MiningPool.Noise
