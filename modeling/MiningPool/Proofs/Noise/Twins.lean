import MiningPool.Proofs.Noise.Sealing
import MiningPool.Proofs.Noise.Transcript

/-!
# Twin states

Both parties of a handshake keep a symmetric state, and whatever one of them does the other
does as well: the same bytes are taken into the digest, the same secrets are mixed in and the
same keys put in force, and what one seals the other opens.  The two run different code for
a text, which looks for the key in force in one place and for the cipher in another.

States that are equal, with a cipher exactly when there is a key, stay so through every such
course, and every text arrives as it was told.  Of the suite only one thing is relied on, that
it opens what it sealed.
-/

namespace MiningPool.Noise

open MiningPool.Curve.ElligatorSwift (Party)
open MiningPool.Digest (Sha256.hash keyed)

/-- A suite opens what it sealed; nothing is said of lengths. -/
def Suite.Reopens (suite : Suite) : Prop :=
  ∀ key counter associated text,
    suite.openText? key counter associated (suite.sealText key counter associated text) = some text

theorem Suite.Sealing.reopens {suite : Suite} (sealing : suite.Sealing) : suite.Reopens :=
  sealing.openText?_sealText

attribute [ext] Symmetric

namespace Symmetric

variable (suite : Suite) (state : Symmetric)

/-- Seal a text for the other party; a state that cannot is left alone. -/
def say (text : Bytes) : Except NoiseError Bytes × Symmetric :=
  (Handshake.attempt (·.encryptAndHash suite text)).run.run state

/-- Open what the other party sealed; a state that cannot is left alone. -/
def hear (sealedText : Bytes) : Except NoiseError Bytes × Symmetric :=
  (Handshake.attempt (·.decryptAndHash suite sealedText)).run.run state

/-- There is a cipher exactly when a key is in force, and it was made with this key. -/
def Armed : Prop :=
  state.cipher = state.key

/-- What comes of a text that is told between parties in the same state. -/
inductive Tells (text : Bytes) (later : Symmetric) : Prop
  /-- Without a key the text passes through unchanged, and both digests take it up. -/
  | plain
      (unkeyed : state.key = none)
      (later_eq : later = { state with hash := Sha256.hash (state.hash ++ text) })
      (said : state.say suite text = (.ok text, later))
      (heard : state.hear suite text = (.ok text, later))
  /-- The text is sealed bound to the digest, and both digests take up the sealed text. -/
  | keyed
      (key sealedText : Bytes)
      (inForce : state.key = some key)
      (unused : state.counter ≠ lastCounter)
      (sealed_eq : sealedText = suite.sealText key state.counter state.hash text)
      (later_eq : later =
        { state with
          hash := Sha256.hash (state.hash ++ sealedText)
          counter := state.counter + 1 })
      (said : state.say suite text = (.ok sealedText, later))
      (heard : state.hear suite sealedText = (.ok text, later))
  /-- No counter value is left, so nothing is sealed and there is nothing to open. -/
  | exhausted
      (key : Bytes)
      (inForce : state.key = some key)
      (used : state.counter = lastCounter)
      (later_eq : later = state)
      (failed : state.say suite text = (.error .nonceExhausted, later))

/-- Why a state does not open a text; without a key, or without a cipher, it opens any. -/
inductive Unopened (sealedText : Bytes) : NoiseError → Prop
  | exhausted
      (key made : Bytes)
      (inForce : state.key = some key)
      (cipher : state.cipher = some made)
      (used : state.counter = lastCounter) :
      Unopened sealedText .nonceExhausted
  | unauthentic
      (key made : Bytes)
      (inForce : state.key = some key)
      (cipher : state.cipher = some made)
      (unused : state.counter ≠ lastCounter)
      (unknown : suite.openText? made state.counter state.hash sealedText = none) :
      Unopened sealedText .unauthentic

variable {suite state}

/-! ## Single states -/

/-- Between equal states a text arrives as it was told, unless it cannot be sealed at all. -/
theorem Armed.exists_tells
    (armed : state.Armed)
    (reopens : suite.Reopens)
    (text : Bytes) :
    ∃ later, state.Tells suite text later := by
  cases inForce : state.key with
  | none =>
    refine ⟨_, .plain inForce rfl ?_ ?_⟩
    · simp only [say, Handshake.run_attempt, encryptAndHash, inForce, mixHash]
    · simp only [hear, Handshake.run_attempt, decryptAndHash, inForce, mixHash]
  | some key =>
    have made : state.cipher = some key := armed.trans inForce
    by_cases used : state.counter = lastCounter
    · refine ⟨_, .exhausted key inForce used rfl ?_⟩
      simp only [say, Handshake.run_attempt, encryptAndHash, inForce, sealWith, made, sealNext,
        if_pos used]
    · refine ⟨_, .keyed key _ inForce used rfl rfl ?_ ?_⟩
      · simp only [say, Handshake.run_attempt, encryptAndHash, inForce, sealWith, made, sealNext,
          if_neg used, mixHash]
      · have opened := reopens key state.counter state.hash text
        simp only [hear, Handshake.run_attempt, decryptAndHash, inForce, openWith, made, openNext,
          if_neg used, opened, mixHash]

/-- Telling a text makes no key and no cipher. -/
theorem Tells.armed
    {text : Bytes}
    {later : Symmetric}
    (tells : state.Tells suite text later)
    (armed : state.Armed) :
    later.Armed := by
  cases tells with
  | plain unkeyed later_eq => exact later_eq ▸ armed
  | keyed key sealedText inForce unused sealed_eq later_eq => exact later_eq ▸ armed
  | exhausted key inForce used later_eq => exact later_eq ▸ armed

/-- A text that is not opened leaves everything of a state as it was. -/
theorem of_hear_eq_error
    {later : Symmetric}
    {sealedText : Bytes}
    {failure : NoiseError}
    (failed : state.hear suite sealedText = (.error failure, later)) :
    later = state ∧ state.Unopened suite sealedText failure := by
  rw [hear, Handshake.run_attempt] at failed
  cases inForce : state.key with
  | none => simp [decryptAndHash, inForce] at failed
  | some key =>
    cases made : state.cipher with
    | none => simp [decryptAndHash, inForce, openWith, made] at failed
    | some other =>
      by_cases used : state.counter = lastCounter
      · simp only [decryptAndHash, inForce, openWith, made, openNext, if_pos used] at failed
        cases failed
        exact ⟨rfl, .exhausted key other inForce made used⟩
      · cases opened : suite.openText? other state.counter state.hash sealedText with
        | some text =>
          simp [decryptAndHash, inForce, openWith, made, openNext, used, opened] at failed
        | none =>
          simp only [decryptAndHash, inForce, openWith, made, openNext, if_neg used,
            opened] at failed
          cases failed
          exact ⟨rfl, .unauthentic key other inForce made used opened⟩

end Symmetric

/-! ## Courses of both parties -/

/-- The party at the other side. -/
def across : Party → Party
  | .initiator => .responder
  | .responder => .initiator

/-- The states of both parties. -/
abbrev Parties := Party → Symmetric

namespace Parties

/-- What both parties do, each on its own state. -/
inductive Operation
  | mixHash (bytes : Bytes)
  | mixKey (secret : Bytes)
  | initializeKey (key : Bytes)
  /-- A party seals a text, and the other one opens what comes of it. -/
  | tell (speaker : Party) (text : Bytes)

/-- What an operation makes of the state that both parties are in. -/
def Operation.Turns (suite : Suite) (state later : Symmetric) : Operation → Prop
  | .mixHash bytes => later = { state with hash := Sha256.hash (state.hash ++ bytes) }
  | .mixKey secret =>
    let extracted := keyed state.chainingKey secret
    let chainingKey := keyed extracted [1]
    let key := some (keyed extracted (chainingKey ++ [2]))
    later = { state with chainingKey, key, cipher := key, counter := 0 }
  | .initializeKey key =>
    later = { state with key := some key, cipher := some key, counter := 0 }
  | .tell _ text => state.Tells suite text later

/-- A text that was sealed, and what the other party made of it. -/
structure Delivery where
  text : Bytes
  sealedText : Bytes
  opened : Except NoiseError Bytes

variable (suite : Suite) (parties : Parties)

/-- The states after an operation; when nothing is sealed there is nothing to open. -/
def after : Operation → Parties
  | .mixHash bytes => fun party => (parties party).mixHash bytes
  | .mixKey secret => fun party => (parties party).mixKey secret
  | .initializeKey key => fun party => (parties party).initializeKey key
  | .tell speaker text =>
    match (parties speaker).say suite text with
    | (.error _, said) => fun party => if party = speaker then said else parties party
    | (.ok sealedText, said) => fun party =>
      if party = speaker then said else ((parties party).hear suite sealedText).2

/-- The states after a course, which lists the latest operation first. -/
def run : List Operation → Parties
  | [] => parties
  | operation :: earlier => (run earlier).after suite operation

/-- The text that an operation delivers, if it is sealed. -/
def delivery? : Operation → Option Delivery
  | .tell speaker text =>
    match ((parties speaker).say suite text).1 with
    | .error _ => none
    | .ok sealedText =>
      some ⟨text, sealedText, ((parties (across speaker)).hear suite sealedText).1⟩
  | _ => none

/-- The texts that a course delivers, the latest first. -/
def deliveries : List Operation → List Delivery
  | [] => []
  | operation :: earlier =>
    ((parties.run suite earlier).delivery? suite operation).toList ++ deliveries earlier

/-- Two states agree in all that they hold, and the ciphers are made with the key in force. -/
structure Twins : Prop where
  hash : (parties .initiator).hash = (parties .responder).hash
  chainingKey : (parties .initiator).chainingKey = (parties .responder).chainingKey
  key : (parties .initiator).key = (parties .responder).key
  counter : (parties .initiator).counter = (parties .responder).counter
  armed : ∀ party, (parties party).Armed

variable {suite parties}

/-- Twins are in one state. -/
theorem Twins.exists_state (twins : parties.Twins) :
    ∃ state, state.Armed ∧ parties = fun _ => state := by
  have cipher : (parties .initiator).cipher = (parties .responder).cipher := by
    rw [twins.armed .initiator, twins.armed .responder, twins.key]
  refine ⟨parties .initiator, twins.armed .initiator, funext fun party => ?_⟩
  cases party with
  | initiator => rfl
  | responder =>
    exact (Symmetric.ext twins.hash twins.chainingKey twins.key cipher twins.counter).symm

/-- A text that is sealed and opened brings both parties into one state. -/
theorem after_tell_of_heard
    {state later : Symmetric}
    {text sealedText : Bytes}
    (speaker : Party)
    (said : state.say suite text = (.ok sealedText, later))
    (heard : state.hear suite sealedText = (.ok text, later)) :
    after suite (fun _ => state) (.tell speaker text) = (fun _ => later) ∧
      ∀ delivery ∈ delivery? suite (fun _ => state) (.tell speaker text),
        delivery.opened = .ok delivery.text := by
  constructor
  · simp only [after, said, heard, ite_self]
  · rintro delivery same
    simp only [delivery?, said, heard, Option.mem_some_iff] at same
    rw [← same]

/-- Whichever party tells a text, both are in the state that comes of it, and it arrives. -/
theorem after_tell
    {state later : Symmetric}
    {text : Bytes}
    (tells : state.Tells suite text later)
    (speaker : Party) :
    after suite (fun _ => state) (.tell speaker text) = (fun _ => later) ∧
      ∀ delivery ∈ delivery? suite (fun _ => state) (.tell speaker text),
        delivery.opened = .ok delivery.text := by
  cases tells with
  | plain unkeyed later_eq said heard => exact after_tell_of_heard speaker said heard
  | keyed key sealedText inForce unused sealed_eq later_eq said heard =>
    exact after_tell_of_heard speaker said heard
  | exhausted key inForce used later_eq failed =>
    subst later_eq
    constructor
    · simp only [after, failed, ite_self]
    · simp only [delivery?, failed]
      exact nofun

section Armed

variable {state : Symmetric} (armed : state.Armed) (reopens : suite.Reopens)

include armed reopens

/-- Parties in one state are in one state after every operation, and what is told arrives. -/
theorem after_of_armed (operation : Operation) :
    ∃ later, later.Armed ∧
      after suite (fun _ => state) operation = (fun _ => later) ∧
      operation.Turns suite state later ∧
      ∀ delivery ∈ delivery? suite (fun _ => state) operation,
        delivery.opened = .ok delivery.text := by
  cases operation with
  | mixHash bytes => exact ⟨state.mixHash bytes, armed, rfl, rfl, nofun⟩
  | mixKey secret => exact ⟨state.mixKey secret, rfl, rfl, rfl, nofun⟩
  | initializeKey key => exact ⟨state.initializeKey key, rfl, rfl, rfl, nofun⟩
  | tell speaker text =>
    obtain ⟨later, tells⟩ := armed.exists_tells reopens text
    obtain ⟨after_eq, arrives⟩ := after_tell tells speaker
    exact ⟨later, tells.armed armed, after_eq, tells, arrives⟩

/-- So they are after every course, and all that was told in it arrived. -/
theorem run_of_armed (course : List Operation) :
    ∃ later, later.Armed ∧
      run suite (fun _ => state) course = (fun _ => later) ∧
      ∀ delivery ∈ deliveries suite (fun _ => state) course,
        delivery.opened = .ok delivery.text := by
  induction course with
  | nil => exact ⟨state, armed, rfl, nofun⟩
  | cons operation earlier ih =>
    obtain ⟨before, armedBefore, run_eq, arrived⟩ := ih
    obtain ⟨later, armedLater, after_eq, -, arrives⟩ :=
      after_of_armed armedBefore reopens operation
    refine ⟨later, armedLater, ?_, ?_⟩
    · rw [run, run_eq, after_eq]
    · intro delivery member
      rw [deliveries, run_eq, List.mem_append, Option.mem_toList] at member
      rcases member with new | old
      · exact arrives delivery new
      · exact arrived delivery old

end Armed

/--
Parties whose states are twins stay so, whatever they do together: after every course both are
in one state, with a cipher exactly when a key is in force, and every further operation turns
it into one state again.  Bytes that are mixed in are taken into the digest behind what it was,
and a secret makes a new chaining key and a new key, whose cipher starts its counter over.
A text passes through unchanged without a key and is sealed bound to the digest with one, and
either way both digests take up what was sent; only a state without counter values left seals
nothing.  Every text that is sealed is opened as it was told.  A text that is not opened leaves
any state as it was, and fails for no other reason than its counter or its seal.
-/
theorem twins_stay_equal
    (suite : Suite)
    (reopens : suite.Reopens)
    (parties : Parties)
    (twins : parties.Twins)
    (course : List Operation) :
    (∃ state, state.Armed ∧ parties.run suite course = (fun _ => state) ∧
      ∀ operation, ∃ later, later.Armed ∧
        (parties.run suite course).after suite operation = (fun _ => later) ∧
        operation.Turns suite state later) ∧
    (∀ delivery ∈ parties.deliveries suite course, delivery.opened = .ok delivery.text) ∧
    ∀ (state later : Symmetric) (sealedText : Bytes) (failure : NoiseError),
      state.hear suite sealedText = (.error failure, later) →
        later = state ∧ state.Unopened suite sealedText failure := by
  obtain ⟨start, armed, rfl⟩ := twins.exists_state
  obtain ⟨state, armedLater, run_eq, arrived⟩ := run_of_armed armed reopens course
  refine ⟨⟨state, armedLater, run_eq, fun operation => ?_⟩, arrived, ?_⟩
  · obtain ⟨later, armed, after_eq, turns, -⟩ := after_of_armed armedLater reopens operation
    exact ⟨later, armed, run_eq ▸ after_eq, turns⟩
  · exact fun state later sealedText failure failed => Symmetric.of_hear_eq_error failed

/-- The responder tells a text without a key, and the initiator one under a key. -/
def keyedCourse : List Operation :=
  [.tell .initiator [1, 7, 92, 3, 4, 5], .mixKey (List.replicate 32 0), .tell .responder [2]]

theorem twins_stay_equal_keyed :
    Twins (fun _ => Symmetric.start) ∧
      (deliveries ellSwiftChaChaPoly (fun _ => Symmetric.start) keyedCourse).map Delivery.text =
        [[1, 7, 92, 3, 4, 5], [2]] ∧
      ∀ delivery ∈ deliveries ellSwiftChaChaPoly (fun _ => Symmetric.start) keyedCourse,
        delivery.opened = .ok delivery.text := by
  have twins : Twins (fun _ => Symmetric.start) := ⟨rfl, rfl, rfl, rfl, fun _ => rfl⟩
  refine ⟨twins, by decide +kernel, ?_⟩
  exact (twins_stay_equal ellSwiftChaChaPoly ellSwiftChaChaPoly_sealing.reopens _ twins
    keyedCourse).2.1

end Parties

end MiningPool.Noise
