import MiningPool.Proofs.Noise.Genuine
import Mathlib.Data.List.Nodup

/-!
# Counting the uses of ciphers

Each party has two ciphers, one that seals and one that opens, and each of them has a counter
of its own.  A run of calls puts texts through the two in any order; a call that fails leaves
the ciphers as they are.  Every use is recorded with the counter value at which it found its
cipher.

Main result: the counter values that are taken of a cipher are the successive ones from where
it started, up to where it stands, and the last counter value is never among them.
-/

namespace MiningPool.Noise

open MiningPool.Session

/-- The two ciphers of a party. -/
inductive Side
  | sending
  | receiving
  deriving DecidableEq, Repr

/-- A text that is put through one of the ciphers. -/
structure Call where
  side : Side
  text : Bytes
  deriving DecidableEq, Repr

/-- What a cipher answers to a call under a key at a counter value. -/
def Call.answer
    (suite : Suite)
    (call : Call)
    (key : Bytes)
    (counter : UInt64) :
    Except NoiseError Bytes :=
  if counter = lastCounter then .error .nonceExhausted
  else
    match call.side with
    | .sending => .ok (suite.sealText key counter [] call.text)
    | .receiving =>
      match suite.openText? key counter [] call.text with
      | none => .error .unauthentic
      | some text => .ok text

/-- A call, the counter value at which it found its cipher, and what it was answered. -/
structure Use where
  call : Call
  counter : UInt64
  answer : Except NoiseError Bytes

/-- The bytes that stand for a counter value stand for no other. -/
theorem nonceBytes_injective : Function.Injective nonceBytes := by
  intro first second same
  apply UInt64.toNat_inj.mp
  have tails : Bytes.ofNatLE 8 first.toNat = Bytes.ofNatLE 8 second.toNat :=
    List.append_cancel_left same
  have numbers := congrArg Bytes.toNatLE tails
  have capacity : Bytes.capacity 8 = 2 ^ 64 := by decide
  rwa [Bytes.toNatLE_ofNatLE, Bytes.toNatLE_ofNatLE, capacity,
    Nat.mod_eq_of_lt first.toNat_lt, Nat.mod_eq_of_lt second.toNat_lt] at numbers

namespace Use

/-- Whether a use takes a counter value of a cipher. -/
def takes (side : Side) (use : Use) : Bool :=
  use.call.side = side && use.answer.isOk

theorem takes_iff (side : Side) (use : Use) :
    use.takes side ↔ use.call.side = side ∧ use.answer.isOk := by
  rw [takes, Bool.and_eq_true, decide_eq_true_eq]

/-- The counter values of a cipher that are taken. -/
def counters (side : Side) (uses : List Use) : List UInt64 :=
  (uses.filter (·.takes side)).map counter

theorem counters_cons
    (side : Side)
    (use : Use)
    (rest : List Use) :
    counters side (use :: rest) =
      (if use.takes side then [use.counter] else []) ++ counters side rest := by
  rw [counters, List.filter_cons]
  split <;> rfl

end Use

namespace Transport

/-- One of the ciphers. -/
def direction (transport : Transport) : Side → Direction
  | .sending => transport.sending
  | .receiving => transport.receiving

/-- The ciphers after texts more were put through one of them. -/
def advance (transport : Transport) (count : Nat) : Side → Transport
  | .sending => { transport with sending := transport.sending.after count }
  | .receiving => { transport with receiving := transport.receiving.after count }

/-- Put a text through one of the ciphers. -/
def call
    (suite : Suite)
    (transport : Transport)
    (call : Call) :
    Except NoiseError (Bytes × Transport) :=
  match call.side with
  | .sending => transport.encrypt suite call.text
  | .receiving => transport.decrypt suite call.text

/-- The ciphers after a call; one that fails leaves them as they are. -/
def afterCall (suite : Suite) (transport : Transport) (call : Call) : Transport :=
  match transport.call suite call with
  | .error _ => transport
  | .ok (_, later) => later

/-- The use that a call makes of its cipher. -/
def use (suite : Suite) (transport : Transport) (call : Call) : Use :=
  ⟨call, (transport.direction call.side).counter, (transport.call suite call).map Prod.fst⟩

/-- The ciphers after a run of calls. -/
def afterCalls (suite : Suite) (transport : Transport) (calls : List Call) : Transport :=
  calls.foldl (afterCall suite) transport

/-- The uses that a run of calls makes of the ciphers. -/
def uses (suite : Suite) : Transport → List Call → List Use
  | _, [] => []
  | transport, call :: rest =>
    transport.use suite call :: uses suite (transport.afterCall suite call) rest

section

variable (suite : Suite) (transport : Transport)

@[simp]
theorem afterCalls_nil : transport.afterCalls suite [] = transport :=
  rfl

@[simp]
theorem afterCalls_cons (call : Call) (rest : List Call) :
    transport.afterCalls suite (call :: rest) =
      (transport.afterCall suite call).afterCalls suite rest :=
  rfl

theorem afterCalls_append (first second : List Call) :
    transport.afterCalls suite (first ++ second) =
      (transport.afterCalls suite first).afterCalls suite second :=
  List.foldl_append

theorem uses_append (first second : List Call) :
    transport.uses suite (first ++ second) =
      transport.uses suite first ++ (transport.afterCalls suite first).uses suite second := by
  induction first generalizing transport with
  | nil => rfl
  | cons call rest ih =>
    rw [List.cons_append, uses, uses, ih, afterCalls_cons, List.cons_append]

/-! ## One call -/

/-- A call is answered by the cipher at its counter value, and takes it if it succeeds. -/
theorem call_eq (call : Call) :
    transport.call suite call =
      (call.answer suite (transport.direction call.side).key
        (transport.direction call.side).counter).map
          fun answer => (answer, transport.advance 1 call.side) := by
  obtain ⟨side, text⟩ := call
  cases side with
  | sending =>
    by_cases exhausted : transport.sending.counter = lastCounter
    · simp only [Transport.call, encrypt, sealNext, Call.answer, direction, exhausted, if_true]
      rfl
    · simp only [Transport.call, encrypt, sealNext, Call.answer, direction, exhausted, if_false]
      rfl
  | receiving =>
    by_cases exhausted : transport.receiving.counter = lastCounter
    · simp only [Transport.call, decrypt, openNext, Call.answer, direction, exhausted, if_true]
      rfl
    · simp only [Transport.call, decrypt, openNext, Call.answer, direction, exhausted, if_false]
      cases suite.openText? transport.receiving.key transport.receiving.counter [] text <;> rfl

theorem answer_use (call : Call) :
    (transport.use suite call).answer =
      call.answer suite (transport.direction call.side).key
        (transport.direction call.side).counter := by
  rw [use, call_eq]
  cases call.answer suite (transport.direction call.side).key _ <;> rfl

theorem direction_advance
    (count : Nat)
    (advanced side : Side) :
    (transport.advance count advanced).direction side =
      (transport.direction side).after (if advanced = side then count else 0) := by
  cases advanced <;> cases side <;> simp [advance, direction]

/-- A cipher moves on by one counter value if the call takes one of it, and else not at all. -/
theorem direction_afterCall
    (call : Call)
    (side : Side) :
    (transport.afterCall suite call).direction side =
      (transport.direction side).after
        (if (transport.use suite call).takes side then 1 else 0) := by
  rw [afterCall, Use.takes, answer_use, call_eq]
  cases call.answer suite (transport.direction call.side).key _ with
  | error failure => simp [Except.map, Except.isOk, Except.toBool]
  | ok answer =>
    show (transport.advance 1 call.side).direction side = _
    rw [direction_advance]
    by_cases same : call.side = side
    · simp [use, same, Except.isOk, Except.toBool]
    · simp [use, same, Except.isOk, Except.toBool]

/-- A use that takes a counter value finds the cipher at one that is not the last. -/
theorem room_of_takes
    (call : Call)
    (side : Side)
    (taken : (transport.use suite call).takes side) :
    (transport.direction side).counter.toNat + 1 < UInt64.size := by
  rw [Use.takes_iff, answer_use] at taken
  obtain ⟨same, succeeds⟩ := taken
  obtain rfl : call.side = side := same
  apply toNat_succ_lt_of_ne_lastCounter
  intro exhausted
  rw [Call.answer, if_pos exhausted] at succeeds
  cases succeeds

/-! ## Runs of calls -/

/--
The counter values that a run of calls takes of a cipher are the successive ones from where
the cipher stood, and as many as the run moves the cipher on.
-/
theorem counted_uses
    (calls : List Call)
    (side : Side) :
    let taken := Use.counters side (transport.uses suite calls)
    taken.map UInt64.toNat =
        List.range' (transport.direction side).counter.toNat taken.length ∧
      (transport.afterCalls suite calls).direction side =
        (transport.direction side).after taken.length ∧
      (transport.direction side).counter.toNat + taken.length < UInt64.size := by
  induction calls generalizing transport with
  | nil => exact ⟨rfl, ((transport.direction side).after_zero).symm, UInt64.toNat_lt _⟩
  | cons call rest ih =>
    have step := transport.direction_afterCall suite call side
    obtain ⟨successive, moved, room⟩ := ih (transport.afterCall suite call)
    rw [uses, Use.counters_cons, afterCalls_cons]
    cases taken : (transport.use suite call).takes side with
    | false =>
      rw [taken, if_neg Bool.false_ne_true, Direction.after_zero] at step
      rw [step] at successive moved room
      exact ⟨successive, moved, room⟩
    | true =>
      have free := transport.room_of_takes suite call side taken
      have found : (transport.use suite call).counter = (transport.direction side).counter := by
        obtain ⟨same, -⟩ := (Use.takes_iff side _).mp taken
        rw [← same]
        rfl
      rw [taken, if_pos rfl] at step
      rw [step, Direction.toNat_counter_after _ 1 free] at successive room
      rw [step, Direction.after_after] at moved
      refine ⟨?_, ?_, ?_⟩
      · rw [if_pos rfl, List.singleton_append, List.map_cons, found, successive, List.length_cons,
          List.range'_succ]
      · rw [moved, if_pos rfl, List.singleton_append, List.length_cons, Nat.add_comm]
      · rw [if_pos rfl, List.singleton_append, List.length_cons]
        omega

/-- No two texts are put through a cipher with the same nonce. -/
theorem nodup_nonces
    (calls : List Call)
    (side : Side) :
    ((Use.counters side (transport.uses suite calls)).map nonceBytes).Nodup := by
  apply List.Nodup.map nonceBytes_injective
  apply List.Nodup.of_map UInt64.toNat
  rw [(transport.counted_uses suite calls side).1]
  exact List.nodup_range'

/-- The last counter value is never taken. -/
theorem lastCounter_not_mem_counters
    (calls : List Call)
    (side : Side) :
    lastCounter ∉ Use.counters side (transport.uses suite calls) := by
  intro member
  obtain ⟨successive, -, room⟩ := transport.counted_uses suite calls side
  have inside : lastCounter.toNat ∈
      (Use.counters side (transport.uses suite calls)).map UInt64.toNat :=
    List.mem_map_of_mem member
  rw [successive, List.mem_range'_1] at inside
  have last : lastCounter.toNat + 1 = UInt64.size := by decide
  omega

/-- Every use is answered by its cipher, under the key that the cipher had from the start. -/
theorem answer_of_mem_uses
    (calls : List Call)
    (use : Use)
    (member : use ∈ transport.uses suite calls) :
    use.answer =
      use.call.answer suite (transport.direction use.call.side).key use.counter := by
  induction calls generalizing transport with
  | nil => cases member
  | cons call rest ih =>
    rw [uses, List.mem_cons] at member
    rcases member with rfl | member
    · exact transport.answer_use suite call
    · rw [ih _ member, direction_afterCall]
      rfl

/-! ## Texts one after the other -/

/-- Put texts through one of the ciphers one after the other, up to the first failure. -/
def through
    (side : Side) :
    Transport → List Bytes → Except NoiseError (Bytes × Transport)
  | transport, [] => .ok ([], transport)
  | transport, text :: rest =>
    match transport.call suite ⟨side, text⟩ with
    | .error failure => .error failure
    | .ok (answer, transport) =>
      match through side transport rest with
      | .error failure => .error failure
      | .ok (answers, transport) => .ok (answer ++ answers, transport)

/-- The calls that this takes. -/
def stretch (side : Side) : Transport → List Bytes → List Call
  | _, [] => []
  | transport, text :: rest =>
    ⟨side, text⟩ ::
      match transport.call suite ⟨side, text⟩ with
      | .error _ => []
      | .ok (_, later) => stretch side later rest

theorem through_sending (texts : List Bytes) :
    transport.through suite .sending texts = sealChunks suite texts transport := by
  induction texts generalizing transport with
  | nil => rfl
  | cons text rest ih =>
    simp only [through, sealChunks, ih]
    rfl

theorem through_receiving (texts : List Bytes) :
    transport.through suite .receiving texts = openChunks suite texts transport := by
  induction texts generalizing transport with
  | nil => rfl
  | cons text rest ih =>
    simp only [through, openChunks, ih]
    rfl

/-- Texts for which there are counter values are sealed at the next ones. -/
theorem answers_stretch_sending
    (texts : List Bytes)
    (room : transport.sending.counter.toNat + texts.length < UInt64.size) :
    (transport.uses suite (transport.stretch suite .sending texts)).map Use.answer =
      (transport.sending.sealAll suite texts).map .ok := by
  induction texts generalizing transport with
  | nil => rfl
  | cons text rest ih =>
    rw [List.length_cons] at room
    have counted := transport.sending.toNat_counter_after 1 (by omega)
    have first : transport.call suite ⟨.sending, text⟩ = _ :=
      transport.sending.encrypt_eq transport.receiving (by omega) text
    have others := ih ⟨transport.sending.after 1, transport.receiving⟩ (by
      show (transport.sending.after 1).counter.toNat + rest.length < UInt64.size
      omega)
    simp only [stretch, uses, afterCall, use, first, List.map_cons, others]
    rfl

end

section

variable {suite : Suite} {transport : Transport} {failure : NoiseError}

/-- Sealing fails for want of counter values only. -/
theorem of_encrypt_eq_error
    {text : Bytes}
    (refused : transport.encrypt suite text = .error failure) :
    failure = .nonceExhausted := by
  by_cases exhausted : transport.sending.counter = lastCounter
  · simp only [encrypt, sealNext, exhausted, if_true] at refused
    cases refused
    rfl
  · simp only [encrypt, sealNext, exhausted, if_false] at refused
    cases refused

theorem of_sealChunks_eq_error
    {texts : List Bytes}
    (refused : sealChunks suite texts transport = .error failure) :
    failure = .nonceExhausted := by
  induction texts generalizing transport with
  | nil => cases refused
  | cons text rest ih =>
    rcases first : transport.encrypt suite text with other | ⟨sealedText, between⟩
    · simp only [sealChunks, first] at refused
      cases refused
      exact of_encrypt_eq_error first
    rcases others : sealChunks suite rest between with other | final
    · simp only [sealChunks, first, others] at refused
      cases refused
      exact ih others
    · simp only [sealChunks, first, others] at refused
      cases refused

end

end Transport

end MiningPool.Noise
