import MiningPool.Proofs.Noise.Sealing
import MiningPool.Session.Codec

/-!
# Texts of one direction

The texts that travel in one direction are sealed at successive counter values, and the
other party opens them at the same values.  As long as the last counter value is not
reached, neither side fails, and both count the same number of texts.
-/

namespace MiningPool.Noise

open MiningPool.Session MiningPool.Frame

theorem ne_lastCounter
    (counter : UInt64)
    (room : counter.toNat + 1 < UInt64.size) :
    counter ≠ lastCounter := by
  rintro rfl
  exact absurd room (by decide)

namespace Direction

/-- The direction after some texts more. -/
def after (direction : Direction) (count : Nat) : Direction :=
  ⟨direction.key, direction.counter + UInt64.ofNat count⟩

@[simp]
theorem key_after (direction : Direction) (count : Nat) :
    (direction.after count).key = direction.key :=
  rfl

@[simp]
theorem after_zero (direction : Direction) : direction.after 0 = direction := by
  simp [after]

theorem after_after
    (direction : Direction)
    (first second : Nat) :
    (direction.after first).after second = direction.after (first + second) := by
  simp [after, UInt64.add_assoc]

/-- No count wraps around before the last counter value. -/
theorem toNat_counter_after
    (direction : Direction)
    (count : Nat)
    (room : direction.counter.toNat + count < UInt64.size) :
    (direction.after count).counter.toNat = direction.counter.toNat + count := by
  simp only [after, UInt64.toNat_add, UInt64.toNat_ofNat']
  simp only [UInt64.size] at room
  omega

/-- Seal texts at successive counter values. -/
def sealAll (suite : Suite) (direction : Direction) : List Bytes → List Bytes
  | [] => []
  | text :: rest =>
    suite.sealText direction.key direction.counter [] text :: sealAll suite (direction.after 1) rest

@[simp]
theorem length_sealAll
    (suite : Suite)
    (direction : Direction)
    (texts : List Bytes) :
    (direction.sealAll suite texts).length = texts.length := by
  induction texts generalizing direction with
  | nil => rfl
  | cons text rest ih => simp only [sealAll, List.length_cons, ih]

variable {suite : Suite}

/-- Every text grows by a tag. -/
theorem length_flatten_sealAll
    (sealing : suite.Sealing)
    (direction : Direction)
    (texts : List Bytes) :
    (direction.sealAll suite texts).flatten.length =
      texts.flatten.length + texts.length * tagSize := by
  induction texts generalizing direction with
  | nil => rfl
  | cons text rest ih =>
    simp only [sealAll, List.flatten_cons, List.length_append, sealing.length_sealText, ih,
      List.length_cons, Nat.add_mul]
    omega

/-- Full pieces stay full of what they hold and a tag. -/
theorem chunked_sealAll
    (sealing : suite.Sealing)
    (direction : Direction)
    (size : Nat)
    (texts : List Bytes)
    (chunked : Bytes.Chunked size texts) :
    Bytes.Chunked (size + tagSize) (direction.sealAll suite texts) := by
  induction texts generalizing direction with
  | nil => trivial
  | cons text rest ih =>
    obtain ⟨filled, fits, full, chunkedRest⟩ := chunked
    refine ⟨?_, ?_, ?_, ih _ chunkedRest⟩
    · rw [sealing.length_sealText]
      omega
    · rw [sealing.length_sealText]
      omega
    · intro more
      have left : rest ≠ [] := by
        rintro rfl
        exact more rfl
      rw [sealing.length_sealText, full left]

theorem encrypt_eq
    (direction receiving : Direction)
    (room : direction.counter.toNat + 1 < UInt64.size)
    (text : Bytes) :
    Transport.encrypt suite ⟨direction, receiving⟩ text =
      .ok (suite.sealText direction.key direction.counter [] text,
        ⟨direction.after 1, receiving⟩) := by
  have unused := ne_lastCounter direction.counter room
  simp only [Transport.encrypt, sealNext, unused, if_false]
  rfl

theorem decrypt_eq
    (sealing : suite.Sealing)
    (direction sending : Direction)
    (room : direction.counter.toNat + 1 < UInt64.size)
    (text : Bytes) :
    Transport.decrypt suite ⟨sending, direction⟩
        (suite.sealText direction.key direction.counter [] text) =
      .ok (text, ⟨sending, direction.after 1⟩) := by
  have unused := ne_lastCounter direction.counter room
  simp only [Transport.decrypt, openNext, unused, if_false, sealing.openText?_sealText]
  rfl

/-- Sealing texts one after the other does not fail before the last counter value. -/
theorem sealChunks_eq
    (direction receiving : Direction)
    (texts : List Bytes)
    (room : direction.counter.toNat + texts.length < UInt64.size) :
    sealChunks suite texts ⟨direction, receiving⟩ =
      .ok ((direction.sealAll suite texts).flatten,
        ⟨direction.after texts.length, receiving⟩) := by
  induction texts generalizing direction with
  | nil => simp [sealChunks, sealAll]
  | cons text rest ih =>
    rw [List.length_cons] at room
    have counted := direction.toNat_counter_after 1 (by omega)
    simp only [sealChunks, encrypt_eq direction receiving (by omega),
      ih (direction.after 1) (by omega), sealAll, after_after, List.flatten_cons,
      List.length_cons, Nat.add_comm]

/-- Opening what was sealed one after the other gives the texts. -/
theorem openChunks_eq
    (sealing : suite.Sealing)
    (direction sending : Direction)
    (texts : List Bytes)
    (room : direction.counter.toNat + texts.length < UInt64.size) :
    openChunks suite (direction.sealAll suite texts) ⟨sending, direction⟩ =
      .ok (texts.flatten, ⟨sending, direction.after texts.length⟩) := by
  induction texts generalizing direction with
  | nil => simp [openChunks, sealAll]
  | cons text rest ih =>
    rw [List.length_cons] at room
    have counted := direction.toNat_counter_after 1 (by omega)
    simp only [sealAll, openChunks, decrypt_eq sealing direction sending (by omega),
      ih (direction.after 1) (by omega), after_after, List.flatten_cons, List.length_cons,
      Nat.add_comm]

end Direction

end MiningPool.Noise
