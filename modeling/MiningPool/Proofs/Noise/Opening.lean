import MiningPool.Proofs.Noise.Genuine

/-!
# Opening texts one after the other

A cipher that opens sealed texts opens the first at its counter value and each other at the
next, and afterwards it stands behind the last.  What it opens is shorter by as many tags as
there are texts.
-/

namespace MiningPool.Noise

open MiningPool.Session MiningPool.Frame

/-- A direction opens sealed texts to texts, each at the counter value after the one before. -/
inductive OpensAll (suite : Suite) : Direction → List Bytes → List Bytes → Prop
  | nil
      (direction : Direction) :
      OpensAll suite direction [] []
  | cons
      (direction : Direction)
      (sealedText text : Bytes)
      (sealedTexts texts : List Bytes)
      (opened : suite.openText? direction.key direction.counter [] sealedText = some text)
      (others : OpensAll suite (direction.after 1) sealedTexts texts) :
      OpensAll suite direction (sealedText :: sealedTexts) (text :: texts)

variable {suite : Suite} {direction : Direction} {sealedTexts texts : List Bytes}

/-- Each text goes without its tag. -/
theorem OpensAll.length_flatten
    (tagged : suite.OpensTagged)
    (opens : OpensAll suite direction sealedTexts texts) :
    sealedTexts.flatten.length = texts.flatten.length + sealedTexts.length * tagSize := by
  induction opens with
  | nil => rfl
  | cons direction sealedText text _ _ opened _ ih =>
    have length := tagged _ _ _ _ _ opened
    rw [List.flatten_cons, List.flatten_cons, List.length_append, List.length_append,
      List.length_cons, ih, length, Nat.add_mul]
    omega

/-- Opening without failure moves the direction behind the last text. -/
theorem exists_opensAll_of_openChunks_eq_ok
    {bytes : Bytes}
    {transport later : Transport}
    (done : openChunks suite sealedTexts transport = .ok (bytes, later)) :
    ∃ texts,
      OpensAll suite transport.receiving sealedTexts texts ∧
      bytes = texts.flatten ∧
      transport.receiving.counter.toNat + sealedTexts.length < UInt64.size ∧
      later = { transport with receiving := transport.receiving.after sealedTexts.length } := by
  induction sealedTexts generalizing transport bytes with
  | nil =>
    cases done
    exact ⟨[], .nil _, rfl, later.receiving.counter.toNat_lt, by simp⟩
  | cons sealedText rest ih =>
    rcases first : transport.decrypt suite sealedText with failure | ⟨text, between⟩
    · simp [openChunks, first] at done
    obtain ⟨room, opened, rfl⟩ := of_decrypt_eq_ok first
    rcases others : openChunks suite rest
      { transport with receiving := transport.receiving.after 1 } with
        failure | ⟨openedRest, final⟩
    · simp [openChunks, first, others] at done
    simp only [openChunks, first, others, Except.ok.injEq, Prod.mk.injEq] at done
    obtain ⟨rfl, rfl⟩ := done
    obtain ⟨texts, opens, rfl, more, rfl⟩ := ih others
    rw [transport.receiving.toNat_counter_after 1 room] at more
    refine ⟨text :: texts, .cons _ _ _ _ _ opened opens, rfl, ?_, ?_⟩
    · rw [List.length_cons]
      omega
    · simp only [Direction.after_after, List.length_cons, Nat.add_comm]

end MiningPool.Noise
