import MiningPool.Cipher.Sealed
import MiningPool.Proofs.Bytes.Chunks

/-!
# Opening undoes sealing

The keystream covers every text, and combining a text with it twice gives the text back.
A sealed text is longer than the text by the tag, and it is opened to the text under the
same key, nonce and associated data.
-/

namespace MiningPool

namespace Bytes

/-- What a byte string covers is restored by combining with it twice. -/
theorem xor_xor
    (text stream : Bytes)
    (covered : text.length ≤ stream.length) :
    (text.xor stream).xor stream = text := by
  induction text generalizing stream with
  | nil => simp [xor]
  | cons byte text ih =>
    cases stream with
    | nil => simp at covered
    | cons mask stream =>
      have rest := ih stream (by simpa using covered)
      simp only [xor, List.zipWith_cons_cons, List.cons.injEq] at rest ⊢
      exact ⟨by rw [UInt8.xor_assoc, UInt8.xor_self, UInt8.xor_zero], rest⟩

theorem length_xor
    (text stream : Bytes)
    (covered : text.length ≤ stream.length) :
    (text.xor stream).length = text.length := by
  simp [xor, Nat.min_eq_left covered]

end Bytes

namespace Cipher

namespace ChaCha20

@[simp]
theorem length_fitTo (length : Nat) (bytes : Bytes) : (fitTo length bytes).length = length := by
  simp [fitTo]

theorem length_wordsOf (bytes : Bytes) : (wordsOf bytes).length = (bytes.length + 3) / 4 := by
  simp [wordsOf, Bytes.length_chunks 4 (by omega)]

@[simp]
theorem size_start (key nonce : Bytes) (number : Nat) : (start key nonce number).size = 16 := by
  simp [start, length_wordsOf]

@[simp]
theorem size_quarter
    (words : Array UInt32)
    (first second third fourth : Nat) :
    (quarter words first second third fourth).size = words.size := by
  simp [quarter]

@[simp]
theorem size_doubleRounds
    (count : Nat)
    (words : Array UInt32) :
    (doubleRounds count words).size = words.size := by
  induction count generalizing words with
  | zero => rfl
  | succ count ih => simp [doubleRounds, ih, doubleRound]

theorem length_bytesOfWords (words : List UInt32) :
    (words.flatMap fun word => Bytes.ofNatLE 4 word.toNat).length = words.length * 4 := by
  simp [List.length_flatMap, List.map_const']

theorem length_block (key nonce : Bytes) (number : Nat) : (block key nonce number).length = 64 := by
  rw [block, length_bytesOfWords]
  simp

/-- The keystream covers the length it is made for. -/
theorem length_le_keystream
    (key nonce : Bytes)
    (number length : Nat) :
    length ≤ (keystream key nonce number length).length := by
  have total : (keystream key nonce number length).length = (length + 63) / 64 * 64 := by
    simp [keystream, List.length_flatMap, length_block, List.map_const']
  omega

@[simp]
theorem length_combine
    (key nonce : Bytes)
    (number : Nat)
    (text : Bytes) :
    (combine key nonce number text).length = text.length :=
  Bytes.length_xor _ _ (length_le_keystream _ _ _ _)

/-- Decrypting is encrypting once more. -/
theorem combine_combine
    (key nonce : Bytes)
    (number : Nat)
    (text : Bytes) :
    combine key nonce number (combine key nonce number text) = text := by
  rw [combine, length_combine, combine]
  exact Bytes.xor_xor _ _ (length_le_keystream _ _ _ _)

end ChaCha20

@[simp]
theorem length_tagOf
    (key nonce associated ciphertext : Bytes) :
    (tagOf key nonce associated ciphertext).length = 16 := by
  simp [tagOf, Poly1305.tag]

@[simp]
theorem length_sealText
    (key nonce associated text : Bytes) :
    (sealText key nonce associated text).length = text.length + 16 := by
  simp [sealText]

/-- What was sealed is opened. -/
theorem openText?_sealText
    (key nonce associated text : Bytes) :
    openText? key nonce associated (sealText key nonce associated text) = some text := by
  have long : ¬ (sealText key nonce associated text).length < 16 := by simp
  have front : (sealText key nonce associated text).length - 16 =
      (ChaCha20.combine key nonce 1 text).length := by simp
  rw [openText?, if_neg long, front, sealText]
  simp [ChaCha20.combine_combine]

/-- What is opened is shorter by the tag. -/
theorem length_of_openText?_eq_some
    {key nonce associated sealedText text : Bytes}
    (opened : openText? key nonce associated sealedText = some text) :
    sealedText.length = text.length + 16 := by
  by_cases short : sealedText.length < 16
  · simp [openText?, short] at opened
  · simp only [openText?, short, if_false] at opened
    split at opened
    next =>
      obtain rfl := Option.some.inj opened
      rw [ChaCha20.length_combine, List.length_take]
      omega
    next => cases opened

end Cipher

end MiningPool
