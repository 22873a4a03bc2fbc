import MiningPool.Bytes

/-!
# Cutting bytes into chunks

Chunks put together again are the bytes they were cut from, and pieces that are all full
but the last are the chunks of what they make up.  The second statement is what a reader
relies on who cuts a text again that was sealed chunk by chunk.
-/

namespace MiningPool.Bytes

/-- Every piece holds something, none is too long, and all but the last are full. -/
def Chunked (size : Nat) : List Bytes → Prop
  | [] => True
  | piece :: rest =>
    0 < piece.length ∧ piece.length ≤ size ∧ (rest ≠ [] → piece.length = size) ∧
      Chunked size rest

theorem chunksOnto_eq
    (size : Nat)
    (bytes : Bytes)
    (taken : List Bytes) :
    chunksOnto size bytes taken = taken.reverse ++ chunks size bytes := by
  -- The cut goes on after the first chunk, so the induction is on what is left of the bytes.
  induction measured : bytes.length using Nat.strongRecOn generalizing bytes taken with
  | ind length ih =>
    cases bytes with
    | nil => simp [chunks, chunksOnto]
    | cons byte rest =>
      subst measured
      have shorter : (rest.drop (size - 1)).length < (byte :: rest).length := by
        simp only [List.length_drop, List.length_cons]
        omega
      rw [chunks, chunksOnto, chunksOnto, ih _ shorter _ _ rfl, ih _ shorter _ _ rfl]
      simp

@[simp]
theorem chunks_nil (size : Nat) : chunks size [] = [] := by
  simp [chunks, chunksOnto]

/-- The first chunk is cut off, and the rest is cut in the same way. -/
theorem chunks_eq
    (size : Nat)
    (positive : 0 < size)
    (bytes : Bytes)
    (nonempty : bytes ≠ []) :
    chunks size bytes = bytes.take size :: chunks size (bytes.drop size) := by
  obtain ⟨byte, rest, rfl⟩ := List.exists_cons_of_ne_nil nonempty
  obtain ⟨less, rfl⟩ : ∃ less, size = less + 1 := ⟨size - 1, by omega⟩
  rw [chunks, chunksOnto, chunksOnto_eq]
  simp

/-- What holds of nothing and passes from the bytes after a chunk to all of them holds. -/
theorem chunksInduction
    (size : Nat)
    (positive : 0 < size)
    {motive : Bytes → Prop}
    (nil : motive [])
    (step : ∀ bytes, bytes ≠ [] → motive (bytes.drop size) → motive bytes)
    (bytes : Bytes) :
    motive bytes := by
  induction measured : bytes.length using Nat.strongRecOn generalizing bytes with
  | ind length ih =>
    by_cases empty : bytes = []
    · exact empty ▸ nil
    · have shorter : (bytes.drop size).length < length := by
        have := List.length_pos_iff.mpr empty
        simp only [List.length_drop]
        omega
      exact step bytes empty (ih _ shorter _ rfl)

/-- The chunks put together are the bytes that were cut. -/
theorem flatten_chunks
    (size : Nat)
    (positive : 0 < size)
    (bytes : Bytes) :
    (chunks size bytes).flatten = bytes := by
  induction bytes using chunksInduction size positive with
  | nil => simp
  | step bytes nonempty ih =>
    rw [chunks_eq size positive bytes nonempty, List.flatten_cons, ih, List.take_append_drop]

theorem chunked_chunks
    (size : Nat)
    (positive : 0 < size)
    (bytes : Bytes) :
    Chunked size (chunks size bytes) := by
  induction bytes using chunksInduction size positive with
  | nil => simp [Chunked]
  | step bytes nonempty ih =>
    have filled := List.length_pos_iff.mpr nonempty
    rw [chunks_eq size positive bytes nonempty]
    refine ⟨?_, ?_, ?_, ih⟩
    · simp only [List.length_take]
      omega
    · simp only [List.length_take]
      omega
    · intro more
      have left : bytes.drop size ≠ [] := by
        intro empty
        simp [empty] at more
      have := List.length_pos_iff.mpr left
      simp only [List.length_drop] at this
      simp only [List.length_take]
      omega

/-- Pieces that are all full but the last are found again when what they make up is cut. -/
theorem chunks_flatten
    (size : Nat)
    (pieces : List Bytes)
    (chunked : Chunked size pieces) :
    chunks size pieces.flatten = pieces := by
  induction pieces with
  | nil => simp
  | cons piece rest ih =>
    obtain ⟨filled, fits, full, chunkedRest⟩ := chunked
    have nonempty : piece ++ rest.flatten ≠ [] := by
      intro empty
      simp [(List.append_eq_nil_iff.mp empty).1] at filled
    rw [List.flatten_cons, chunks_eq size (by omega) _ nonempty]
    by_cases last : rest = []
    · subst last
      simp [List.take_of_length_le fits, List.drop_of_length_le fits]
    · have size_eq := full last
      rw [← size_eq, List.take_left, List.drop_left, size_eq, ih chunkedRest]

/-- Cutting takes as many chunks as it takes to hold all bytes. -/
theorem length_chunks
    (size : Nat)
    (positive : 0 < size)
    (bytes : Bytes) :
    (chunks size bytes).length = (bytes.length + size - 1) / size := by
  induction bytes using chunksInduction size positive with
  | nil =>
    simp only [chunks_nil, List.length_nil]
    exact (Nat.div_eq_of_lt (by omega)).symm
  | step bytes nonempty ih =>
    have filled := List.length_pos_iff.mpr nonempty
    rw [chunks_eq size positive bytes nonempty, List.length_cons, ih, List.length_drop]
    by_cases more : size ≤ bytes.length
    · have shift : bytes.length + size - 1 = (bytes.length - size + size - 1) + size := by omega
      rw [shift, Nat.add_div_right _ positive]
    · have nothingLeft : bytes.length - size + size - 1 = size - 1 := by omega
      have shift : bytes.length + size - 1 = (bytes.length - 1) + size := by omega
      rw [nothingLeft, shift, Nat.add_div_right _ positive,
        Nat.div_eq_of_lt (by omega : size - 1 < size),
        Nat.div_eq_of_lt (by omega : bytes.length - 1 < size)]

end MiningPool.Bytes
