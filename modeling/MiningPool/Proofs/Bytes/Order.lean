import MiningPool.Bytes

/-!
# Numbers with the most significant byte first

A number that is not too large for the bytes it is written in is read back from them, and
byte strings of one length are in the order of the numbers that they stand for.
-/

namespace MiningPool.Bytes

@[simp]
theorem length_ofNatBE (count value : Nat) :
    (ofNatBE count value).length = count := by
  rw [ofNatBE, List.length_reverse, length_ofNatLE]

theorem toNatBE_reverse (bytes : Bytes) :
    toNatBE bytes.reverse = toNatLE bytes := by
  rw [toNatBE, List.foldl_reverse]
  induction bytes with
  | nil => rfl
  | cons byte rest ih => rw [List.foldr_cons, ih, toNatLE, Nat.add_comm]

theorem toNatBE_ofNatBE (count value : Nat) :
    toNatBE (ofNatBE count value) = value % capacity count := by
  rw [ofNatBE, toNatBE_reverse, toNatLE_ofNatLE]

/-- The bytes that are still to come shift the value of those before. -/
theorem foldl_toNatBE (bytes : Bytes) (value : Nat) :
    bytes.foldl (fun value byte => 256 * value + byte.toNat) value =
      value * capacity bytes.length + bytes.toNatBE := by
  induction bytes generalizing value with
  | nil => simp [toNatBE, capacity]
  | cons byte rest ih =>
    simp only [toNatBE, List.foldl_cons, List.length_cons, capacity_succ]
    rw [ih, ih (256 * 0 + byte.toNat), Nat.add_mul, Nat.mul_zero, Nat.zero_add, Nat.add_assoc,
      Nat.mul_left_comm value 256, Nat.mul_assoc]

theorem toNatBE_cons (byte : UInt8) (rest : Bytes) :
    toNatBE (byte :: rest) = byte.toNat * capacity rest.length + toNatBE rest := by
  rw [toNatBE, List.foldl_cons, foldl_toNatBE, Nat.mul_zero, Nat.zero_add]

theorem toNatBE_lt (bytes : Bytes) :
    toNatBE bytes < capacity bytes.length := by
  have bound := toNatLE_lt bytes.reverse
  rwa [← toNatBE_reverse, List.reverse_reverse, List.length_reverse] at bound

/-- What stands first decides, as long as what follows is smaller than its unit. -/
theorem leading_lt_iff
    {first second low high unit : Nat}
    (lowBound : low < unit)
    (highBound : high < unit) :
    first * unit + low < second * unit + high ↔
      first < second ∨ first = second ∧ low < high := by
  rcases Nat.lt_trichotomy first second with less | rfl | more
  · have gap : first * unit + unit ≤ second * unit := by
      rw [← Nat.succ_mul]
      exact Nat.mul_le_mul_right unit less
    exact iff_of_true (by omega) (.inl less)
  · simp
  · have gap : second * unit + unit ≤ first * unit := by
      rw [← Nat.succ_mul]
      exact Nat.mul_le_mul_right unit more
    refine iff_of_false (by omega) ?_
    omega

/-- Byte strings of one length are ordered as the numbers that they stand for. -/
theorem lt_iff_toNatBE_lt
    (left right : Bytes)
    (length : left.length = right.length) :
    left < right ↔ left.toNatBE < right.toNatBE := by
  induction left generalizing right with
  | nil =>
    obtain rfl := List.length_eq_zero_iff.mp length.symm
    simp
  | cons byte rest ih =>
    cases right with
    | nil => cases length
    | cons other after =>
      have same : rest.length = after.length := Nat.succ.inj length
      have restBound := toNatBE_lt rest
      rw [same] at restBound
      rw [List.cons_lt_cons_iff, toNatBE_cons, toNatBE_cons, same,
        leading_lt_iff restBound (toNatBE_lt after), ih after same, UInt8.lt_iff_toNat_lt,
        UInt8.toNat_inj]

end MiningPool.Bytes
