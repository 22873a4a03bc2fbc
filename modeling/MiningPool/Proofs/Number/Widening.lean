import MiningPool.Difficulty
import Mathlib

/-!
# Widening rates

The rates that a miner announces and a pool expects have single precision, and what is
computed of them has double precision.  Widening keeps what makes a number a rate: it is
above zero and finite in one format exactly when it is in the other.  Both are read off the
bits, so a rate that settings are checked for is one that targets can be computed of.
-/

namespace MiningPool.Number

open Float.Model (UnpackedFloat)
open Float.Model.UnpackedFloat

namespace Format

/-! ## Rounding -/

section Round

variable
  (format : Format)
  (numerator denominator : Nat)

theorem leading_pos : 0 < format.leading := by
  rw [leading, Nat.one_shiftLeft]
  exact Nat.two_pow_pos _

theorem div_le_roundDivide : numerator / denominator ≤ roundDivide numerator denominator := by
  unfold roundDivide
  dsimp only
  split
  · exact Nat.le_refl _
  · split <;> omega

theorem roundDivide_le : roundDivide numerator denominator ≤ numerator / denominator + 1 := by
  unfold roundDivide
  dsimp only
  split
  · omega
  · split <;> omega

theorem exponentOf_le :
    format.exponentOf numerator denominator ≤
      numerator.log2 - (denominator.log2 + format.precision) + 1 := by
  unfold exponentOf
  dsimp only
  split <;> omega

/-- With its exponent a quotient has a mantissa of the full width at most. -/
theorem div_exponentOf_lt
    (positive : 0 < denominator) :
    numerator / (denominator <<< format.exponentOf numerator denominator) <
      2 ^ format.precision := by
  unfold exponentOf
  dsimp only
  split
  next narrow => rwa [Nat.one_shiftLeft] at narrow
  next wide =>
    -- One bit more is always enough, by the lengths of numerator and denominator.
    generalize steps : numerator.log2 - (denominator.log2 + format.precision) = estimate
    have above : numerator < 2 ^ (numerator.log2 + 1) := Nat.lt_log2_self
    have below : 2 ^ denominator.log2 ≤ denominator := Nat.log2_self_le (by omega)
    refine Nat.div_lt_of_lt_mul ?_
    rw [Nat.shiftLeft_eq]
    calc numerator
      _ < 2 ^ (numerator.log2 + 1) := above
      _ ≤ 2 ^ (denominator.log2 + (estimate + 1) + format.precision) :=
        Nat.pow_le_pow_right (by decide) (by omega)
      _ = 2 ^ denominator.log2 * 2 ^ (estimate + 1) * 2 ^ format.precision := by
        rw [Nat.pow_add, Nat.pow_add]
      _ ≤ denominator * 2 ^ (estimate + 1) * 2 ^ format.precision :=
        Nat.mul_le_mul_right _ (Nat.mul_le_mul_right _ below)

/-- A quotient that reaches the least positive number is not rounded to zero. -/
theorem round_pos
    (positive : 0 < denominator)
    (reaches : denominator ≤ numerator <<< format.depth)
    (unbounded : 0 < format.infinity) :
    0 < format.round numerator denominator := by
  unfold round
  dsimp only
  refine Nat.lt_min.mpr ⟨?_, unbounded⟩
  generalize format.exponentOf (numerator <<< format.depth) denominator = exponent
  cases exponent with
  | zero =>
    have quotient := (Nat.one_le_div_iff positive).mpr reaches
    have rounded := div_le_roundDivide (numerator <<< format.depth) denominator
    rw [Nat.shiftLeft_zero]
    omega
  | succ exponent =>
    exact Nat.add_pos_left (Nat.mul_pos (Nat.succ_pos exponent) format.leading_pos) _

/-- A quotient with a small exponent is not rounded to infinity. -/
theorem round_lt
    (positive : 0 < denominator)
    (bound : Nat)
    (small : (numerator <<< format.depth).log2 - (denominator.log2 + format.precision) < bound)
    (finite : bound * format.leading + 2 ^ format.precision < format.infinity) :
    format.round numerator denominator < format.infinity := by
  unfold round
  dsimp only
  have steps := format.exponentOf_le (numerator <<< format.depth) denominator
  have width := format.div_exponentOf_lt (numerator <<< format.depth) denominator positive
  generalize format.exponentOf (numerator <<< format.depth) denominator = exponent at steps width ⊢
  have rounded := roundDivide_le (numerator <<< format.depth) (denominator <<< exponent)
  have product : exponent * format.leading ≤ bound * format.leading :=
    Nat.mul_le_mul_right _ (by omega)
  exact Nat.lt_of_le_of_lt (Nat.min_le_left _ _) (by omega)

end Round

/-! ## Single and double precision -/

/-- The mantissa of a number above zero is above zero. -/
theorem parts_fst_pos
    (format : Format)
    (magnitude : Nat)
    (positive : 0 < magnitude) :
    0 < (format.parts magnitude).1 := by
  unfold parts
  dsimp only
  split
  next small =>
    have below := (Nat.div_eq_zero_iff_lt format.leading_pos).mp small
    rwa [Nat.mod_eq_of_lt below]
  next => exact Nat.add_pos_right _ format.leading_pos

theorem parts_single_lt
    (magnitude : Nat)
    (finite : magnitude < single.infinity) :
    (single.parts magnitude).1 < 2 ^ 24 ∧ (single.parts magnitude).2 ≤ 253 := by
  have weight : single.leading = 2 ^ 23 := by decide
  have limit : single.infinity = 255 * 2 ^ 23 := by decide
  unfold parts
  dsimp only
  rw [weight]
  split
  · exact ⟨by omega, by omega⟩
  · exact ⟨by omega, by omega⟩

theorem log2_shiftLeft_lt
    {mantissa exponent width steps : Nat}
    (positive : 0 < mantissa)
    (narrow : mantissa < 2 ^ width)
    (few : exponent ≤ steps)
    (depth : Nat) :
    (mantissa <<< exponent <<< depth).log2 < width + steps + depth := by
  rw [Nat.shiftLeft_eq, Nat.shiftLeft_eq]
  have scaled : 0 < mantissa * 2 ^ exponent * 2 ^ depth :=
    Nat.mul_pos (Nat.mul_pos positive (Nat.two_pow_pos _)) (Nat.two_pow_pos _)
  refine (Nat.log2_lt (Nat.pos_iff_ne_zero.mp scaled)).mpr ?_
  rw [Nat.pow_add, Nat.pow_add]
  refine Nat.mul_lt_mul_of_pos_right ?_ (Nat.two_pow_pos _)
  exact Nat.mul_lt_mul_of_lt_of_le narrow (Nat.pow_le_pow_right (by decide) few)
    (Nat.two_pow_pos _)

/-- Singles reach neither end of the range of doubles. -/
theorem round_scaled
    {mantissa exponent : Nat}
    (positive : 0 < mantissa)
    (narrow : mantissa < 2 ^ 24)
    (few : exponent ≤ 253) :
    0 < double.round (mantissa <<< exponent) (1 <<< single.depth) ∧
      double.round (mantissa <<< exponent) (1 <<< single.depth) < double.infinity := by
  rw [Nat.one_shiftLeft]
  constructor
  · refine double.round_pos _ _ (Nat.two_pow_pos _) ?_ (by decide)
    rw [Nat.shiftLeft_eq, Nat.shiftLeft_eq]
    have depths : 2 ^ single.depth ≤ 2 ^ double.depth :=
      Nat.pow_le_pow_right (by decide) (by decide)
    exact Nat.le_trans depths
      (Nat.le_mul_of_pos_left _ (Nat.mul_pos positive (Nat.two_pow_pos _)))
  · -- The numerator has at most 24 + 253 + 1074 bits, of which 149 and 53 are no exponent.
    refine double.round_lt _ _ (Nat.two_pow_pos _) 1149 ?_ (by decide)
    have length := log2_shiftLeft_lt positive narrow few double.depth
    have widths : double.depth = 1074 ∧ double.precision = 53 ∧ single.depth = 149 := by decide
    rw [Nat.log2_two_pow]
    omega

/-- A number above zero and below infinity is so in double precision too. -/
theorem round_single
    (magnitude : Nat)
    (positive : 0 < magnitude)
    (finite : magnitude < single.infinity) :
    0 < double.round (single.fraction magnitude).1 (single.fraction magnitude).2 ∧
      double.round (single.fraction magnitude).1 (single.fraction magnitude).2 <
        double.infinity := by
  obtain ⟨narrow, few⟩ := parts_single_lt magnitude finite
  exact round_scaled (single.parts_fst_pos magnitude positive) narrow few

theorem isPositiveFinite_iff (format : Format) (bits : Nat) :
    format.isPositiveFinite bits = true ↔
      format.isNegative bits = false ∧
        0 < format.magnitude bits ∧ format.magnitude bits < format.infinity := by
  simp only [isPositiveFinite, isFinite, Bool.and_eq_true, Bool.not_eq_true', decide_eq_true_eq,
    bne_iff_ne, Nat.pos_iff_ne_zero, and_assoc]
  exact and_congr_right' and_comm

theorem isPositiveFinite_withSign
    (format : Format)
    (negative : Bool)
    (magnitude : Nat)
    (unsigned : magnitude < format.signWeight) :
    format.isPositiveFinite (format.withSign negative magnitude) = true ↔
      negative = false ∧ 0 < magnitude ∧ magnitude < format.infinity := by
  rw [isPositiveFinite_iff]
  cases negative with
  | true => simp [isNegative, withSign]
  | false => simp [isNegative, withSign, Format.magnitude, Nat.mod_eq_of_lt, unsigned]

/-- Widening keeps the sign, and the magnitude is positive and finite if it was. -/
theorem exists_convert (bits : Nat) :
    ∃ magnitude,
      single.convert double bits = double.withSign (single.isNegative bits) magnitude ∧
      magnitude < double.signWeight ∧
      (0 < magnitude ∧ magnitude < double.infinity ↔
        0 < single.magnitude bits ∧ single.magnitude bits < single.infinity) := by
  refine ⟨_, rfl, ?_⟩
  generalize single.magnitude bits = magnitude
  split
  next odd =>
    exact ⟨by decide, iff_of_false (by decide) fun finite => by omega⟩
  · split
    next infinite =>
      exact ⟨by decide, iff_of_false (by decide) fun finite => by omega⟩
    next other =>
      dsimp only
      have finite : magnitude < single.infinity := by omega
      cases magnitude with
      | zero => decide
      | succ less =>
        have rounded := round_single (less + 1) (Nat.succ_pos less) finite
        have range : double.infinity < double.signWeight := by decide
        exact ⟨Nat.lt_trans rounded.2 range, iff_of_true rounded ⟨Nat.succ_pos less, finite⟩⟩

theorem convert_lt (bits : Nat) : single.convert double bits < 2 ^ 64 := by
  obtain ⟨magnitude, same, unsigned, -⟩ := exists_convert bits
  have weight : double.signWeight = 2 ^ 63 := by decide
  rw [same, withSign]
  split <;> omega

/-- What is positive and finite in single precision is so in double precision. -/
theorem isPositiveFinite_convert (bits : Nat) :
    double.isPositiveFinite (single.convert double bits) = single.isPositiveFinite bits := by
  obtain ⟨magnitude, same, unsigned, finite⟩ := exists_convert bits
  rw [Bool.eq_iff_iff, same, isPositiveFinite_withSign _ _ _ unsigned, isPositiveFinite_iff, finite]

end Format

/-! ## Doubles -/

theorem unpack_ofBits (bits : UInt64) :
    (Float.ofBits bits).toModel.unpack = unpack .binary64 bits.toBitVec := by
  change unpack .binary64 (pack .binary64 (unpack .binary64 bits.toBitVec)) = _
  rw [pack_unpack]
  split
  next odd =>
    rw [isNaNBits, decide_eq_true_eq] at odd
    rw [unpack_packedNaN, unpack]
    simp only [if_pos odd.1, if_neg odd.2]
  · rfl

theorem toNat_unpackMantissa (bits : UInt64) :
    (@unpackMantissa .binary64 bits.toBitVec).toNat = bits.toNat % 2 ^ 52 := by
  rw [unpackMantissa_def, BitVec.extractLsb'_toNat]
  rfl

theorem toNat_unpackExponent (bits : UInt64) :
    (@unpackExponent .binary64 bits.toBitVec).toNat = bits.toNat / 2 ^ 52 % 2 ^ 11 := by
  rw [unpackExponent_def, BitVec.extractLsb'_toNat, Nat.shiftRight_eq_div_pow]
  rfl

theorem toNat_unpackSign (bits : UInt64) :
    (@unpackSign .binary64 bits.toBitVec).toNat = bits.toNat / 2 ^ 63 := by
  have bound := bits.toNat_lt
  rw [unpackSign_def, BitVec.extractLsb'_toNat, Nat.shiftRight_eq_div_pow]
  change bits.toNat / 2 ^ 63 % 2 ^ 1 = bits.toNat / 2 ^ 63
  omega

/-- A rate is a finite number with the positive sign. -/
theorem isRate_iff (value : Float) :
    Target.isRate value = true ↔
      ∃ mantissa exponent positive,
        value.toModel.unpack = .finite .positive mantissa exponent positive := by
  have zero : (0 : Float).toModel.unpack = .zero .positive := rfl
  have below : 0 < value ↔ (UnpackedFloat.zero .positive).lt value.toModel.unpack = true := by
    rw [← zero]
    exact decide_eq_true_iff
  rw [Target.isRate, Bool.and_eq_true, decide_eq_true_eq, below]
  change value.toModel.unpack.isFinite = true ∧ _ ↔ _
  generalize value.toModel.unpack = unpacked
  cases unpacked with
  | infinity sign => simp [UnpackedFloat.isFinite]
  | notANumber => simp [UnpackedFloat.isFinite]
  | zero sign => simp [UnpackedFloat.lt, UnpackedFloat.compare]
  | finite sign mantissa exponent positive =>
    cases sign <;> simp [UnpackedFloat.isFinite, UnpackedFloat.lt, UnpackedFloat.compare, positive]

theorem exists_finite_iff
    (sign : Sign)
    (mantissa : Nat)
    (exponent : Int)
    (positive : 0 < mantissa) :
    (∃ mantissa' exponent' positive',
        UnpackedFloat.finite sign mantissa exponent positive =
          .finite .positive mantissa' exponent' positive') ↔
      sign = .positive := by
  constructor
  · rintro ⟨_, _, _, same⟩
    cases same
    rfl
  · rintro rfl
    exact ⟨_, _, _, rfl⟩

/-- The bits of a finite number with the positive sign. -/
theorem unpack_eq_positive_iff (bits : BitVec 64) :
    (∃ mantissa exponent positive,
        unpack .binary64 bits = .finite .positive mantissa exponent positive) ↔
      @unpackExponent .binary64 bits ≠ -1#11 ∧
        (@unpackExponent .binary64 bits ≠ 0#11 ∨
          @unpackMantissa .binary64 bits ≠ 0#52) ∧
        @unpackSign .binary64 bits = 0#1 := by
  have sign (vector : BitVec 1) : Sign.ofBitVec vector = .positive ↔ vector = 0#1 := by
    rw [Sign.ofBitVec]
    split <;> simp [*]
  unfold unpack
  dsimp only
  split
  next special => split <;> simp [special]
  next ordinary =>
    split
    next small =>
      split
      next zero => simp [small, zero]
      next subnormal =>
        rw [exists_finite_iff, sign]
        exact ⟨fun positive => ⟨ordinary, .inr subnormal, positive⟩, fun fields => fields.2.2⟩
    next normal =>
      rw [exists_finite_iff, sign]
      exact ⟨fun positive => ⟨ordinary, .inl normal, positive⟩, fun fields => fields.2.2⟩

theorem isRate_ofBits (bits : UInt64) :
    Target.isRate (Float.ofBits bits) = Format.double.isPositiveFinite bits.toNat := by
  have bound := bits.toNat_lt
  have weight : Format.double.signWeight = 2 ^ 63 := by decide
  have limit : Format.double.infinity = 2047 * 2 ^ 52 := by decide
  rw [Bool.eq_iff_iff, isRate_iff, unpack_ofBits, unpack_eq_positive_iff,
    Format.isPositiveFinite_iff, Format.isNegative, Format.magnitude, weight, limit,
    decide_eq_false_iff_not, ne_eq, ne_eq, ne_eq, ← BitVec.toNat_inj, ← BitVec.toNat_inj,
    ← BitVec.toNat_inj, ← BitVec.toNat_inj, toNat_unpackMantissa, toNat_unpackExponent,
    toNat_unpackSign]
  have ones : (-1#11).toNat = 2 ^ 11 - 1 := by decide
  rw [ones, BitVec.toNat_zero, BitVec.toNat_zero, BitVec.toNat_zero]
  omega

/-- A number of single precision is a rate when its bits say so. -/
theorem isRate_doubleOfSingle (value : Wire.Single) :
    Target.isRate (doubleOfSingle value) =
      Format.single.isPositiveFinite value.bits.toNat := by
  rw [doubleOfSingle, isRate_ofBits, UInt64.toNat_ofNat', Nat.mod_eq_of_lt (Format.convert_lt _)]
  exact Format.isPositiveFinite_convert _

end MiningPool.Number
