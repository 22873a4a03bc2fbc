import Mathlib.Algebra.Order.Field.Basic
import Mathlib.Algebra.Order.Field.Rat
import Mathlib.Data.Finset.Card
import Mathlib.Data.Finset.Range
import MiningPool.Proofs.Channel.Exits

/-!
# Targets of hash counts

The target for a number of hashes is computed in numbers of 32 bytes, and no operation of
the computation leaves their range.  The target is the greatest one that a hash, any of them
as likely as any other, reaches with a probability of at most one in `hashes + 1`.

Up to the square root of the number of hashes, quotients by successive numbers differ.  The
hashes between two shares are counted in 16 bytes, so more of them always make the target
harder.
-/

namespace MiningPool

open MiningPool.Wire

/-- Quotients by numbers up to the square root all differ. -/
theorem div_lt_div_of_square_le
    (dividend smaller larger : Nat)
    (positive : 0 < smaller)
    (less : smaller < larger)
    (square : larger * larger ≤ dividend) :
    dividend / larger < dividend / smaller := by
  have many : larger ≤ dividend / larger :=
    (Nat.le_div_iff_mul_le (Nat.lt_trans positive less)).mpr square
  have fits : dividend / larger * larger ≤ dividend := Nat.div_mul_le_self dividend larger
  rw [← Nat.succ_le_iff, Nat.le_div_iff_mul_le positive]
  calc (dividend / larger + 1) * smaller
      ≤ (dividend / larger + 1) * (larger - 1) := Nat.mul_le_mul_left _ (by omega)
    _ = dividend / larger * larger + larger - (dividend / larger + 1) := by
      rw [Nat.mul_sub, Nat.mul_one, Nat.add_mul, Nat.one_mul]
    _ ≤ dividend := by omega

namespace Target

/-! ## Numbers of 32 bytes -/

/-- The sum, unless it is too large. -/
def add? (left right : Target) : Option Target :=
  if fits : left.value + right.value < Bytes.capacity 32 then some ⟨_, fits⟩ else none

/-- The difference, unless it is below zero. -/
def sub? (left right : Target) : Option Target :=
  if right.value ≤ left.value then
    some ⟨left.value - right.value, Nat.lt_of_le_of_lt (Nat.sub_le _ _) left.isLt⟩
  else none

/-- The quotient, unless the divisor is zero. -/
def div? (left right : Target) : Option Target :=
  if right.value = 0 then none
  else some ⟨left.value / right.value, Nat.lt_of_le_of_lt (Nat.div_le_self _ _) left.isLt⟩

/-- The target for a number of hashes, when every operation stays within 32 bytes. -/
def ofHashCount? (hashes : Nat) : Option Target := do
  let numerator ← easiest.sub? (ofNat hashes)
  let denominator ← (ofNat hashes).add? (ofNat 1)
  numerator.div? denominator

variable (hashes : Nat)

theorem ofHashCount?_eq
    (bound : hashes + 1 < Bytes.capacity 32) :
    ofHashCount? hashes = some (ofHashCount hashes) := by
  have count : (ofNat hashes).value = hashes := Nat.mod_eq_of_lt (by omega)
  have one : (ofNat 1).value = 1 := by decide
  have most : easiest.value = Bytes.capacity 32 - 1 := rfl
  have notBelow : hashes ≤ Bytes.capacity 32 - 1 := by omega
  simp only [ofHashCount?, sub?, add?, div?, count, one, most, notBelow, bound, if_true, dite_true,
    Option.bind_eq_bind, Option.bind_some, Nat.add_one_ne_zero, if_false, ofHashCount]

theorem value_ofHashCount_succ
    (bound : hashes < Bytes.capacity 32) :
    (ofHashCount hashes).value + 1 = Bytes.capacity 32 / (hashes + 1) := by
  have whole : Bytes.capacity 32 = Bytes.capacity 32 - 1 - hashes + (hashes + 1) := by omega
  conv => rhs; rw [whole, Nat.add_div_right _ (Nat.succ_pos hashes)]
  rfl

/-! ## The probability of a share -/

/-- The hashes that reach a target. -/
def hits (target : Target) : Finset Nat :=
  (Finset.range (Bytes.capacity 32)).filter (· ≤ target.value)

/-- The probability with which a hash reaches a target when all hashes are equally likely. -/
def chance (target : Target) : ℚ :=
  target.hits.card / Bytes.capacity 32

theorem card_hits (target : Target) : target.hits.card = target.value + 1 := by
  have initial : target.hits = Finset.range (target.value + 1) := by
    ext hash
    have bound := target.isLt
    simp only [hits, Finset.mem_filter, Finset.mem_range]
    omega
  rw [initial, Finset.card_range]

theorem chance_le_iff
    (bound : hashes < Bytes.capacity 32)
    (target : Target) :
    target.chance ≤ 1 / (hashes + 1) ↔ target ≤ ofHashCount hashes := by
  have all : (0 : ℚ) < Bytes.capacity 32 := Nat.cast_pos.mpr (Bytes.capacity_pos 32)
  have some : (0 : ℚ) < hashes + 1 := Nat.cast_add_one_pos hashes
  calc target.chance ≤ 1 / (hashes + 1)
      ↔ ((target.value + 1 : ℕ) : ℚ) * (hashes + 1) ≤ 1 * Bytes.capacity 32 := by
        rw [chance, card_hits, div_le_div_iff₀ all some]
    _ ↔ (target.value + 1) * (hashes + 1) ≤ Bytes.capacity 32 := by
        rw [one_mul]
        exact_mod_cast Iff.rfl
    _ ↔ target.value + 1 ≤ (ofHashCount hashes).value + 1 := by
        rw [value_ofHashCount_succ hashes bound, Nat.le_div_iff_mul_le (Nat.succ_pos hashes)]
    _ ↔ target ≤ ofHashCount hashes := Nat.succ_le_succ_iff

/-! ## Harder targets -/

theorem ofHashCount_lt
    (more : Nat)
    (greater : hashes < more)
    (bound : more < Bytes.capacity 16) :
    ofHashCount more < ofHashCount hashes := by
  have squares : Bytes.capacity 16 * Bytes.capacity 16 = Bytes.capacity 32 := by decide
  have square : (more + 1) * (more + 1) ≤ Bytes.capacity 32 :=
    squares ▸ Nat.mul_le_mul bound bound
  have small : Bytes.capacity 16 < Bytes.capacity 32 := by decide
  have quotients := div_lt_div_of_square_le (Bytes.capacity 32) (hashes + 1) (more + 1)
    (Nat.succ_pos hashes) (Nat.succ_lt_succ greater) square
  rw [← value_ofHashCount_succ more (by omega), ← value_ofHashCount_succ hashes (by omega)]
    at quotients
  exact Nat.lt_of_succ_lt_succ quotients

/-- Under a bound that the lower of two targets stays below, they keep their order. -/
theorem min_lt_min
    {left right cap : Target}
    (less : left < right)
    (free : min left cap < cap) :
    min left cap < min right cap := by
  change (if left ≤ cap then left else cap) < cap at free
  change (if left ≤ cap then left else cap) < (if right ≤ cap then right else cap)
  by_cases lower : left ≤ cap
  · rw [if_pos lower] at free ⊢
    split
    · exact less
    · exact free
  · rw [if_neg lower] at free
    exact absurd free (Nat.lt_irrefl _)

theorem truncateDouble_le (limit : Nat) (value : Float) :
    Number.truncateDouble limit value ≤ limit := by
  unfold Number.truncateDouble Number.Format.truncate
  dsimp only
  split
  · exact Nat.zero_le limit
  split
  · exact Nat.le_refl limit
  · exact Nat.min_le_right _ _

theorem hashCount_lt (hashRate sharesPerMinute : Float) :
    hashCount hashRate sharesPerMinute < Bytes.capacity 16 := by
  have most := truncateDouble_le (Bytes.capacity 16 - 1) (hashRate * (60 / sharesPerMinute))
  have positive := Bytes.capacity_pos 16
  unfold hashCount
  omega

theorem ofHashRate_eq_ok_iff
    (hashRate sharesPerMinute : Float)
    (target : Target) :
    ofHashRate hashRate sharesPerMinute = .ok target ↔
      isRate hashRate = true ∧ isRate sharesPerMinute = true ∧
        target = ofHashCount (hashCount hashRate sharesPerMinute) := by
  unfold ofHashRate
  cases isRate hashRate <;> cases isRate sharesPerMinute <;> simp [eq_comm]

end Target

/-! ## Requests of a channel -/

namespace Channel

variable {J : Type} {channel later : Channel J} {hashRate : Single} {maxTarget : Option Target}

/-- The hashes that a miner of a hash rate computes between two shares of the channel. -/
def hashesBetween (channel : Channel J) (hashRate : Single) : Nat :=
  Target.hashCount (Number.doubleOfSingle hashRate)
    (Number.doubleOfSingle channel.sharesPerMinute)

theorem target_of_update
    (updated : channel.update hashRate maxTarget = (later, .ok ())) :
    later.target = min (Target.ofHashCount (channel.hashesBetween hashRate)) later.maxTarget := by
  have exits := channel.retargets_update hashRate maxTarget
  rw [updated] at exits
  cases exits with
  | retargeted target found =>
    unfold targetFor at found
    split at found
    next aimed =>
      cases found
      rw [((Target.ofHashRate_eq_ok_iff _ _ _).mp aimed).2.2]
      rfl
    · cases found
    · cases found

theorem maxTarget_of_update
    (updated : channel.update hashRate maxTarget = (later, .ok ())) :
    later.maxTarget = maxTarget.getD channel.maxTarget := by
  have exits := channel.retargets_update hashRate maxTarget
  rw [updated] at exits
  cases exits
  rfl

/-- Of two updates with one greatest target, the faster miner has the harder target below it. -/
theorem update_lt
    {fasterRate : Single}
    {harder : Channel J}
    (updated : channel.update hashRate maxTarget = (later, .ok ()))
    (faster : channel.update fasterRate maxTarget = (harder, .ok ()))
    (more : channel.hashesBetween hashRate < channel.hashesBetween fasterRate)
    (free : harder.target < harder.maxTarget) :
    harder.target < later.target := by
  have same : harder.maxTarget = later.maxTarget :=
    (maxTarget_of_update faster).trans (maxTarget_of_update updated).symm
  have less := Target.ofHashCount_lt _ _ more (Target.hashCount_lt _ _)
  rw [target_of_update faster, same] at free ⊢
  rw [target_of_update updated]
  exact Target.min_lt_min less free

end Channel

/--
The target for a number of hashes that 16 bytes count is computed within 32 bytes, and one
more than it is the number of all hashes divided by one more than the number.  A hash, when
all are equally likely, reaches a target with a probability of at most one in `hashes + 1`
exactly when this is at most the computed target.  More hashes have a harder target: so the
faster of two miners gets the harder target, and keeps it when a channel caps both.
-/
theorem Target.exact_of_hashCount
    (hashes : Nat)
    (bound : hashes < Bytes.capacity 16) :
    ofHashCount? hashes = some (ofHashCount hashes) ∧
    (ofHashCount hashes).value + 1 = Bytes.capacity 32 / (hashes + 1) ∧
    (∀ target : Target, target.chance ≤ 1 / (hashes + 1) ↔ target ≤ ofHashCount hashes) ∧
    (∀ more, hashes < more → more < Bytes.capacity 16 → ofHashCount more < ofHashCount hashes) ∧
    (∀ hashRate sharesPerMinute,
      isRate hashRate = true → isRate sharesPerMinute = true →
      hashCount hashRate sharesPerMinute = hashes →
        ofHashRate hashRate sharesPerMinute = .ok (ofHashCount hashes) ∧
        ∀ fasterRate otherShares,
          isRate fasterRate = true → isRate otherShares = true →
          hashes < hashCount fasterRate otherShares →
            ∃ harder, ofHashRate fasterRate otherShares = .ok harder ∧
              harder < ofHashCount hashes) ∧
    ∀ (J : Type) (channel later : Channel J) (hashRate : Single) (maxTarget : Option Target),
      channel.hashesBetween hashRate = hashes →
      channel.update hashRate maxTarget = (later, .ok ()) →
        later.target = min (ofHashCount hashes) later.maxTarget ∧
        ∀ fasterRate harder,
          channel.update fasterRate maxTarget = (harder, .ok ()) →
          hashes < channel.hashesBetween fasterRate →
          harder.target < harder.maxTarget →
            harder.target < later.target := by
  have small : Bytes.capacity 16 < Bytes.capacity 32 := by decide
  refine ⟨ofHashCount?_eq hashes (by omega), value_ofHashCount_succ hashes (by omega),
    chance_le_iff hashes (by omega), ofHashCount_lt hashes, ?_, ?_⟩
  · rintro hashRate sharesPerMinute rate shares rfl
    refine ⟨(ofHashRate_eq_ok_iff _ _ _).mpr ⟨rate, shares, rfl⟩, ?_⟩
    intro fasterRate otherShares faster others more
    exact ⟨_, (ofHashRate_eq_ok_iff _ _ _).mpr ⟨faster, others, rfl⟩,
      ofHashCount_lt _ _ more (hashCount_lt _ _)⟩
  · rintro J channel later hashRate maxTarget rfl updated
    exact ⟨Channel.target_of_update updated,
      fun _ _ faster more free => Channel.update_lt updated faster more free⟩

/-- The two largest numbers of hashes that are told apart. -/
theorem Target.exact_of_hashCount_largest :
    2 ^ 128 - 2 < Bytes.capacity 16 ∧
      (ofHashCount (2 ^ 128 - 2)).value = 2 ^ 128 ∧
      ofHashCount (2 ^ 128 - 1) < ofHashCount (2 ^ 128 - 2) := by
  have bound : 2 ^ 128 - 2 < Bytes.capacity 16 := by decide
  obtain ⟨-, value, -, harder, -⟩ := exact_of_hashCount (2 ^ 128 - 2) bound
  refine ⟨bound, ?_, harder (2 ^ 128 - 1) (by decide) (by decide)⟩
  exact Nat.succ.inj (value.trans (by decide))

end MiningPool
