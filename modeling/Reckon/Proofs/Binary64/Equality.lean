import Mathlib.Order.WithBot
import Reckon.Proofs.Binary64.Midpoint

/-! Numeric equality of binary64 values, as equality of the numbers that they stand for. -/

namespace Reckon

/-- Different ranks have different magnitudes. -/
theorem magnitude_injective : Function.Injective magnitude := by
  intro rank other same
  have positive : (unitsPerOne : Rat) ≠ 0 := by exact_mod_cast unitsPerOne_pos.ne'
  -- Magnitudes are units to one scale, and units grow from rank to rank.
  have sameUnits : (units rank : Rat) = units other := (div_left_inj' positive).mp same
  exact units_strictMono.injective (by exact_mod_cast sameUnits)

/-- The least rank has the magnitude zero. -/
theorem magnitude_zero : magnitude 0 = 0 := by
  rw [magnitude, units_of_lt blockSize_pos, Nat.cast_zero, zero_div]

/-- No magnitude is negative. -/
theorem magnitude_nonneg (rank : Nat) : 0 ≤ magnitude rank := by
  unfold magnitude
  positivity

namespace Binary64

/--
The number that a value stands for, if it stands for one.

The infinities stand for numbers below and above all others.
-/
def number? : Binary64 → Option (WithBot (WithTop Rat))
  | .nan _ => none
  | .infinity negative => some (if negative then ⊥ else ⊤)
  | .finite negative rank => some (signed negative (magnitude rank) : WithTop Rat)

/-- Two magnitudes with signs are one number if they are one magnitude with one sign, or zero. -/
theorem signed_magnitude_inj {negative minus : Bool} {rank other : Nat} :
    signed negative (magnitude rank) = signed minus (magnitude other) ↔
      rank = other ∧ (negative = minus ∨ rank = 0) := by
  -- Two numbers that are not negative add up to zero only if both are.
  have sum : magnitude rank + magnitude other = 0 ↔ rank = 0 ∧ other = 0 := by
    rw [add_eq_zero_iff_of_nonneg (magnitude_nonneg rank) (magnitude_nonneg other)]
    simp only [← magnitude_injective.eq_iff, magnitude_zero]
  -- With two different signs the magnitudes would have to add up to zero.
  cases negative <;> cases minus <;>
    simp only [signed, Bool.false_eq_true, if_false, if_true, neg_inj, magnitude_injective.eq_iff]
  · simp
  · rw [eq_neg_iff_add_eq_zero, sum]
    simp
    omega
  · rw [neg_eq_iff_add_eq_zero, sum]
    simp
    omega
  · simp

/-- Values are equal when they stand for one number. -/
theorem equals_iff {left right : Binary64} :
    left.equals right = true ↔
      ∃ number, left.number? = some number ∧ right.number? = some number := by
  cases left with
  | nan => simp [equals, number?]
  | infinity negative =>
    cases right with
    | nan => simp [equals, number?]
    | infinity minus => cases negative <;> cases minus <;> simp [equals, number?]
    | finite minus other => cases negative <;> simp [equals, number?]
  | finite negative rank =>
    cases right with
    | nan => simp [equals, number?]
    | infinity minus => cases minus <;> simp [equals, number?]
    | finite minus other =>
      -- Both sides ask for one magnitude, and for one sign unless that is zero.
      have numbers : signed negative (magnitude rank) = signed minus (magnitude other) ↔
          rank.val = other.val ∧ (negative = minus ∨ rank.val = 0) := signed_magnitude_inj
      simpa [equals, number?, Fin.ext_iff, ← numbers] using eq_comm

/-- Values that are equal to one value are equal to each other. -/
theorem equals_trans {left middle right : Binary64} (former : left.equals middle = true)
    (latter : middle.equals right = true) : left.equals right = true := by
  obtain ⟨number, own, same⟩ := equals_iff.mp former
  obtain ⟨other, again, last⟩ := equals_iff.mp latter
  -- The value in the middle stands for one number only.
  obtain rfl : number = other := Option.some.inj (same.symm.trans again)
  exact equals_iff.mpr ⟨number, own, last⟩

/-- A value is equal to itself unless it stands for no number. -/
theorem equals_self_iff {value : Binary64} : value.equals value = true ↔ value.isNaN = false := by
  -- Among all values only one kind compares as different from itself.
  cases value <;> simp [equals, isNaN]

end Binary64

end Reckon
