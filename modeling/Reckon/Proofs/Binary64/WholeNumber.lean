import Mathlib.Algebra.Order.AbsoluteValue.Basic
import Reckon.Proofs.Binary64.Midpoint

/-! The values that whole numbers are rounded to, as the values that are nearest to them. -/

namespace Reckon

/-- The least whole number that is rounded to infinity, halfway past the last finite value. -/
def overflowStart : Nat := 1 <<< 1024 - 1 <<< 970

/-- The midpoint above the last finite magnitude is where rounding to infinity starts. -/
theorem midpoint_last : midpoint (finiteCount - 1) = 2 * (overflowStart * unitsPerOne) := by
  have size := blockSize_pos
  -- The last finite rank is the largest significand at the largest scale.
  have last : finiteCount - 1 = (970 + 1074 + 1) * blockSize + (2 * blockSize - 1) := by
    unfold finiteCount
    omega
  have full : 2 * (2 * blockSize - 1) + 1 = 2 ^ 54 - 1 := rfl
  rw [last, midpoint_significand (.inr (by omega)) (by omega), full, unitsPerOne_eq]
  have start : overflowStart = (2 ^ 54 - 1) * 2 ^ 970 := by
    have split (exponent : Nat) :
        1 <<< (54 + exponent) - 1 <<< exponent = (2 ^ 54 - 1) * 2 ^ exponent := by
      rw [Nat.one_shiftLeft, Nat.one_shiftLeft, Nat.pow_add, Nat.sub_mul, Nat.one_mul]
    exact split 970
  rw [start]
  -- The powers are too large to be computed, so their exponents are taken for any numbers.
  generalize 970 = lower
  generalize 1074 = upper
  ring

/-- The first rank past the finite ones would stand for the next power of two. -/
theorem units_finiteCount : units finiteCount = 1 <<< 1024 * unitsPerOne := by
  have rank : finiteCount = (971 + 1074) * blockSize + 2 * blockSize := rfl
  have size : 2 * blockSize = 2 ^ 53 := rfl
  have next : 1 <<< 1024 = 2 ^ 53 * 2 ^ 971 := by
    have split (exponent : Nat) : 1 <<< (53 + exponent) = 2 ^ 53 * 2 ^ exponent := by
      rw [Nat.one_shiftLeft, Nat.pow_add]
    exact split 971
  rw [rank, units_significand (.inr (by omega)) (Nat.le_refl _), unitsPerOne_eq, size, next]
  -- The powers are too large to be computed, so their exponents are taken for any numbers.
  generalize 971 = lower
  generalize 1074 = upper
  rw [Nat.pow_add, Nat.mul_assoc]

/-- A number of units is rounded to a finite rank if it is below where infinity starts. -/
theorem nearestRank_lt_finiteCount_iff {number : Nat} :
    nearestRank (number * unitsPerOne) 1 < finiteCount ↔ number < overflowStart := by
  -- The last finite rank is odd, so the midpoint above it is rounded up.
  have odd : (finiteCount - 1) % 2 ≠ 0 := by decide
  -- A finite rank is at most the last one, whose midpoint is where infinity starts.
  have least : nearestRank (number * unitsPerOne) 1 ≤ finiteCount - 1 ↔
      number < overflowStart := by
    rw [nearestRank_le_iff Nat.one_pos, midpoint_last, Nat.one_mul,
      Nat.mul_lt_mul_left Nat.two_pos, Nat.mul_lt_mul_right unitsPerOne_pos]
    simp only [odd, and_false, or_false]
  rw [← least]
  have := (by decide : 0 < finiteCount)
  omega

/-- A rank whose units are a whole number has that number as its magnitude. -/
theorem magnitude_of_units_eq {rank number : Nat} (whole : units rank = number * unitsPerOne) :
    magnitude rank = number := by
  have positive : (unitsPerOne : Rat) ≠ 0 := by exact_mod_cast unitsPerOne_pos.ne'
  -- The number of units cancels against the units in one.
  rw [magnitude, whole]
  push_cast
  exact mul_div_cancel_right₀ _ positive

/-- The rank nearest to a number of units is above the midpoints below it. -/
theorem midpoint_le {number rank : Nat} (above : rank < nearestRank number 1) :
    midpoint rank ≤ 2 * number ∧ (midpoint rank = 2 * number → rank % 2 ≠ 0) := by
  -- Otherwise the number would be rounded to that rank or a lower one.
  have past := (not_congr (nearestRank_le_iff Nat.one_pos rank)).mp (Nat.not_le.mpr above)
  omega

/-- The rank nearest to a number of units is below the midpoints above it. -/
theorem le_midpoint {number rank : Nat} (below : nearestRank number 1 ≤ rank) :
    2 * number ≤ midpoint rank ∧ (2 * number = midpoint rank → rank % 2 = 0) := by
  have bound := (nearestRank_le_iff Nat.one_pos rank).mp below
  omega

/-- A significand is even where its rank is. -/
theorem significand_mod_two (rank : Nat) : significand rank % 2 = rank % 2 := by
  -- The size of a block is even, and so is the leading one.
  have size : blockSize = 2 * (blockSize / 2) := rfl
  have half : rank % blockSize % 2 = rank % 2 := by
    rw [size, Nat.mod_mul_right_mod]
  unfold significand
  split
  case isTrue => rfl
  case isFalse =>
    rw [Nat.add_mod, half, show blockSize % 2 = 0 from rfl, Nat.zero_add, Nat.mod_mod]

namespace Binary64

/--
A value is nearest to a whole number: no finite value is nearer, and of two that are equally near
it is the one with an even significand.

A number from halfway past the last finite value on is nearest to infinity.
-/
inductive IsNearest (number : Nat) : Binary64 → Prop where
  | finite {rank : Fin finiteCount} (below : number < overflowStart)
      (nearest : ∀ other : Fin finiteCount,
        |magnitude rank - number| ≤ |magnitude other - number|)
      (even : ∀ other : Fin finiteCount, other ≠ rank →
        |magnitude rank - number| = |magnitude other - number| → significand rank % 2 = 0) :
      IsNearest number (.finite false rank)
  | infinite (above : overflowStart ≤ number) : IsNearest number (.infinity false)

end Binary64

/-- How far a magnitude is from a number of units. -/
def unitsApart (rank number : Nat) : Nat := ((units rank : Int) - number).natAbs

/-- The rank nearest to a number of units is no further from it than any other rank, and if one is
as near then it is even. -/
theorem unitsApart_nearestRank (number other : Nat) :
    unitsApart (nearestRank number 1) number ≤ unitsApart other number ∧
      (other ≠ nearestRank number 1 →
        unitsApart (nearestRank number 1) number = unitsApart other number →
          nearestRank number 1 % 2 = 0) := by
  obtain ⟨below, even⟩ := le_midpoint (Nat.le_refl (nearestRank number 1))
  have above (lower : Nat) (less : lower < nearestRank number 1) := midpoint_le less
  generalize nearestRank number 1 = rank at *
  unfold midpoint at *
  unfold unitsApart
  rcases Nat.lt_trichotomy other rank with less | rfl | more
  · -- The midpoint that counts is the one right below the rank.
    obtain ⟨lower, rfl⟩ : ∃ lower, rank = lower + 1 := ⟨rank - 1, by omega⟩
    have own := units_strictMono.monotone (Nat.le_of_lt_succ less)
    have next := units_lt_succ lower
    obtain ⟨reached, odd⟩ := above lower (Nat.lt_succ_self lower)
    constructor
    · omega
    · intro _ same
      have neighbour : units other = units lower := by omega
      omega
  · exact ⟨Nat.le_refl _, fun differs => absurd rfl differs⟩
  · -- Here it is the midpoint right above the rank.
    have own : units (rank + 1) ≤ units other := units_strictMono.monotone more
    have next := units_lt_succ rank
    constructor <;> omega

/-- A rank is the nearest to a number of units if it is no further from it than the ranks next to
it, and even if one of them is as near. -/
theorem nearestRank_eq_of_unitsApart {number rank : Nat}
    (upper : nearestRank number 1 ≤ rank ∨ unitsApart rank number ≤ unitsApart (rank + 1) number ∧
      (unitsApart rank number = unitsApart (rank + 1) number → rank % 2 = 0))
    (lower : ∀ below, rank = below + 1 → unitsApart rank number ≤ unitsApart below number ∧
      (unitsApart rank number = unitsApart below number → rank % 2 = 0)) :
    nearestRank number 1 = rank := by
  -- Neither the midpoint above the rank nor the one below it lets the number go past.
  refine Nat.le_antisymm ?_ (Nat.le_of_not_lt fun less => ?_)
  · refine upper.elim id fun near => ?_
    have next := units_lt_succ rank
    rw [nearestRank_le_iff Nat.one_pos, midpoint]
    unfold unitsApart at near
    omega
  · obtain ⟨below, rfl⟩ : ∃ below, rank = below + 1 := ⟨rank - 1, by omega⟩
    have near := lower below rfl
    have next := units_lt_succ below
    obtain ⟨reached, even⟩ := le_midpoint (Nat.le_of_lt_succ less)
    unfold midpoint at *
    unfold unitsApart at near
    omega

namespace Binary64

/-- Magnitudes are as far from a whole number as their units are. -/
theorem abs_magnitude_sub (rank number : Nat) :
    |magnitude rank - number| = unitsApart rank (number * unitsPerOne) / unitsPerOne := by
  have positive : (0 : Rat) < unitsPerOne := by exact_mod_cast unitsPerOne_pos
  -- Both are written over the units of one, which are positive.
  have quotient : magnitude rank - number =
      ((units rank : Rat) - number * unitsPerOne) / unitsPerOne := by
    unfold magnitude
    field_simp
  rw [quotient, abs_div, abs_of_pos positive, unitsApart, Nat.cast_natAbs]
  push_cast
  rfl

/-- A magnitude is no further from a whole number than another one if its units are not. -/
theorem abs_magnitude_sub_le_iff {rank other number : Nat} :
    |magnitude rank - number| ≤ |magnitude other - number| ↔
      unitsApart rank (number * unitsPerOne) ≤ unitsApart other (number * unitsPerOne) := by
  have positive : (0 : Rat) < unitsPerOne := by exact_mod_cast unitsPerOne_pos
  rw [abs_magnitude_sub, abs_magnitude_sub, div_le_div_iff_of_pos_right positive]
  exact Nat.cast_le

/-- Two magnitudes are equally far from a whole number if their units are. -/
theorem abs_magnitude_sub_eq_iff {rank other number : Nat} :
    |magnitude rank - number| = |magnitude other - number| ↔
      unitsApart rank (number * unitsPerOne) = unitsApart other (number * unitsPerOne) := by
  -- Two distances are the same when neither is larger.
  rw [le_antisymm_iff, abs_magnitude_sub_le_iff, abs_magnitude_sub_le_iff, Nat.le_antisymm_iff]

/-- The value nearest to a number of units is that of the rank nearest to it. -/
theorem nearest_units (number : Nat) :
    nearest false ((number : Rat) / unitsPerOne) = ofRank false (nearestRank number 1) := by
  have nonneg : (0 : Rat) ≤ (number : Rat) / unitsPerOne := by positivity
  have rounded := nearest_signed false nonneg
  have factors := natAbs_num_mul number unitsPerOne_pos
  have positive := ((number : Rat) / unitsPerOne).den_pos
  -- The quotient in lowest terms is rounded like the one in units.
  have terms := nearestRank_mul_right number Nat.one_pos positive
  rw [Nat.one_mul] at terms
  rw [factors, terms] at rounded
  simpa [signed] using rounded

/-- A whole number has the value of the rank nearest to its units. -/
theorem ofNat_eq (number : Nat) :
    ofNat number = ofRank false (nearestRank (number * unitsPerOne) 1) := by
  have positive : (unitsPerOne : Rat) ≠ 0 := by exact_mod_cast unitsPerOne_pos.ne'
  -- A whole number is that many times the units of one, over these.
  rw [← nearest_units, ofNat]
  push_cast
  rw [mul_div_cancel_right₀ _ positive]

/-- The ranks past the finite ones are those of infinity. -/
theorem ofRank_eq_infinity_iff {negative : Bool} {rank : Nat} :
    ofRank negative rank = .infinity negative ↔ ¬ rank < finiteCount := by
  unfold ofRank
  split
  case isTrue finite => simp [finite]
  case isFalse past => simp [past]

/-- The value that a whole number is rounded to is the one nearest to it, and the only one. -/
theorem isNearest_iff {number : Nat} {value : Binary64} :
    IsNearest number value ↔ value = ofNat number := by
  rw [ofNat_eq]
  constructor
  · rintro (⟨below, nearest, even⟩ | above)
    case finite rank =>
      have finite := nearestRank_lt_finiteCount_iff.mpr below
      -- The neighbours of a rank are finite but for the one above the last.
      have near (other : Nat) (differs : other ≠ rank) (inside : other < finiteCount) :
          unitsApart rank (number * unitsPerOne) ≤ unitsApart other (number * unitsPerOne) ∧
            (unitsApart rank (number * unitsPerOne) = unitsApart other (number * unitsPerOne) →
              rank.val % 2 = 0) := by
        refine ⟨abs_magnitude_sub_le_iff.mp (nearest ⟨other, inside⟩), fun same => ?_⟩
        rw [← significand_mod_two]
        exact even ⟨other, inside⟩ (fun equal => differs (congrArg Fin.val equal))
          (abs_magnitude_sub_eq_iff.mpr same)
      have own : nearestRank (number * unitsPerOne) 1 = rank := by
        refine nearestRank_eq_of_unitsApart ?_ fun lower above => near lower (by omega) (by omega)
        -- Above the last finite rank there is infinity, where the number has been excluded.
        by_cases last : rank.val + 1 < finiteCount
        · exact .inr (near _ (by omega) last)
        · exact .inl (by omega)
      rw [own, ofRank, dif_pos rank.isLt]
    case infinite =>
      rw [ofRank, dif_neg (mt nearestRank_lt_finiteCount_iff.mp (Nat.not_lt.mpr above))]
  · -- Conversely no rank is nearer than the one that is rounded to, be it finite or not.
    rintro rfl
    unfold ofRank
    split
    case isTrue finite =>
      refine .finite (nearestRank_lt_finiteCount_iff.mp finite) ?_ ?_
      · intro other
        exact abs_magnitude_sub_le_iff.mpr (unitsApart_nearestRank _ _).1
      · intro other differs same
        rw [significand_mod_two]
        refine (unitsApart_nearestRank _ other.val).2 ?_ (abs_magnitude_sub_eq_iff.mp same)
        exact fun equal => differs (Fin.ext equal)
    case isFalse past =>
      exact .infinite (Nat.not_lt.mp (mt nearestRank_lt_finiteCount_iff.mpr past))

end Binary64

end Reckon
