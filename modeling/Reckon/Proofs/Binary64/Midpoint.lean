import Mathlib.Order.Monotone.Basic
import Mathlib.Tactic.Linarith
import Mathlib.Tactic.Ring
import Reckon.Proofs.Binary64.ReadBack

/-! Rounding to the nearest magnitude, told by the midpoints between neighbouring ones. -/

namespace Reckon

/-- A unit is a half to the power of one thousand and seventy-four. -/
theorem unitsPerOne_eq : unitsPerOne = 2 ^ 1074 := by
  unfold unitsPerOne
  -- The power is too large to be computed, so the exponent is taken for any number.
  generalize 1074 = exponent
  exact Nat.one_shiftLeft exponent

/-- How many magnitudes share one scale is positive. -/
theorem blockSize_pos : 0 < blockSize := by decide

/-- A rank in a block above the first has the leading one and what it is above the block's start. -/
theorem units_block (block : Nat) {rest : Nat} (below : rest < blockSize) :
    units (blockSize * (block + 1) + rest) = (blockSize + rest) * 2 ^ block := by
  -- The block and the place in it are the quotient and the remainder.
  have quotient : (blockSize * (block + 1) + rest) / blockSize = block + 1 := by
    rw [Nat.mul_add_div blockSize_pos, Nat.div_eq_of_lt below, Nat.add_zero]
  have remainder : (blockSize * (block + 1) + rest) % blockSize = rest := by
    rw [Nat.mul_add_mod, Nat.mod_eq_of_lt below]
  have normal : ¬ blockSize * (block + 1) + rest < blockSize := by
    rw [Nat.mul_add, Nat.mul_one]
    omega
  rw [units, significand, if_neg normal, remainder, Reckon.scale, quotient, Nat.add_sub_cancel,
    Nat.shiftLeft_eq]

/--
A significand of up to twice the block size stands at its scale, if it is full or the scale is the
least.

Twice the block size itself is the first significand of the next scale.
-/
theorem units_significand {scale significand : Nat} (full : scale = 0 ∨ blockSize ≤ significand)
    (within : significand ≤ 2 * blockSize) :
    units (scale * blockSize + significand) = significand * 2 ^ scale := by
  by_cases subnormal : significand < blockSize
  · -- Only the first block of ranks has significands that are not full.
    obtain rfl : scale = 0 := full.resolve_right (Nat.not_le.mpr subnormal)
    rw [Nat.zero_mul, Nat.zero_add, units_of_lt subnormal, Nat.pow_zero, Nat.mul_one]
  · obtain ⟨rest, rfl⟩ := Nat.exists_eq_add_of_le (Nat.not_lt.mp subnormal)
    rcases Nat.lt_or_eq_of_le (show rest ≤ blockSize by omega) with below | rfl
    · -- A full significand is the leading one of its block and a place in that.
      have rank : scale * blockSize + (blockSize + rest) = blockSize * (scale + 1) + rest := by ring
      rw [rank, units_block scale below]
    · -- Twice the block size is the start of the next block, where each step is doubled.
      have rank : scale * blockSize + (blockSize + blockSize) =
          blockSize * (scale + 1 + 1) + 0 := by ring
      rw [rank, units_block (scale + 1) blockSize_pos, Nat.pow_succ]
      ring

/-- Every rank is its significand above the block that its scale starts at. -/
theorem rank_eq (rank : Nat) :
    ∃ scale significand, rank = scale * blockSize + significand ∧
      (scale = 0 ∨ blockSize ≤ significand) ∧ significand < 2 * blockSize := by
  have whole := Nat.div_add_mod rank blockSize
  have below := Nat.mod_lt rank blockSize_pos
  -- The first block is its own, and in every other one the significand has its leading one.
  cases block : rank / blockSize with
  | zero => exact ⟨0, rank % blockSize, by simpa [block] using whole.symm, .inl rfl, by omega⟩
  | succ scale =>
    rw [block, Nat.mul_succ, Nat.mul_comm] at whole
    exact ⟨scale, blockSize + rank % blockSize, by omega, .inr (by omega), by omega⟩

/-- A rank some blocks further is even where the rank is. -/
theorem add_blocks_mod_two (rank blocks : Nat) : (rank + blocks * blockSize) % 2 = rank % 2 := by
  -- The size of a block is even.
  rw [Nat.add_mod, Nat.mul_mod, show blockSize % 2 = 0 from rfl]
  simp

/-- From a significand to the next one a magnitude grows by one step of its scale. -/
theorem units_significand_succ {scale significand : Nat}
    (full : scale = 0 ∨ blockSize ≤ significand) (within : significand < 2 * blockSize) :
    units (scale * blockSize + significand + 1) = (significand + 1) * 2 ^ scale := by
  rw [Nat.add_assoc]
  exact units_significand (full.imp_right Nat.le_succ_of_le) within

/-- Magnitudes grow with their ranks. -/
theorem units_strictMono : StrictMono units := by
  refine strictMono_nat_of_lt_succ ?_
  intro rank
  -- Within its scale the next rank has the next significand.
  obtain ⟨scale, significand, rfl, full, within⟩ := rank_eq rank
  rw [units_significand full within.le, units_significand_succ full within]
  exact Nat.mul_lt_mul_of_pos_right (Nat.lt_succ_self _) (Nat.two_pow_pos scale)

/-- The next rank has a larger magnitude. -/
theorem units_lt_succ (rank : Nat) : units rank < units (rank + 1) :=
  units_strictMono (Nat.lt_succ_self rank)

/-- Twice the midpoint between the magnitude of a rank and the next one, in units. -/
def midpoint (rank : Nat) : Nat := units rank + units (rank + 1)

/-- The midpoint above a significand is half a step of its scale further. -/
theorem midpoint_significand {scale significand : Nat}
    (full : scale = 0 ∨ blockSize ≤ significand) (within : significand < 2 * blockSize) :
    midpoint (scale * blockSize + significand) = (2 * significand + 1) * 2 ^ scale := by
  rw [midpoint, units_significand full within.le, units_significand_succ full within]
  ring

/-- Midpoints grow with the ranks below them. -/
theorem midpoint_strictMono : StrictMono midpoint := by
  intro lower upper less
  exact Nat.add_lt_add (units_strictMono less) (units_strictMono (Nat.succ_lt_succ less))

/-- A midpoint is below every magnitude of a higher rank. -/
theorem midpoint_lt {rank bound : Nat} (less : rank < bound) : midpoint rank < 2 * units bound := by
  have own := units_strictMono less
  -- The next magnitude is still no larger, and the own one is smaller.
  have next : units (rank + 1) ≤ units bound := units_strictMono.monotone less
  unfold midpoint
  omega

/-- A midpoint is above every magnitude of its own rank or a lower one. -/
theorem lt_midpoint {rank bound : Nat} (least : bound ≤ rank) :
    2 * units bound < midpoint rank := by
  have own := units_strictMono.monotone least
  have next : units bound < units (rank + 1) := units_strictMono (Nat.lt_succ_of_le least)
  -- A midpoint is the sum of two neighbours, and the upper one is larger.
  unfold midpoint
  omega

/-- A quotient is rounded to at most a number if it is below the midpoint above the number, or
right there and the number is even. -/
theorem roundedQuotient_le_iff {num den : Nat} (positive : 0 < den) (bound : Nat) :
    roundedQuotient num den ≤ bound ↔
      2 * num < (2 * bound + 1) * den ∨ 2 * num = (2 * bound + 1) * den ∧ bound % 2 = 0 := by
  have whole := Nat.div_add_mod num den
  have below := Nat.mod_lt num positive
  unfold roundedQuotient
  simp only
  generalize num / den = quotient at *
  generalize num % den = rest at *
  subst whole
  -- A bound other than the quotient is a whole divisor away from it at least.
  have expand : (2 * bound + 1) * den = 2 * (den * bound) + den := by ring
  rw [expand]
  rcases Nat.lt_trichotomy quotient bound with less | rfl | more
  · have := Nat.mul_le_mul_left den (Nat.succ_le_of_lt less)
    rw [Nat.mul_succ] at this
    split_ifs <;> omega
  · split_ifs <;> omega
  · have := Nat.mul_le_mul_left den (Nat.succ_le_of_lt more)
    rw [Nat.mul_succ] at this
    split_ifs <;> omega

/-- A quotient of at most a whole number is rounded to at most that number. -/
theorem roundedQuotient_le {num den bound : Nat} (positive : 0 < den) (small : num ≤ bound * den) :
    roundedQuotient num den ≤ bound := by
  refine (roundedQuotient_le_iff positive bound).mpr (.inl ?_)
  linarith

/-- A quotient of at least a whole number is rounded to at least that number. -/
theorem le_roundedQuotient {num den bound : Nat} (positive : 0 < den) (large : bound * den ≤ num) :
    bound ≤ roundedQuotient num den := by
  cases bound with
  | zero => exact Nat.zero_le _
  | succ bound =>
    refine Nat.succ_le_of_lt (Nat.lt_of_not_le ?_)
    rw [roundedQuotient_le_iff positive]
    -- At or below the midpoint under the number it would be less than the number itself.
    rintro (below | ⟨same, _⟩) <;> linarith

/-- The scale at which a quotient is rounded leaves fifty-three bits of it, or fewer at the least
scale. -/
theorem scale_bounds (num : Nat) {den : Nat} (positive : 0 < den) :
    num < 2 * blockSize * (den * 2 ^ ((num / den).log2 - 52)) ∧
      (0 < (num / den).log2 - 52 →
        blockSize * (den * 2 ^ ((num / den).log2 - 52)) ≤ num) := by
  have size : blockSize = 2 ^ 52 := rfl
  constructor
  · -- The leading bit of the whole quotient has at most fifty-two others above the scale.
    have upper : num / den < 2 ^ (53 + ((num / den).log2 - 52)) :=
      Nat.lt_of_lt_of_le Nat.lt_log2_self (Nat.pow_le_pow_right (by decide) (by omega))
    have bound := (Nat.div_lt_iff_lt_mul positive).mp upper
    rw [Nat.pow_add] at bound
    rw [size]
    calc num < 2 ^ 53 * 2 ^ ((num / den).log2 - 52) * den := bound
      _ = 2 * 2 ^ 52 * (den * 2 ^ ((num / den).log2 - 52)) := by ring
  · intro scaled
    -- At a scale above the least one the quotient is not zero, and has a leading bit.
    have occupied : num / den ≠ 0 := by
      intro zero
      simp [zero] at scaled
    have lower : 2 ^ (52 + ((num / den).log2 - 52)) ≤ num / den := by
      rw [Nat.add_sub_cancel' (by omega)]
      exact Nat.log2_self_le occupied
    have bound := (Nat.le_div_iff_mul_le positive).mp lower
    rw [Nat.pow_add] at bound
    rw [size]
    calc 2 ^ 52 * (den * 2 ^ ((num / den).log2 - 52))
        = 2 ^ 52 * 2 ^ ((num / den).log2 - 52) * den := by ring
      _ ≤ num := bound

/--
A quotient is rounded to at most a rank if it is below the midpoint above the rank, or right there
and the rank is even.

This says all there is to say of the rounding, since the rank is told by its bounds.
-/
theorem nearestRank_le_iff {num den : Nat} (positive : 0 < den) (rank : Nat) :
    nearestRank num den ≤ rank ↔
      2 * num < den * midpoint rank ∨ 2 * num = den * midpoint rank ∧ rank % 2 = 0 := by
  obtain ⟨upper, lower⟩ := scale_bounds num positive
  rw [nearestRank]
  simp only [Nat.shiftLeft_eq]
  generalize (num / den).log2 - 52 = scale at *
  have wide : 0 < den * 2 ^ scale := Nat.mul_pos positive (Nat.two_pow_pos scale)
  have size := blockSize_pos
  by_cases less : 0 < scale ∧ rank < scale * blockSize + blockSize
  · -- The significand is full, so the rank is below all that the quotient may be rounded to.
    have full := lower less.1
    have large := le_roundedQuotient wide full
    have under : 2 * num > den * midpoint rank := by
      calc den * midpoint rank
          < den * (2 * units (scale * blockSize + blockSize)) :=
            Nat.mul_lt_mul_of_pos_left (midpoint_lt less.2) positive
        _ = 2 * (blockSize * (den * 2 ^ scale)) := by
            rw [units_significand (.inr (Nat.le_refl blockSize)) (by omega)]
            ring
        _ ≤ 2 * num := Nat.mul_le_mul_left 2 full
    constructor <;> intro bound <;> omega
  by_cases more : scale * blockSize + 2 * blockSize ≤ rank
  · -- The rank is above all that the quotient may be rounded to.
    have small := roundedQuotient_le wide (Nat.le_of_lt upper)
    have beyond : 2 * num < den * midpoint rank := by
      calc 2 * num < 2 * (2 * blockSize * (den * 2 ^ scale)) :=
            Nat.mul_lt_mul_of_pos_left upper (by decide)
        _ = den * (2 * units (scale * blockSize + 2 * blockSize)) := by
            rw [units_significand (.inr (by omega)) (Nat.le_refl _)]
            ring
        _ ≤ den * midpoint rank := Nat.mul_le_mul_left den (Nat.le_of_lt (lt_midpoint more))
    constructor
    · intro _
      exact .inl beyond
    · intro _
      omega
  · -- The rank is that of a significand of the scale, and the midpoints above those are where
    -- the quotient is rounded up.
    obtain ⟨significand, rfl, full, within⟩ : ∃ significand,
        rank = scale * blockSize + significand ∧ (scale = 0 ∨ blockSize ≤ significand) ∧
          significand < 2 * blockSize := by
      rcases Nat.eq_zero_or_pos scale with rfl | scaled
      · exact ⟨rank, by omega, .inl rfl, by omega⟩
      · exact ⟨rank - scale * blockSize, by omega, .inr (by omega), by omega⟩
    have between : den * midpoint (scale * blockSize + significand) =
        (2 * significand + 1) * (den * 2 ^ scale) := by
      rw [midpoint_significand full within]
      ring
    have parity : (scale * blockSize + significand) % 2 = significand % 2 := by
      rw [Nat.add_comm, add_blocks_mod_two]
    rw [Nat.add_le_add_iff_left, roundedQuotient_le_iff wide, between, parity]

/-- A larger number is rounded to no lower rank. -/
theorem nearestRank_mono {smaller larger den : Nat} (positive : 0 < den)
    (bound : smaller ≤ larger) : nearestRank smaller den ≤ nearestRank larger den := by
  -- A rank that the larger number is not rounded past bounds the smaller one as well.
  have own := (nearestRank_le_iff positive _).mp (Nat.le_refl (nearestRank larger den))
  rw [nearestRank_le_iff positive]
  omega

/-- A quotient in other terms is rounded to the same rank. -/
theorem nearestRank_mul_right (num : Nat) {den factor : Nat} (positive : 0 < den)
    (occupied : 0 < factor) :
    nearestRank (num * factor) (den * factor) = nearestRank num den := by
  -- Both are compared with the same midpoints, times the factor.
  have same (rank : Nat) :
      nearestRank (num * factor) (den * factor) ≤ rank ↔ nearestRank num den ≤ rank := by
    rw [nearestRank_le_iff (Nat.mul_pos positive occupied), nearestRank_le_iff positive,
      ← Nat.mul_assoc, Nat.mul_right_comm den, Nat.mul_lt_mul_right occupied,
      Nat.mul_left_inj occupied.ne']
  exact Nat.le_antisymm ((same _).mpr (Nat.le_refl _)) ((same _).mp (Nat.le_refl _))

/-- Above the first block the magnitude of a rank some blocks further is as many times doubled. -/
theorem units_add_blocks {rank : Nat} (normal : blockSize ≤ rank) (blocks : Nat) :
    units (rank + blocks * blockSize) = units rank * 2 ^ blocks := by
  obtain ⟨scale, significand, rfl, full, within⟩ := rank_eq rank
  -- The significand is full, so it may stand at any scale.
  have full : blockSize ≤ significand := by
    rcases full with rfl | full
    · omega
    · exact full
  have moved : scale * blockSize + significand + blocks * blockSize =
      (scale + blocks) * blockSize + significand := by ring
  rw [moved, units_significand (.inr full) within.le, units_significand (.inr full) within.le,
    Nat.pow_add, Nat.mul_assoc]

/-- Above the first block midpoints are doubled with the magnitudes. -/
theorem midpoint_add_blocks {rank : Nat} (normal : blockSize ≤ rank) (blocks : Nat) :
    midpoint (rank + blocks * blockSize) = midpoint rank * 2 ^ blocks := by
  -- Both magnitudes around the midpoint are doubled as often.
  rw [midpoint, Nat.add_right_comm, units_add_blocks normal,
    units_add_blocks (Nat.le_succ_of_le normal), midpoint, Nat.add_mul]

/-- Whole numbers of up to fifty-three bits are magnitudes. -/
theorem exists_units_eq {number : Nat} (narrow : number < 2 * blockSize) :
    ∃ rank < finiteCount, units rank = number * unitsPerOne := by
  by_cases zero : number = 0
  · exact ⟨0, by decide, by rw [zero, Nat.zero_mul, units_of_lt blockSize_pos]⟩
  · -- The number is moved until its significand is full.
    have size : blockSize = 2 ^ 52 := rfl
    have short : number.log2 ≤ 52 := by
      have := (Nat.log2_lt zero).mpr (show number < 2 ^ 53 from narrow)
      omega
    have lower := Nat.log2_self_le zero
    have upper := Nat.lt_log2_self (n := number)
    have whole : 2 ^ number.log2 * 2 ^ (52 - number.log2) = blockSize := by
      rw [← Nat.pow_add, Nat.add_sub_cancel' short, size]
    have positive : 0 < 2 ^ (52 - number.log2) := Nat.two_pow_pos _
    have full : blockSize ≤ number * 2 ^ (52 - number.log2) := by
      rw [← whole]
      exact Nat.mul_le_mul_right _ lower
    have within : number * 2 ^ (52 - number.log2) < 2 * blockSize := by
      rw [← whole, ← Nat.mul_assoc, ← Nat.pow_succ']
      exact Nat.mul_lt_mul_of_pos_right upper positive
    refine ⟨(1022 + number.log2) * blockSize + number * 2 ^ (52 - number.log2), ?_, ?_⟩
    · have : (1022 + number.log2) * blockSize ≤ 1074 * blockSize :=
        Nat.mul_le_mul_right _ (by omega)
      unfold finiteCount
      omega
    · have distance : 52 - number.log2 + (1022 + number.log2) = 1074 := by omega
      have moved : 2 ^ (52 - number.log2) * 2 ^ (1022 + number.log2) = unitsPerOne := by
        rw [← Nat.pow_add]
        exact (congrArg (2 ^ ·) distance).trans unitsPerOne_eq.symm
      rw [units_significand (.inr full) within.le, Nat.mul_assoc, moved]

end Reckon
