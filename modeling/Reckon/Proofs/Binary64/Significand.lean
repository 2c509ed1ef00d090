import Mathlib.Data.Nat.Dist
import Reckon.Proofs.Binary64.EvenTie

/-! Whole numbers with a significand of fifty-three bits, and the nearest of them to any number. -/

namespace Reckon

/-- A number is a significand of fifty-three bits with nothing but zeros behind it. -/
def HasSignificand (significand number : Nat) : Prop :=
  blockSize ≤ significand ∧ significand < 2 * blockSize ∧ ∃ shift, number = significand * 2 ^ shift

/--
A number is rounded to another one: no number with a significand of fifty-three bits is nearer, and
if a different one is as near then the significand that is taken is even.
-/
structure IsRounded (number rounded : Nat) : Prop where
  exists_significand : ∃ significand, HasSignificand significand rounded
  nearest : ∀ {significand other}, HasSignificand significand other →
    Nat.dist rounded number ≤ Nat.dist other number
  even : ∀ {own significand other}, HasSignificand own rounded → HasSignificand significand other →
    other ≠ rounded → Nat.dist rounded number = Nat.dist other number → own % 2 = 0

/-- A number is halfway between the one that it is rounded down to and a larger one. -/
def TiesDown (number : Nat) : Prop :=
  ∃ rounded significand upper, IsRounded number rounded ∧ rounded < number ∧
    HasSignificand significand upper ∧ number - rounded = upper - number

/-- A number with a significand is the magnitude of a rank, which is even where that is. -/
theorem HasSignificand.exists_rank {significand number : Nat}
    (has : HasSignificand significand number) :
    ∃ rank, wholeRank ≤ rank ∧ units rank = number * unitsPerOne ∧
      rank % 2 = significand % 2 := by
  obtain ⟨full, within, shift, rfl⟩ := has
  refine ⟨(shift + 1074) * blockSize + significand, ?_, units_whole shift full within.le, ?_⟩
  · -- The scale of ones is the least that the significand stands at.
    have := Nat.mul_le_mul_right blockSize (Nat.le_add_left 1074 shift)
    unfold wholeRank
    omega
  · rw [Nat.add_comm, add_blocks_mod_two]

/-- The magnitude of a whole rank has a significand, which is even where the rank is. -/
theorem exists_hasSignificand {rank : Nat} (whole : wholeRank ≤ rank) :
    ∃ significand number, HasSignificand significand number ∧
      units rank = number * unitsPerOne ∧ rank % 2 = significand % 2 := by
  obtain ⟨shift, significand, rfl, full, within⟩ := exists_whole whole
  refine ⟨significand, _, ⟨full, within, shift, rfl⟩, units_whole shift full within.le, ?_⟩
  rw [Nat.add_comm, add_blocks_mod_two]

/-- A step of a scale behind the largest significand there is the first one of the next scale. -/
theorem exists_hasSignificand_mul {significand : Nat} (full : blockSize ≤ significand)
    (within : significand ≤ 2 * blockSize) (shift : Nat) :
    ∃ own, HasSignificand own (significand * 2 ^ shift) := by
  rcases Nat.lt_or_eq_of_le within with less | rfl
  · exact ⟨significand, full, less, shift, rfl⟩
  · have positive := blockSize_pos
    -- Twice the size is the size itself with one zero more behind it.
    refine ⟨blockSize, Nat.le_refl _, by omega, shift + 1, ?_⟩
    rw [Nat.pow_succ]
    ring

/-- Magnitudes that are whole numbers are as many units apart as those are. -/
theorem unitsApart_of_units_eq {rank size : Nat} (whole : units rank = size * unitsPerOne)
    (number : Nat) :
    unitsApart rank (number * unitsPerOne) = Nat.dist size number * unitsPerOne := by
  rw [← Nat.dist_mul_right, ← whole, unitsApart, Nat.dist]
  omega

section

variable {number rounded : Nat} (wide : 2 * blockSize ≤ number)

include wide

/-- The leading one of a number of more than fifty-three bits has as many behind it. -/
theorem lt_log2 : 52 < number.log2 := by
  have positive := blockSize_pos
  rw [Nat.lt_iff_add_one_le, Nat.le_log2 (by omega)]
  exact wide

/-- The rank nearest to a number of more than fifty-three bits is whole. -/
theorem wholeRank_le : wholeRank ≤ nearestRank (number * unitsPerOne) 1 :=
  le_trans (by decide) (wideRank_le wide)

/-- What a number of more than fifty-three bits is rounded to has as many bits itself. -/
theorem IsRounded.two_mul_blockSize_le (round : IsRounded number rounded) :
    2 * blockSize ≤ rounded := by
  -- The least such number is nearer than everything below it.
  obtain ⟨_, least⟩ := exists_hasSignificand_mul (Nat.le_refl blockSize) (by omega) 1
  have near := round.nearest least
  unfold Nat.dist at near
  omega

/-- What a number is rounded to is the magnitude of the nearest rank. -/
theorem IsRounded.units_nearestRank (round : IsRounded number rounded) :
    units (nearestRank (number * unitsPerOne) 1) = rounded * unitsPerOne := by
  obtain ⟨own, has⟩ := round.exists_significand
  obtain ⟨rank, _, same, parity⟩ := has.exists_rank
  -- No other rank with a whole magnitude is nearer.
  have near (other : Nat) (differs : other ≠ rank) (whole : wholeRank ≤ other) :
      unitsApart rank (number * unitsPerOne) ≤ unitsApart other (number * unitsPerOne) ∧
        (unitsApart rank (number * unitsPerOne) = unitsApart other (number * unitsPerOne) →
          rank % 2 = 0) := by
    obtain ⟨significand, size, has', same', _⟩ := exists_hasSignificand whole
    rw [unitsApart_of_units_eq same, unitsApart_of_units_eq same', parity]
    refine ⟨Nat.mul_le_mul_right _ (round.nearest has'), fun tie => ?_⟩
    refine round.even has has' (fun equal => differs ?_)
      (Nat.eq_of_mul_eq_mul_right unitsPerOne_pos tie)
    -- Two different ranks have different magnitudes.
    rw [equal, ← same] at same'
    exact units_strictMono.injective same'
  -- The rank is wide, so both of its neighbours have whole magnitudes.
  have least : wideRank ≤ rank := by
    rw [← units_strictMono.le_iff_le, units_wideRank, same]
    exact Nat.mul_le_mul_right _ (round.two_mul_blockSize_le wide)
  have room : wholeRank < wideRank := by decide
  rw [nearestRank_eq_of_unitsApart (.inr (near _ (by omega) (by omega)))
    fun below next => near below (by omega) (by omega), same]

/-- A number is rounded to another one if that is the magnitude of the nearest rank. -/
theorem isRounded_iff :
    IsRounded number rounded ↔
      units (nearestRank (number * unitsPerOne) 1) = rounded * unitsPerOne := by
  refine ⟨fun round => round.units_nearestRank wide, fun same => ?_⟩
  have near (other : Nat) := unitsApart_nearestRank (number * unitsPerOne) other
  -- Every number with a significand has a rank, so what is told of ranks is told of them.
  refine ⟨?_, fun has => ?_, fun own has differs tie => ?_⟩
  · obtain ⟨significand, size, has, same', _⟩ := exists_hasSignificand (wholeRank_le wide)
    rw [same] at same'
    rw [Nat.eq_of_mul_eq_mul_right unitsPerOne_pos same']
    exact ⟨significand, has⟩
  · obtain ⟨rank, _, same', _⟩ := has.exists_rank
    have bound := (near rank).1
    rw [unitsApart_of_units_eq same, unitsApart_of_units_eq same'] at bound
    exact Nat.le_of_mul_le_mul_right bound unitsPerOne_pos
  · obtain ⟨rank, _, same', _⟩ := has.exists_rank
    obtain ⟨rank', _, same'', parity⟩ := own.exists_rank
    rw [← same] at same''
    rw [← parity, units_strictMono.injective same'']
    refine (near rank).2 (fun equal => differs ?_) ?_
    · rw [equal, same] at same'
      exact (Nat.eq_of_mul_eq_mul_right unitsPerOne_pos same').symm
    · rw [unitsApart_of_units_eq same, unitsApart_of_units_eq same', tie]

/-- Every number of more than fifty-three bits is rounded to one number. -/
theorem existsUnique_isRounded : ∃! rounded, IsRounded number rounded := by
  obtain ⟨_, rounded, _, same, _⟩ := exists_hasSignificand (wholeRank_le wide)
  refine ⟨rounded, (isRounded_iff wide).mpr same, fun other (round : IsRounded number other) => ?_⟩
  -- Being rounded says what the magnitude of the nearest rank is, and that is one number.
  rw [isRounded_iff wide, same] at round
  exact (Nat.eq_of_mul_eq_mul_right unitsPerOne_pos round).symm

/-- A number is rounded by at most half a step of its own scale. -/
theorem IsRounded.dist_le (round : IsRounded number rounded) :
    2 * Nat.dist rounded number ≤ 2 ^ (number.log2 - 52) := by
  obtain ⟨upper, lower⟩ := scale_bounds number Nat.one_pos
  have long := lt_log2 wide
  rw [Nat.div_one, Nat.one_mul] at upper lower
  have lower := lower (Nat.sub_pos_of_lt long)
  -- The number is between two neighbouring significands of its scale.
  have positive : 0 < 2 ^ (number.log2 - 52) := Nat.two_pow_pos _
  have full := (Nat.le_div_iff_mul_le positive).mpr lower
  have within := (Nat.div_lt_iff_lt_mul positive).mpr upper
  obtain ⟨_, below⟩ := exists_hasSignificand_mul full within.le (number.log2 - 52)
  obtain ⟨_, above⟩ := exists_hasSignificand_mul (Nat.le_succ_of_le full) within (number.log2 - 52)
  have downwards := round.nearest below
  have upwards := round.nearest above
  have whole := Nat.div_add_mod' number (2 ^ (number.log2 - 52))
  have rest := Nat.mod_lt number positive
  rw [Nat.succ_mul] at upwards
  unfold Nat.dist at *
  omega

/-- An even tie is the midpoint above the rank that it is rounded to. -/
theorem isEvenTie_iff : IsEvenTie number ↔
    midpoint (nearestRank (number * unitsPerOne) 1) = 2 * (number * unitsPerOne) := by
  refine ⟨IsEvenTie.midpoint_eq, fun reached => ?_⟩
  -- Rounding would go up from the midpoint above an odd rank.
  obtain ⟨_, even⟩ := le_midpoint (Nat.le_refl (nearestRank (number * unitsPerOne) 1))
  obtain ⟨centre, _, middle, _, _, tie⟩ := exists_whole_midpoint (wideRank_le wide)
  have own : centre = number := by
    rw [reached] at middle
    exact (Nat.eq_of_mul_eq_mul_right unitsPerOne_pos
      (Nat.eq_of_mul_eq_mul_left Nat.two_pos middle)).symm
  exact own ▸ tie (even reached.symm)

/-- A tie that is rounded down is the midpoint above the rank that it is rounded to. -/
theorem TiesDown.midpoint_eq (tie : TiesDown number) :
    midpoint (nearestRank (number * unitsPerOne) 1) = 2 * (number * unitsPerOne) := by
  obtain ⟨rounded, significand, upper, round, less, has, halfway⟩ := tie
  obtain ⟨rank, _, same, _⟩ := has.exists_rank
  have own := round.units_nearestRank wide
  -- The larger number has a higher rank, so the next magnitude does not pass it.
  have above : nearestRank (number * unitsPerOne) 1 < rank := by
    rw [← units_strictMono.lt_iff_lt, own, same]
    exact Nat.mul_lt_mul_of_pos_right (by omega) unitsPerOne_pos
  -- The midpoint is no further than halfway to the larger number, and the number not past it.
  refine Nat.le_antisymm ?_ (le_midpoint (Nat.le_refl _)).1
  calc midpoint (nearestRank (number * unitsPerOne) 1)
      ≤ rounded * unitsPerOne + upper * unitsPerOne := by
        rw [midpoint, own, ← same]
        exact Nat.add_le_add_left (units_strictMono.monotone above) _
    _ = 2 * (number * unitsPerOne) := by
        rw [← Nat.add_mul, show rounded + upper = 2 * number by omega, Nat.mul_assoc]

/-- The ties that are rounded down are those above an even significand. -/
theorem tiesDown_iff : TiesDown number ↔ IsEvenTie number := by
  refine ⟨fun tie => (isEvenTie_iff wide).mpr (tie.midpoint_eq wide), fun tie => ?_⟩
  obtain ⟨rounded, round, _⟩ := existsUnique_isRounded wide
  obtain ⟨significand, upper, has, same, _⟩ :=
    exists_hasSignificand (Nat.le_succ_of_le (wholeRank_le wide))
  have own := round.units_nearestRank wide
  have next := units_lt_succ (nearestRank (number * unitsPerOne) 1)
  -- The tie lies as far from the next number as from the one that it is rounded to.
  have middle := tie.midpoint_eq
  rw [midpoint, own, same, ← Nat.add_mul, ← Nat.mul_assoc] at middle
  rw [own, same] at next
  have sum := Nat.eq_of_mul_eq_mul_right unitsPerOne_pos middle
  have less := Nat.lt_of_mul_lt_mul_right next
  exact ⟨rounded, significand, upper, round, by omega, has, by omega⟩

end

/-- Digits behind a number move its leading binary digit by as many places. -/
theorem log2_moved {number places rest : Nat} (nonzero : number ≠ 0) (below : rest < 2 ^ places) :
    (number * 2 ^ places + rest).log2 = number.log2 + places := by
  have lower := Nat.mul_le_mul_right (2 ^ places) (Nat.log2_self_le nonzero)
  have upper := moved_lt (Nat.lt_log2_self (n := number)) below
  have positive := Nat.mul_pos (Nat.pos_of_ne_zero nonzero) (Nat.two_pow_pos places)
  -- The moved number is between the powers of two that are moved alike.
  rw [Nat.log2_eq_iff (by omega), Nat.pow_add, Nat.add_right_comm, Nat.pow_add _ (_ + 1)]
  omega

/-- A number with zeros behind it reaches a power of two if any other digits make it do so. -/
theorem two_pow_le_moved {number places rest bound : Nat} (nonzero : number ≠ 0)
    (below : rest < 2 ^ places) (reached : 2 ^ bound ≤ number * 2 ^ places + rest) :
    2 ^ bound ≤ number * 2 ^ places := by
  rcases Nat.le_total bound places with few | many
  · -- Zeros alone already make so many places.
    exact (Nat.pow_le_pow_right Nat.two_pos few).trans
      (Nat.le_mul_of_pos_left _ (Nat.pos_of_ne_zero nonzero))
  · -- The power is a number of such places too, so it is no less than the number in front.
    obtain ⟨distance, rfl⟩ := Nat.exists_eq_add_of_le' many
    rw [Nat.pow_add] at reached ⊢
    refine Nat.mul_le_mul_right _ (Nat.le_of_not_lt fun less => ?_)
    have := moved_lt less below
    omega

/-- Two whole numbers are less than a third one apart if their distance is less than that. -/
theorem abs_sub_lt_of_dist_lt {left right bound : Nat} (less : Nat.dist left right < bound) :
    |(left : Rat) - right| < bound := by
  rw [abs_sub_lt_iff, sub_lt_iff_lt_add', sub_lt_iff_lt_add']
  unfold Nat.dist at less
  constructor <;> norm_cast <;> omega

end Reckon
