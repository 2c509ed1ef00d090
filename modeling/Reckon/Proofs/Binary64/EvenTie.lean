import Reckon.Proofs.Binary64.WholeNumber

/-! Whole numbers of more than fifty-three bits, and the ties that digits behind them break. -/

namespace Reckon

/-- From this rank on all magnitudes are whole numbers with a full significand. -/
def wholeRank : Nat := 1075 * blockSize

/-- From this rank on neighbouring magnitudes are two or more apart. -/
def wideRank : Nat := 1076 * blockSize

/-- A whole rank is a full significand, whose scale is that of ones or above. -/
theorem exists_whole {rank : Nat} (whole : wholeRank ≤ rank) :
    ∃ shift significand, rank = (shift + 1074) * blockSize + significand ∧
      blockSize ≤ significand ∧ significand < 2 * blockSize := by
  obtain ⟨scale, significand, rfl, full, within⟩ := rank_eq rank
  -- Below this scale not even a full significand reaches the rank.
  have least : 1074 ≤ scale := by
    refine Nat.le_of_not_lt fun less => ?_
    have := Nat.mul_le_mul_right blockSize (show scale ≤ 1073 by omega)
    unfold wholeRank at whole
    omega
  obtain ⟨shift, rfl⟩ := Nat.exists_eq_add_of_le' least
  exact ⟨shift, significand, rfl, full.resolve_left (Nat.succ_ne_zero _), within⟩

/-- A wide rank is a full significand, whose scale is a whole number of twos. -/
theorem exists_wide {rank : Nat} (wide : wideRank ≤ rank) :
    ∃ shift significand, rank = (shift + 1074 + 1) * blockSize + significand ∧
      blockSize ≤ significand ∧ significand < 2 * blockSize := by
  obtain ⟨shift, significand, rfl, full, within⟩ := exists_whole (le_trans (by decide) wide)
  cases shift with
  -- At the scale of ones the rank would be less than that of twos.
  | zero =>
    unfold wideRank at wide
    omega
  | succ shift => exact ⟨shift, significand, by rw [Nat.add_right_comm], full, within⟩

section

variable (shift : Nat) {significand : Nat}

/-- A full significand at the scale of ones or above is a whole number. -/
theorem units_whole (full : blockSize ≤ significand) (within : significand ≤ 2 * blockSize) :
    units ((shift + 1074) * blockSize + significand) = significand * 2 ^ shift * unitsPerOne := by
  rw [units_significand (.inr full) within, unitsPerOne_eq]
  -- The power is too large to be computed, so the exponent is taken for any number.
  generalize 1074 = exponent
  rw [Nat.pow_add, Nat.mul_assoc]

/-- The magnitude of a wide rank is a whole number, and even. -/
theorem units_wide (full : blockSize ≤ significand) (within : significand ≤ 2 * blockSize) :
    units ((shift + 1074 + 1) * blockSize + significand) =
      2 * significand * 2 ^ shift * unitsPerOne := by
  rw [Nat.add_right_comm, units_whole (shift + 1) full within]
  ring

/-- The midpoint above a wide rank is a whole number too. -/
theorem midpoint_wide (full : blockSize ≤ significand) (within : significand < 2 * blockSize) :
    midpoint ((shift + 1074 + 1) * blockSize + significand) =
      2 * ((2 * significand + 1) * 2 ^ shift * unitsPerOne) := by
  have next : significand + 1 ≤ 2 * blockSize := within
  rw [midpoint, units_wide shift full within.le, Nat.add_assoc, units_wide shift (by omega) next]
  ring

end

/-- The least wide rank stands for the least number of more than fifty-three bits. -/
theorem units_wideRank : units wideRank = 2 * blockSize * unitsPerOne := by
  have rank : wideRank = (0 + 1074 + 1) * blockSize + blockSize := rfl
  rw [rank, units_wide 0 (Nat.le_refl _) (by omega), Nat.pow_zero, Nat.mul_one]

/-- A number of more than fifty-three bits is rounded to a wide rank. -/
theorem wideRank_le {number : Nat} (wide : 2 * blockSize ≤ number) :
    wideRank ≤ nearestRank (number * unitsPerOne) 1 := by
  -- The least wide magnitude is rounded to itself, and rounding keeps the order.
  have own := nearestRank_units wideRank Nat.one_pos
  rw [Nat.mul_one, units_wideRank] at own
  rw [← own]
  exact nearestRank_mono Nat.one_pos (Nat.mul_le_mul_right _ wide)

/-- A number is rounded to at most a rank below a whole midpoint if it is below the midpoint, or
the midpoint itself and the rank is even. -/
theorem nearestRank_le_iff_of_midpoint (number : Nat) {rank centre : Nat}
    (middle : midpoint rank = 2 * (centre * unitsPerOne)) :
    nearestRank (number * unitsPerOne) 1 ≤ rank ↔
      number < centre ∨ number = centre ∧ rank % 2 = 0 := by
  rw [nearestRank_le_iff Nat.one_pos, middle, Nat.one_mul, Nat.mul_lt_mul_left Nat.two_pos,
    Nat.mul_lt_mul_right unitsPerOne_pos, Nat.mul_right_inj (by decide),
    Nat.mul_left_inj unitsPerOne_pos.ne']

/-- A number halfway between two neighbouring values, of which the lower one is even. -/
def IsEvenTie (number : Nat) : Prop :=
  ∃ shift significand, blockSize ≤ significand ∧ significand < 2 * blockSize ∧
    significand % 2 = 0 ∧ number = (2 * significand + 1) * 2 ^ shift

/-- An even tie is rounded down to the rank that it is the midpoint above of. -/
theorem IsEvenTie.midpoint_eq {number : Nat} (tie : IsEvenTie number) :
    midpoint (nearestRank (number * unitsPerOne) 1) = 2 * (number * unitsPerOne) := by
  obtain ⟨shift, significand, full, within, even, rfl⟩ := tie
  have middle := midpoint_wide shift full within
  -- Blocks have an even size, so the rank is as even as its significand.
  have parity : ((shift + 1074 + 1) * blockSize + significand) % 2 = 0 := by
    rw [Nat.add_comm, add_blocks_mod_two, even]
  have rank : nearestRank ((2 * significand + 1) * 2 ^ shift * unitsPerOne) 1 =
      (shift + 1074 + 1) * blockSize + significand := by
    refine Nat.le_antisymm ?_ (Nat.le_of_not_lt fun less => ?_)
    · exact (nearestRank_le_iff_of_midpoint _ middle).mpr (.inr ⟨rfl, parity⟩)
    · -- A lower rank has a lower midpoint above it, which the tie would be past.
      have below := le_midpoint
        (Nat.le_refl (nearestRank ((2 * significand + 1) * 2 ^ shift * unitsPerOne) 1))
      have := midpoint_strictMono less
      omega
  rw [rank, middle]

/-- An even tie has more than fifty-three bits. -/
theorem IsEvenTie.wide {number : Nat} (tie : IsEvenTie number) : 2 * blockSize ≤ number := by
  obtain ⟨shift, significand, full, _, _, rfl⟩ := tie
  -- The odd factor alone is that large.
  have := Nat.le_mul_of_pos_right (2 * significand + 1) (Nat.two_pow_pos shift)
  omega

/--
The midpoint above a wide rank is a whole number, and so is the next magnitude.

Above an even rank the midpoint is an even tie.
-/
theorem exists_whole_midpoint {rank : Nat} (wide : wideRank ≤ rank) :
    ∃ centre following, midpoint rank = 2 * (centre * unitsPerOne) ∧
      units (rank + 1) = following * unitsPerOne ∧ centre < following ∧
      (rank % 2 = 0 → IsEvenTie centre) := by
  obtain ⟨shift, significand, rfl, full, within⟩ := exists_wide wide
  refine ⟨(2 * significand + 1) * 2 ^ shift, 2 * (significand + 1) * 2 ^ shift,
    midpoint_wide shift full within, ?_, ?_, fun even => ?_⟩
  · rw [Nat.add_assoc]
    exact units_wide shift (by omega) within
  · exact Nat.mul_lt_mul_of_pos_right (by omega) (Nat.two_pow_pos shift)
  · -- The rank is even, so the significand is, and the midpoint has the form of a tie.
    rw [Nat.add_comm, add_blocks_mod_two] at even
    exact ⟨shift, significand, full, within, even, rfl⟩

section

variable {number places rest : Nat}

/-- With any digits behind it a number stays below a larger one with zeros behind it. -/
theorem moved_lt {bound : Nat} (less : number < bound) (below : rest < 2 ^ places) :
    number * 2 ^ places + rest < bound * 2 ^ places := by
  -- The larger number is larger by one at least, which is more than the digits behind.
  have := Nat.mul_le_mul_right (2 ^ places) (Nat.succ_le_of_lt less)
  rw [Nat.succ_mul] at this
  omega

/-- What a number is once more digits are put behind it, in units. -/
theorem moved_units (number places rest : Nat) :
    (number * 2 ^ places + rest) * unitsPerOne =
      number * unitsPerOne * 2 ^ places + rest * unitsPerOne := by ring

/-- Digits behind a wide number move its rank by whole blocks at least. -/
theorem le_nearestRank_moved (wide : 2 * blockSize ≤ number) (places rest : Nat) :
    nearestRank (number * unitsPerOne) 1 + places * blockSize ≤
      nearestRank ((number * 2 ^ places + rest) * unitsPerOne) 1 := by
  have least := wideRank_le wide
  have above (lower : Nat) (less : lower < nearestRank (number * unitsPerOne) 1) :=
    midpoint_le less
  generalize nearestRank (number * unitsPerOne) 1 = rank at *
  have size : wideRank = 1076 * blockSize := rfl
  have positive := blockSize_pos
  -- The rank before is normal too, so the midpoint above it is moved with the number.
  obtain ⟨lower, rfl⟩ : ∃ lower, rank = lower + 1 := ⟨rank - 1, by omega⟩
  obtain ⟨reached, odd⟩ := above lower (Nat.lt_succ_self lower)
  have reached := Nat.mul_le_mul_right (2 ^ places) reached
  refine Nat.le_of_not_lt fun less => ?_
  -- If the moved number were rounded lower, it would not be above the moved midpoint.
  have below := le_midpoint (show nearestRank ((number * 2 ^ places + rest) * unitsPerOne) 1 ≤
    lower + places * blockSize by omega)
  rw [moved_units, midpoint_add_blocks (by omega), add_blocks_mod_two] at below
  have same :
      2 * (number * unitsPerOne) * 2 ^ places = 2 * (number * unitsPerOne * 2 ^ places) := by
    ring
  have cancelled : midpoint lower * 2 ^ places = 2 * (number * unitsPerOne) * 2 ^ places →
      midpoint lower = 2 * (number * unitsPerOne) :=
    Nat.eq_of_mul_eq_mul_right (Nat.two_pow_pos places)
  omega

/--
Digits behind a wide number move its rank by whole blocks, but for an even tie.

That is rounded down without the digits behind it, and up as soon as one of them is not zero.
-/
theorem nearestRank_moved (wide : 2 * blockSize ≤ number) (below : rest < 2 ^ places) :
    nearestRank ((number * 2 ^ places + rest) * unitsPerOne) 1 =
        nearestRank (number * unitsPerOne) 1 + places * blockSize ∨
      IsEvenTie number ∧ rest ≠ 0 ∧ nearestRank (number * unitsPerOne) 1 % 2 = 0 ∧
        nearestRank ((number * 2 ^ places + rest) * unitsPerOne) 1 =
          nearestRank (number * unitsPerOne) 1 + places * blockSize + 1 := by
  have lower := le_nearestRank_moved wide places rest
  have least := wideRank_le wide
  obtain ⟨under, even⟩ := le_midpoint (Nat.le_refl (nearestRank (number * unitsPerOne) 1))
  generalize nearestRank (number * unitsPerOne) 1 = rank at *
  have normal : blockSize ≤ rank := le_trans (by decide) least
  obtain ⟨centre, following, middle, next, apart, tie⟩ := exists_whole_midpoint least
  have moved : midpoint (rank + places * blockSize) = 2 * (centre * 2 ^ places * unitsPerOne) := by
    rw [midpoint_add_blocks normal, middle]
    ring
  have rounded := nearestRank_le_iff_of_midpoint (number * 2 ^ places + rest) moved
  rw [add_blocks_mod_two] at rounded
  rw [middle] at under even
  -- The number is below the midpoint that its rank is rounded up from, or on it.
  have within : number ≤ centre :=
    Nat.le_of_mul_le_mul_right (Nat.le_of_mul_le_mul_left under Nat.two_pos) unitsPerOne_pos
  -- Only the midpoint itself has no room for the digits behind it.
  rcases Nat.lt_or_eq_of_le within with less | rfl
  · exact .inl (Nat.le_antisymm (rounded.mpr (.inl (moved_lt less below))) lower)
  have even := even rfl
  by_cases nothing : rest = 0
  · exact .inl (Nat.le_antisymm (rounded.mpr (.inr ⟨by omega, even⟩)) lower)
  · -- The digits are more than the midpoint, but less than the next magnitude.
    have upper : nearestRank ((number * 2 ^ places + rest) * unitsPerOne) 1 ≤
        rank + 1 + places * blockSize := by
      have own := nearestRank_units (rank + 1 + places * blockSize) Nat.one_pos
      rw [units_add_blocks (by omega), next, Nat.mul_one, Nat.mul_right_comm] at own
      rw [← own]
      exact nearestRank_mono Nat.one_pos (Nat.mul_le_mul_right _ (moved_lt apart below).le)
    have above := mt rounded.mp (by omega)
    exact .inr ⟨tie even, nothing, even, by omega⟩

/-- Behind an even tie other digits than zeros are enough to be rounded up. -/
theorem IsEvenTie.lt_nearestRank_moved (tie : IsEvenTie number) (places : Nat)
    (nonzero : rest ≠ 0) :
    nearestRank (number * unitsPerOne) 1 + places * blockSize <
      nearestRank ((number * 2 ^ places + rest) * unitsPerOne) 1 := by
  have middle := tie.midpoint_eq
  have normal : blockSize ≤ nearestRank (number * unitsPerOne) 1 :=
    le_trans (by decide) (wideRank_le tie.wide)
  have moved : midpoint (nearestRank (number * unitsPerOne) 1 + places * blockSize) =
      2 * (number * 2 ^ places * unitsPerOne) := by
    rw [midpoint_add_blocks normal, middle]
    ring
  -- The midpoint is moved with the tie, and the digits put the number above it.
  refine Nat.lt_of_not_le fun least => ?_
  have := (nearestRank_le_iff_of_midpoint _ moved).mp least
  omega

end

/-- A number loses a tie if some of its leading digits are an even tie that later ones break. -/
def LosesTie (radix number : Nat) : Prop :=
  ∃ places, IsEvenTie (number / radix ^ places) ∧ number % radix ^ places ≠ 0

end Reckon
