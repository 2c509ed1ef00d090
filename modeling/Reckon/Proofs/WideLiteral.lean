import Reckon.Proofs.Binary64.Significand
import Reckon.Proofs.LiteralRounding

/-! What a run of digits is read as that denotes a number too wide to be rounded in one step. -/

namespace Reckon

/-- A text is a run of digits to a base, with these values. -/
def IsRun (radix : Nat) (text : String) (digits : List Nat) : Prop :=
  text.toList.map (digitValue? radix) = digits.map some

instance (radix : Nat) (text : String) (digits : List Nat) : Decidable (IsRun radix text digits) :=
  inferInstanceAs (Decidable (_ = _))

namespace IsRun

variable {radix : Nat} {text : String} {digits : List Nat}

/-- The values of a run are what its characters are as digits. -/
theorem filterMap_eq (run : IsRun radix text digits) :
    text.toList.filterMap (digitValue? radix) = digits := by
  -- The characters have these values and no others, so dropping what has none drops nothing.
  have values := congrArg (List.filterMap id) run
  simpa [List.filterMap_map] using values

/-- Every character of a run is a digit. -/
theorem isSome_digitValue? (run : IsRun radix text digits) :
    ∀ c ∈ text.toList, (digitValue? radix c).isSome = true := by
  intro c member
  have value := List.mem_map_of_mem (f := digitValue? radix) member
  rw [run] at value
  -- The value of a character of the run is one of the digits.
  obtain ⟨digit, _, same⟩ := List.mem_map.mp value
  exact same ▸ rfl

/-- The values of a run are below the base. -/
theorem lt_of_mem (run : IsRun radix text digits) : ∀ digit ∈ digits, digit < radix := by
  rw [← run.filterMap_eq]
  exact lt_of_mem_digits radix text.toList

/-- A wide run is read as the value of the rank that it is folded to. -/
theorem ofDigits?_eq {width : Nat} (run : IsRun (2 ^ width) text digits) (positive : 0 < width)
    (small : width ≤ 5) (wide : wideBound ≤ valueOfDigits (2 ^ width) digits) :
    Binary64.ofDigits? text (2 ^ width) =
      some (.ofRank false (foldRank (2 ^ width) digits)) := by
  have number : numberOf (2 ^ width) text.toList = valueOfDigits (2 ^ width) digits :=
    congrArg (valueOfDigits (2 ^ width)) run.filterMap_eq
  -- An empty run denotes zero, which is not wide.
  have occupied : text.toList ≠ [] := by
    intro nothing
    have zero : numberOf (2 ^ width) [] = 0 := rfl
    rw [← number, nothing, zero] at wide
    exact absurd wide (by decide)
  -- There are enough digits and letters for bases of up to five bits.
  have least : 2 ^ 1 ≤ 2 ^ width := Nat.pow_le_pow_right Nat.two_pos positive
  have most : 2 ^ width ≤ 2 ^ 5 := Nat.pow_le_pow_right Nat.two_pos small
  have base : (2 ≤ 2 ^ width && 2 ^ width ≤ 36) = true := by
    rw [Bool.and_eq_true, decide_eq_true_iff, decide_eq_true_iff]
    omega
  rw [Binary64.ofDigits?, if_pos base, ofDigits_of_le (by omega) occupied run.isSome_digitValue?
    (number ▸ wide), run.filterMap_eq]

end IsRun

namespace IsCut

variable {width : Nat} {digits front back : List Nat} {rounded : Nat}
  (cut : IsCut (2 ^ width) digits front back) (inside : ∀ digit ∈ digits, digit < 2 ^ width)

include cut

/-- The front of a run that is cut is not zero. -/
theorem ne_zero : valueOfDigits (2 ^ width) front ≠ 0 := by
  have := cut.wide
  have := blockSize_pos
  omega

include inside

/-- A run that is cut denotes its front moved by the places behind it, and what stands there. -/
theorem valueOfDigits_eq : ∃ rest < 2 ^ (width * back.length),
    valueOfDigits (2 ^ width) digits =
      valueOfDigits (2 ^ width) front * 2 ^ (width * back.length) + rest := by
  rw [cut.whole] at inside ⊢
  -- The places behind the cut hold less than one more place would be worth.
  have below := valueOfDigits_lt (List.forall_mem_append.mp inside).2
  rw [valueOfDigits_append, Nat.pow_mul]
  exact ⟨_, below, rfl⟩

/-- A run is folded to what its front is rounded to, moved by the places behind it. -/
theorem units_foldRank (round : IsRounded (valueOfDigits (2 ^ width) front) rounded) :
    units (foldRank (2 ^ width) digits) =
      rounded * (2 ^ width) ^ back.length * unitsPerOne := by
  -- The rank of the front is normal, from where a binade more doubles what a rank stands for.
  have normal := le_trans (by decide : blockSize ≤ wideRank) (wideRank_le cut.wide)
  rw [cut.foldRank_eq inside, units_add_blocks normal, round.units_nearestRank cut.wide,
    Nat.pow_mul, Nat.mul_right_comm]

/-- A run is folded to a finite rank if what its front is rounded to is moved to less than the next
power of two. -/
theorem foldRank_lt_iff (round : IsRounded (valueOfDigits (2 ^ width) front) rounded) :
    foldRank (2 ^ width) digits < finiteCount ↔
      rounded * (2 ^ width) ^ back.length < 1 <<< 1024 := by
  -- Ranks compare as the units that they stand for.
  rw [← units_strictMono.lt_iff_lt, cut.units_foldRank inside round, units_finiteCount,
    Nat.mul_lt_mul_right unitsPerOne_pos]

/-- A finite rank that a run is folded to stands for the rounded front, moved by those places. -/
theorem isFinite_and_toRat_eq (round : IsRounded (valueOfDigits (2 ^ width) front) rounded)
    (finite : foldRank (2 ^ width) digits < finiteCount) :
    (Binary64.ofRank false (foldRank (2 ^ width) digits)).isFinite = true ∧
      (Binary64.ofRank false (foldRank (2 ^ width) digits)).toRat =
        (rounded * (2 ^ width) ^ back.length : Nat) := by
  -- A rank below the last one stands for its units exactly.
  rw [Binary64.ofRank, dif_pos finite]
  exact ⟨rfl, magnitude_of_units_eq (cut.units_foldRank inside round)⟩

/-- What a run is folded to is less than a step of its number's scale away from that. -/
theorem dist_lt (round : IsRounded (valueOfDigits (2 ^ width) front) rounded) :
    Nat.dist (rounded * (2 ^ width) ^ back.length) (valueOfDigits (2 ^ width) digits) <
      2 ^ ((valueOfDigits (2 ^ width) digits).log2 - 52) := by
  obtain ⟨rest, below, number⟩ := cut.valueOfDigits_eq inside
  have long := lt_log2 cut.wide
  have half := round.dist_le cut.wide
  -- The step is at least two, so half of one is a whole number.
  have step : 2 ^ 1 ≤ 2 ^ ((valueOfDigits (2 ^ width) front).log2 - 52) :=
    Nat.pow_le_pow_right Nat.two_pos (by omega)
  rw [number, log2_moved cut.ne_zero below, Nat.sub_add_comm long.le, Nat.pow_add, ← Nat.pow_mul]
  generalize valueOfDigits (2 ^ width) front = leading at *
  -- Half a step is lost where the front is rounded, and less than half of one behind it.
  calc Nat.dist (rounded * 2 ^ (width * back.length)) (leading * 2 ^ (width * back.length) + rest)
      ≤ Nat.dist (rounded * 2 ^ (width * back.length)) (leading * 2 ^ (width * back.length)) +
          Nat.dist (leading * 2 ^ (width * back.length))
            (leading * 2 ^ (width * back.length) + rest) := Nat.dist.triangle_inequality _ _ _
    _ = Nat.dist rounded leading * 2 ^ (width * back.length) + rest := by
        rw [Nat.dist_mul_right, Nat.dist_eq_sub_of_le (Nat.le_add_right _ _),
          Nat.add_sub_cancel_left]
    _ < 2 ^ (leading.log2 - 52) * 2 ^ (width * back.length) :=
        moved_lt (by omega) below

/-- With as many other digits behind the cut a run that is too wide stays so. -/
theorem wideBound_le_of_back (wide : wideBound ≤ valueOfDigits (2 ^ width) digits)
    {other : List Nat} (same : other.length = back.length) :
    wideBound ≤ valueOfDigits (2 ^ width) (front ++ other) := by
  have bound : wideBound = 2 ^ 128 := rfl
  obtain ⟨rest, below, number⟩ := cut.valueOfDigits_eq inside
  rw [number, bound] at wide
  rw [valueOfDigits_append, same, ← Nat.pow_mul, bound]
  -- The bound is a power of two that the front by itself reaches, moved by its places.
  exact Nat.le_add_right_of_le (two_pow_le_moved cut.ne_zero below wide)

end IsCut

/--
What a run of digits is read as that is cut behind its front, where that is rounded to a number.

The value is the rounded front, moved by the places behind the cut, or infinity from the next power
of two on. What stands at those places makes no other difference to it, so the value is less than a
step of the number's own scale away from the number, and it is the nearest one unless the front is a
tie that is rounded down and more than zeros are behind it.
-/
structure WideReading (radix : Nat) (digits front back : List Nat) (rounded : Nat)
    (value : Binary64) : Prop where
  finite : rounded * radix ^ back.length < 1 <<< 1024 →
    value.isFinite = true ∧ value.toRat = (rounded * radix ^ back.length : Nat)
  infinite : 1 <<< 1024 ≤ rounded * radix ^ back.length → value = .infinity false
  later : ∀ {text : String} {places : List Nat}, IsRun radix text (front ++ places) →
    places.length = back.length → Binary64.ofDigits? text radix = some value
  infinite_iff : value = .infinity false ↔ overflowStart ≤ valueOfDigits radix digits
  near : value ≠ .infinity false →
    |value.toRat - valueOfDigits radix digits| < 2 ^ ((valueOfDigits radix digits).log2 - 52)
  not_isNearest_iff : ¬ value.IsNearest (valueOfDigits radix digits) ↔
    valueOfDigits radix digits < overflowStart ∧ TiesDown (valueOfDigits radix front) ∧
      ∃ digit ∈ back, digit ≠ 0

/-- A run of digits that is cut is read as its rounded front, moved by the places behind it. -/
theorem IsCut.wideReading {width : Nat} {digits front back : List Nat} {rounded : Nat}
    (cut : IsCut (2 ^ width) digits front back) (inside : ∀ digit ∈ digits, digit < 2 ^ width)
    (round : IsRounded (valueOfDigits (2 ^ width) front) rounded) (positive : 0 < width)
    (small : width ≤ 5) (wide : wideBound ≤ valueOfDigits (2 ^ width) digits) :
    WideReading (2 ^ width) digits front back rounded
      (.ofRank false (foldRank (2 ^ width) digits)) where
  finite less :=
    cut.isFinite_and_toRat_eq inside round ((cut.foldRank_lt_iff inside round).mpr less)
  infinite reached :=
    Binary64.ofRank_eq_infinity_iff.mpr
      (mt (cut.foldRank_lt_iff inside round).mp (Nat.not_lt.mpr reached))
  later {text places} run same := by
    -- The front is the same and so is the number of places, on which alone the fold depends.
    rw [run.ofDigits?_eq positive small (cut.wideBound_le_of_back inside wide same),
      (cut.of_back places).foldRank_eq run.lt_of_mem, cut.foldRank_eq inside, same]
  infinite_iff := by
    rw [Binary64.ofRank_eq_infinity_iff, foldRank_lt_finiteCount_iff inside, Nat.not_lt]
  near finite := by
    have rank := not_not.mp (mt Binary64.ofRank_eq_infinity_iff.mpr finite)
    -- What is apart by less than a step as whole numbers is so as rationals.
    have apart := abs_sub_lt_of_dist_lt (cut.dist_lt inside round)
    rw [(cut.isFinite_and_toRat_eq inside round rank).2]
    exact_mod_cast apart
  not_isNearest_iff := by
    rw [Binary64.isNearest_iff, ofRank_foldRank_eq_ofNat_iff inside, not_not,
      cut.losesTie_iff inside, tiesDown_iff cut.wide]

/--
A hexadecimal or binary run of digits whose number is too wide to be rounded in one step is read as
its shortest front of more than fifty-three bits, rounded and moved by the places behind it.
-/
theorem exists_wideReading {radix : Nat} (base : radix = 16 ∨ radix = 2) {text : String}
    {digits : List Nat} (run : IsRun radix text digits)
    (wide : wideBound ≤ valueOfDigits radix digits) :
    ∃ value front back rounded, Binary64.ofDigits? text radix = some value ∧
      IsCut radix digits front back ∧
      (∀ other, IsRounded (valueOfDigits radix front) other ↔ other = rounded) ∧
      WideReading radix digits front back rounded value := by
  obtain ⟨width, positive, small, rfl⟩ : ∃ width, 0 < width ∧ width ≤ 5 ∧ radix = 2 ^ width := by
    rcases base with rfl | rfl
    · exact ⟨4, by decide, by decide, rfl⟩
    · exact ⟨1, by decide, by decide, rfl⟩
  -- So wide a run has more than fifty-three bits, and with them a place to be cut at.
  have least : 2 * blockSize ≤ wideBound := by decide
  obtain ⟨front, back, cut⟩ := exists_isCut (Nat.two_pow_pos width) (least.trans wide)
  obtain ⟨rounded, round, only⟩ := existsUnique_isRounded cut.wide
  refine ⟨_, front, back, rounded, run.ofDigits?_eq positive small wide, cut, ?_,
    cut.wideReading run.lt_of_mem round positive small wide⟩
  exact fun other => ⟨only other, fun same => same ▸ round⟩

/-- Thirty-five hexadecimal digits that start with a tie are read as if they ended with zeros. -/
theorem exists_wideReading_tie :
    ∃ value, Binary64.ofDigits? "00200000000000010000000000000000001" 16 = some value ∧
      Binary64.ofDigits? "00200000000000010000000000000000000" 16 = some value ∧
      value ≠ .infinity false ∧ ¬ value.IsNearest 0x200000000000010000000000000000001 := by
  have run : IsRun 16 "00200000000000010000000000000000001"
      ([0, 0, 2, 0, 0, 0, 0, 0, 0, 0, 0, 0, 0, 0, 0] ++ [1] ++
        [0, 0, 0, 0, 0, 0, 0, 0, 0, 0, 0, 0, 0, 0, 0, 0, 0, 0, 1]) := by decide
  obtain ⟨value, front, back, rounded, read, cut, _, reading⟩ :=
    exists_wideReading (.inl rfl) run (by decide)
  -- The tie is one above two to the power of fifty-three, with nineteen digits behind it.
  obtain ⟨rfl, rfl⟩ := cut.eq_and_eq ((isCut_concat (by decide) (by decide) (by decide)).of_back _)
  -- With zeros behind the tie there is the same front, so the other digit makes no difference.
  have zeros : IsRun 16 "00200000000000010000000000000000000"
      ([0, 0, 2, 0, 0, 0, 0, 0, 0, 0, 0, 0, 0, 0, 0] ++ [1] ++ List.replicate 19 0) := by decide
  refine ⟨value, read, reading.later zeros rfl, ?_, ?_⟩
  · rw [Ne, reading.infinite_iff]
    decide
  · exact reading.not_isNearest_iff.mpr
      ⟨by decide, (tiesDown_iff (by decide)).mpr ⟨0, blockSize, by decide⟩, by decide⟩

end Reckon
