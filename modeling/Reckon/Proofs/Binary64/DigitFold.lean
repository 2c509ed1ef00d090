import Reckon.Literal
import Reckon.Proofs.Binary64.EvenTie

/-! Runs of digits that are folded from the left, with a rounding after each digit. -/

namespace Reckon

/-- No digits denote zero. -/
@[simp] theorem valueOfDigits_nil (radix : Nat) : valueOfDigits radix [] = 0 := rfl

/-- A digit behind a run moves the number of the run by one place. -/
theorem valueOfDigits_concat (radix : Nat) (digits : List Nat) (digit : Nat) :
    valueOfDigits radix (digits ++ [digit]) = valueOfDigits radix digits * radix + digit := by
  simp [valueOfDigits]

/-- The number of two runs is that of the first one moved by the length of the second. -/
theorem valueOfDigits_append (radix : Nat) (front back : List Nat) :
    valueOfDigits radix (front ++ back) =
      valueOfDigits radix front * radix ^ back.length + valueOfDigits radix back := by
  -- The run is built from its end, where each digit moves what is before it.
  induction back using List.reverseRecOn with
  | nil => simp
  | append_singleton back digit ih =>
    rw [← List.append_assoc, valueOfDigits_concat, valueOfDigits_concat, ih, List.length_append,
      List.length_singleton, Nat.pow_succ]
    ring

/-- A run denotes no less than what it starts with. -/
theorem le_valueOfDigits_append {radix : Nat} (positive : 0 < radix) (front back : List Nat) :
    valueOfDigits radix front ≤ valueOfDigits radix (front ++ back) := by
  -- Moving a run makes it no less, and the digits behind only add to it.
  rw [valueOfDigits_append]
  exact Nat.le_add_right_of_le (Nat.le_mul_of_pos_right _ (Nat.pow_pos positive))

/-- A run denotes zero only if all of its digits are zeros. -/
theorem valueOfDigits_ne_zero_iff {radix : Nat} (positive : 0 < radix) {digits : List Nat} :
    valueOfDigits radix digits ≠ 0 ↔ ∃ digit ∈ digits, digit ≠ 0 := by
  induction digits using List.reverseRecOn with
  | nil => simp
  | append_singleton front digit ih =>
    -- A sum is zero only if both parts are, and moving does not make a number zero.
    have split : valueOfDigits radix (front ++ [digit]) ≠ 0 ↔
        valueOfDigits radix front ≠ 0 ∨ digit ≠ 0 := by
      rw [valueOfDigits_concat, Ne, Nat.add_eq_zero_iff, Nat.mul_eq_zero]
      omega
    rw [split, ih]
    simp [or_and_right, exists_or]

/-- A run of digits is below the power of the base that its length is. -/
theorem valueOfDigits_lt {radix : Nat} {digits : List Nat}
    (inside : ∀ digit ∈ digits, digit < radix) :
    valueOfDigits radix digits < radix ^ digits.length := by
  induction digits using List.reverseRecOn with
  | nil => simp
  | append_singleton front digit ih =>
    obtain ⟨front_inside, digit_inside⟩ := List.forall_mem_append.mp inside
    -- Even the largest front leaves one step of the base free, and the digit is less than that.
    have less := Nat.mul_le_mul_right radix (Nat.succ_le_of_lt (ih front_inside))
    have last := digit_inside digit (List.mem_singleton_self digit)
    rw [Nat.succ_mul] at less
    rw [valueOfDigits_concat, List.length_append, List.length_singleton, Nat.pow_succ]
    omega

/-- The value of a digit is below the base. -/
theorem digitValue?_lt {radix digit : Nat} {c : Char} (found : digitValue? radix c = some digit) :
    digit < radix := by
  simp only [digitValue?, Option.ite_none_right_eq_some] at found
  obtain ⟨small, value⟩ := found
  rwa [Option.some.inj value] at small

/-- The values of the digits in a text are below the base. -/
theorem lt_of_mem_digits (radix : Nat) (text : List Char) :
    ∀ digit ∈ text.filterMap (digitValue? radix), digit < radix := by
  intro digit member
  -- Every digit in the list is the value of some character.
  obtain ⟨c, _, found⟩ := List.mem_filterMap.mp member
  exact digitValue?_lt found

/-- The rank that a digit leads to from the rank of the run in front of it. -/
def digitRank (radix rank digit : Nat) : Nat :=
  nearestRank (units rank * radix + digit * unitsPerOne) 1

/-- The rank that a run of digits is folded to. -/
def foldRank (radix : Nat) (digits : List Nat) : Nat := digits.foldl (digitRank radix) 0

/-- No digits are folded to the rank of zero. -/
@[simp] theorem foldRank_nil (radix : Nat) : foldRank radix [] = 0 := rfl

/-- A digit behind a run leads to its rank from that of the run. -/
theorem foldRank_concat (radix : Nat) (digits : List Nat) (digit : Nat) :
    foldRank radix (digits ++ [digit]) = digitRank radix (foldRank radix digits) digit := by
  unfold foldRank
  rw [List.foldl_append, List.foldl_cons, List.foldl_nil]

/-- A digit behind a run never leads to a lower rank. -/
theorem le_digitRank {radix : Nat} (positive : 0 < radix) (rank digit : Nat) :
    rank ≤ digitRank radix rank digit := by
  -- The rank is what its own units are rounded to, and the digit makes them no fewer.
  have own : nearestRank (units rank) 1 = rank := by
    simpa using nearestRank_units rank Nat.one_pos
  have bound : units rank ≤ units rank * radix + digit * unitsPerOne :=
    Nat.le_add_right_of_le (Nat.le_mul_of_pos_right _ positive)
  unfold digitRank
  calc rank = nearestRank (units rank) 1 := own.symm
    _ ≤ nearestRank (units rank * radix + digit * unitsPerOne) 1 :=
      nearestRank_mono Nat.one_pos bound

namespace Binary64

/-- Whole numbers of up to fifty-three bits are values. -/
theorem exists_ofNat_eq_finite {number : Nat} (narrow : number < 2 * blockSize) :
    ∃ rank : Fin finiteCount, ofNat number = .finite false rank ∧ magnitude rank = number := by
  obtain ⟨rank, finite, same⟩ := exists_units_eq narrow
  -- Such a number is a magnitude, which is rounded to its own rank.
  have own : nearestRank (number * unitsPerOne) 1 = rank := by
    rw [← same]
    simpa using nearestRank_units rank Nat.one_pos
  refine ⟨⟨rank, finite⟩, ?_, magnitude_of_units_eq same⟩
  rw [ofNat_eq, own, ofRank, dif_pos finite]

/-- One step of the fold is one step from rank to rank, past the last finite rank too. -/
theorem multiplyAdd_ofRank {radix digit : Nat} (positive : 0 < radix)
    (small : radix < 2 * blockSize) (inside : digit < radix) (rank : Nat) :
    (ofRank false rank).multiplyAdd (ofNat radix) (ofNat digit) =
      ofRank false (digitRank radix rank digit) := by
  obtain ⟨factor, factor_eq, factor_size⟩ := exists_ofNat_eq_finite small
  obtain ⟨addend, addend_eq, addend_size⟩ := exists_ofNat_eq_finite (inside.trans small)
  rw [factor_eq, addend_eq]
  by_cases finite : rank < finiteCount
  · -- The base and the digit are exact, so the product and the sum are rounded together.
    have numerator : (units rank : Rat) / unitsPerOne * radix + digit =
        ((units rank * radix + digit * unitsPerOne : Nat) : Rat) / unitsPerOne := by
      have positive : (unitsPerOne : Rat) ≠ 0 := by exact_mod_cast unitsPerOne_pos.ne'
      push_cast
      field_simp
    rw [ofRank, dif_pos finite]
    simp only [multiplyAdd, signed, Bool.false_eq_true, if_false, factor_size, addend_size,
      Bool.xor_self, Bool.and_self]
    rw [magnitude, numerator, nearest_units, digitRank]
  · -- Infinity stays what it is, and so do the ranks past the finite ones.
    have past : ¬ digitRank radix rank digit < finiteCount :=
      fun less => finite ((le_digitRank positive rank digit).trans_lt less)
    have nonzero : factor.val ≠ 0 := by
      intro zero
      rw [zero, magnitude, units_of_lt blockSize_pos] at factor_size
      have : radix = 0 := by exact_mod_cast (by simpa using factor_size.symm)
      omega
    rw [ofRank, dif_neg finite, ofRank, dif_neg past]
    simp [multiplyAdd, multiply, add, nonzero]

/-- The digits of a text are folded to the value of the rank that they are folded to. -/
theorem foldDigits_eq {radix : Nat} (positive : 0 < radix) (small : radix < 2 * blockSize)
    (text : List Char) :
    foldDigits radix text = ofRank false (foldRank radix (text.filterMap (digitValue? radix))) := by
  have inside := lt_of_mem_digits radix text
  unfold foldDigits
  -- The induction takes the digits from the left, as the fold does, so it goes over their end.
  generalize text.filterMap (digitValue? radix) = digits at *
  induction digits using List.reverseRecOn with
  | nil => rfl
  | append_singleton front digit ih =>
    obtain ⟨front_inside, digit_inside⟩ := List.forall_mem_append.mp inside
    have last := digit_inside digit (List.mem_singleton_self digit)
    rw [List.foldl_append, ih front_inside, foldRank_concat]
    exact multiplyAdd_ofRank positive small last _

end Binary64

variable {width : Nat} {digits : List Nat}

/-- The leading digits of a run and those behind them are told by its number. -/
theorem valueOfDigits_append_div_mod {radix : Nat} (front : List Nat) {back : List Nat}
    (inside : ∀ digit ∈ back, digit < radix) :
    valueOfDigits radix (front ++ back) / radix ^ back.length = valueOfDigits radix front ∧
      valueOfDigits radix (front ++ back) % radix ^ back.length = valueOfDigits radix back := by
  -- The digits behind are less than one step of those in front.
  have below := valueOfDigits_lt inside
  have positive : 0 < radix ^ back.length := Nat.zero_lt_of_lt below
  rw [valueOfDigits_append]
  constructor
  · rw [Nat.mul_comm, Nat.mul_add_div positive, Nat.div_eq_of_lt below, Nat.add_zero]
  · rw [Nat.mul_comm, Nat.mul_add_mod, Nat.mod_eq_of_lt below]

/-- A digit behind a wide run has no influence but for the place that it takes. -/
theorem digitRank_wide {rank digit : Nat} (wide : wideRank ≤ rank) (inside : digit < 2 ^ width) :
    digitRank (2 ^ width) rank digit = rank + width * blockSize := by
  obtain ⟨shift, significand, rank_eq, full, within⟩ := exists_wide wide
  have size := units_wide shift full within.le
  rw [← rank_eq] at size
  -- The run is as good as the whole number that its rank stands for.
  generalize number_eq : 2 * significand * 2 ^ shift = number at size
  have own := nearestRank_units rank Nat.one_pos
  rw [Nat.mul_one, size] at own
  -- A wide rank stands for a number of more than fifty-three bits.
  have many : 2 * blockSize ≤ number := by
    rw [← number_eq]
    exact (Nat.mul_le_mul_left 2 full).trans (Nat.le_mul_of_pos_right _ (Nat.two_pow_pos shift))
  -- The digit moves the rank by its places, but for a tie that it would break.
  have moved := nearestRank_moved many inside
  rw [own, moved_units, ← size] at moved
  unfold digitRank
  refine moved.elim id fun ⟨tie, _⟩ => ?_
  -- The rank's own magnitude is below the midpoint, so it is no tie.
  have middle := tie.midpoint_eq
  rw [own, ← size] at middle
  have := lt_midpoint (Nat.le_refl rank)
  omega

/-- A run of up to fifty-three bits is folded without any rounding. -/
theorem units_foldRank {radix : Nat} (positive : 0 < radix)
    (narrow : valueOfDigits radix digits < 2 * blockSize) :
    units (foldRank radix digits) = valueOfDigits radix digits * unitsPerOne := by
  induction digits using List.reverseRecOn with
  | nil => rw [foldRank_nil, valueOfDigits_nil, Nat.zero_mul, units_of_lt blockSize_pos]
  | append_singleton front digit ih =>
    obtain ⟨rank, _, same⟩ := exists_units_eq narrow
    have own := nearestRank_units rank Nat.one_pos
    rw [valueOfDigits_concat] at narrow
    -- The run without its last digit is no larger, so it has been folded without rounding.
    have before := ih (lt_of_le_of_lt (Nat.le_add_right_of_le
      (Nat.le_mul_of_pos_right _ positive)) narrow)
    -- What is rounded is a magnitude already, and so it is rounded to its own rank.
    have sum : units rank =
        units (foldRank radix front) * radix + digit * unitsPerOne := by
      rw [same, before, valueOfDigits_concat]
      ring
    rw [Nat.mul_one, sum] at own
    rw [foldRank_concat, digitRank, own, same]

/-- A digit behind a run of up to fifty-three bits is the first one to be rounded. -/
theorem foldRank_concat_of_narrow {radix : Nat} (positive : 0 < radix)
    (narrow : valueOfDigits radix digits < 2 * blockSize) (digit : Nat) :
    foldRank radix (digits ++ [digit]) =
      nearestRank (valueOfDigits radix (digits ++ [digit]) * unitsPerOne) 1 := by
  -- The run in front is exact, so the step rounds the number itself.
  have sum : valueOfDigits radix digits * unitsPerOne * radix + digit * unitsPerOne =
      (valueOfDigits radix digits * radix + digit) * unitsPerOne := by ring
  rw [foldRank_concat, digitRank, units_foldRank positive narrow, valueOfDigits_concat, sum]

/-- Digits behind a wide run move its rank by whole blocks. -/
theorem foldRank_append_of_wide {front back : List Nat}
    (wide : wideRank ≤ foldRank (2 ^ width) front) (inside : ∀ digit ∈ back, digit < 2 ^ width) :
    foldRank (2 ^ width) (front ++ back) =
      foldRank (2 ^ width) front + width * back.length * blockSize := by
  induction back using List.reverseRecOn with
  | nil => simp
  | append_singleton back digit ih =>
    obtain ⟨back_inside, digit_inside⟩ := List.forall_mem_append.mp inside
    -- The rank only grows, so it is still wide when the last digit comes.
    have before := ih back_inside
    rw [← List.append_assoc, foldRank_concat, before,
      digitRank_wide (by omega) (digit_inside digit (List.mem_singleton_self digit)),
      List.length_append, List.length_singleton]
    ring

/-- A run of digits is cut behind the shortest one it starts with of more than fifty-three bits. -/
structure IsCut (radix : Nat) (digits front back : List Nat) : Prop where
  whole : digits = front ++ back
  wide : 2 * blockSize ≤ valueOfDigits radix front
  shortest : ∀ start, start <+: digits → 2 * blockSize ≤ valueOfDigits radix start →
    front.length ≤ start.length

/-- A run that its last digit makes wide is cut behind that. -/
theorem isCut_concat {radix : Nat} (positive : 0 < radix) {before : List Nat} {digit : Nat}
    (narrow : valueOfDigits radix before < 2 * blockSize)
    (wide : 2 * blockSize ≤ valueOfDigits radix (before ++ [digit])) :
    IsCut radix (before ++ [digit]) (before ++ [digit]) [] := by
  refine ⟨by simp, wide, fun start leading many => ?_⟩
  -- A part at the start is the whole run or a part of what is in front of the digit.
  rcases List.prefix_concat_iff.mp leading with rfl | ⟨rest, rfl⟩
  · exact Nat.le_refl _
  · have := le_valueOfDigits_append positive start rest
    omega

namespace IsCut

variable {radix : Nat} {front back : List Nat}

/-- With other digits behind the cut the run is cut at the same place. -/
theorem of_back (cut : IsCut radix digits front back) (other : List Nat) :
    IsCut radix (front ++ other) front other := by
  refine ⟨rfl, cut.wide, fun start leading many => Nat.le_of_not_lt fun short => ?_⟩
  -- What is shorter than the front starts the old run too.
  have within := List.prefix_of_prefix_length_le leading (List.prefix_append front other) short.le
  have := cut.shortest start (cut.whole ▸ within.trans (List.prefix_append front back)) many
  omega

/-- A run is cut at one place only. -/
theorem eq_and_eq (cut : IsCut radix digits front back) {start rest : List Nat}
    (other : IsCut radix digits start rest) : front = start ∧ back = rest := by
  have same := cut.whole.symm.trans other.whole
  -- Each of the two fronts is a wide start, so neither is longer than the other.
  have shorter := cut.shortest start ⟨rest, other.whole.symm⟩ other.wide
  have longer := other.shortest front ⟨back, cut.whole.symm⟩ cut.wide
  exact List.append_inj same (Nat.le_antisymm shorter longer)

/-- Without its last digit the front is narrow. -/
theorem exists_narrow (cut : IsCut radix digits front back) :
    ∃ before digit, front = before ++ [digit] ∧ valueOfDigits radix before < 2 * blockSize := by
  obtain ⟨rfl, wide, shortest⟩ := cut
  rcases List.eq_nil_or_concat' front with rfl | ⟨before, digit, rfl⟩
  · rw [valueOfDigits_nil] at wide
    have := blockSize_pos
    omega
  · -- Otherwise a shorter start would be wide already.
    refine ⟨before, digit, rfl, Nat.lt_of_not_le fun many => ?_⟩
    have := shortest before (by simp) many
    simp at this

end IsCut

/-- Every wide run is cut somewhere. -/
theorem exists_isCut {radix : Nat} (positive : 0 < radix)
    (wide : 2 * blockSize ≤ valueOfDigits radix digits) :
    ∃ front back, IsCut radix digits front back := by
  -- More digits at the end move no cut, so the induction goes over the end of the run.
  induction digits using List.reverseRecOn with
  | nil =>
    rw [valueOfDigits_nil] at wide
    have := blockSize_pos
    omega
  | append_singleton before digit ih =>
    by_cases narrow : valueOfDigits radix before < 2 * blockSize
    · exact ⟨_, _, isCut_concat positive narrow wide⟩
    · -- The run was wide before, so the digit joins those behind the cut.
      obtain ⟨front, back, cut⟩ := ih (Nat.not_lt.mp narrow)
      refine ⟨front, back ++ [digit], ?_⟩
      rw [cut.whole, List.append_assoc]
      exact cut.of_back (back ++ [digit])

namespace IsCut

variable {front back : List Nat}

/-- The front is rounded once, and the digits behind it have no influence but for their places. -/
theorem foldRank_eq (cut : IsCut (2 ^ width) digits front back)
    (inside : ∀ digit ∈ digits, digit < 2 ^ width) :
    foldRank (2 ^ width) digits =
      nearestRank (valueOfDigits (2 ^ width) front * unitsPerOne) 1 +
        width * back.length * blockSize := by
  -- The front is the first to be rounded, to a rank behind which digits only move it.
  have wide := wideRank_le cut.wide
  obtain ⟨before, digit, rfl, narrow⟩ := cut.exists_narrow
  have rounded := foldRank_concat_of_narrow (Nat.two_pow_pos width) narrow digit
  rw [cut.whole] at inside ⊢
  rw [← rounded] at wide ⊢
  exact foldRank_append_of_wide wide (List.forall_mem_append.mp inside).2

/--
The nearest rank is the one that the digits are folded to, but for a front that is an even tie.

That is folded as if the digits behind it were zeros, to an even rank right below the nearest one.
-/
theorem nearestRank_eq_or (cut : IsCut (2 ^ width) digits front back)
    (inside : ∀ digit ∈ digits, digit < 2 ^ width) :
    nearestRank (valueOfDigits (2 ^ width) digits * unitsPerOne) 1 =
        foldRank (2 ^ width) digits ∨
      IsEvenTie (valueOfDigits (2 ^ width) front) ∧ valueOfDigits (2 ^ width) back ≠ 0 ∧
        foldRank (2 ^ width) digits % 2 = 0 ∧
        nearestRank (valueOfDigits (2 ^ width) digits * unitsPerOne) 1 =
          foldRank (2 ^ width) digits + 1 := by
  rw [cut.foldRank_eq inside, add_blocks_mod_two]
  rw [cut.whole] at inside ⊢
  -- The digits behind the cut are less than the power that they move the front by.
  have below := valueOfDigits_lt (List.forall_mem_append.mp inside).2
  rw [← Nat.pow_mul] at below
  have either := nearestRank_moved cut.wide below
  rwa [Nat.pow_mul, ← valueOfDigits_append] at either

/-- With an even tie in front and other digits than zeros behind it the number loses that tie. -/
theorem losesTie (cut : IsCut (2 ^ width) digits front back)
    (inside : ∀ digit ∈ digits, digit < 2 ^ width)
    (tie : IsEvenTie (valueOfDigits (2 ^ width) front))
    (nonzero : valueOfDigits (2 ^ width) back ≠ 0) :
    LosesTie (2 ^ width) (valueOfDigits (2 ^ width) digits) := by
  rw [cut.whole] at inside ⊢
  -- Shifting out the back leaves the front, which is the tie.
  obtain ⟨leading, later⟩ :=
    valueOfDigits_append_div_mod front (List.forall_mem_append.mp inside).2
  exact ⟨back.length, leading ▸ tie, later ▸ nonzero⟩

end IsCut

/--
Folding leads to the nearest rank, but for a number that loses a tie.

There it leads to the rank right below, which is even.
-/
theorem foldRank_eq_or (inside : ∀ digit ∈ digits, digit < 2 ^ width) :
    foldRank (2 ^ width) digits =
        nearestRank (valueOfDigits (2 ^ width) digits * unitsPerOne) 1 ∨
      LosesTie (2 ^ width) (valueOfDigits (2 ^ width) digits) ∧
        foldRank (2 ^ width) digits % 2 = 0 ∧
        nearestRank (valueOfDigits (2 ^ width) digits * unitsPerOne) 1 =
          foldRank (2 ^ width) digits + 1 := by
  by_cases narrow : valueOfDigits (2 ^ width) digits < 2 * blockSize
  · -- Nothing is rounded, so the rank has the number itself as its magnitude.
    left
    have own := nearestRank_units (foldRank (2 ^ width) digits) Nat.one_pos
    rw [Nat.mul_one, units_foldRank (Nat.two_pow_pos width) narrow] at own
    exact own.symm
  · obtain ⟨front, back, cut⟩ := exists_isCut (Nat.two_pow_pos width) (Nat.not_lt.mp narrow)
    -- A run that is cut is off by one rank at most, and only where the front is a tie.
    rcases cut.nearestRank_eq_or inside with same | ⟨tie, nonzero, even, above⟩
    · exact .inl same.symm
    · exact .inr ⟨cut.losesTie inside tie nonzero, even, above⟩

/-- Folding never leads above the nearest rank. -/
theorem foldRank_le (inside : ∀ digit ∈ digits, digit < 2 ^ width) :
    foldRank (2 ^ width) digits ≤
      nearestRank (valueOfDigits (2 ^ width) digits * unitsPerOne) 1 := by
  rcases foldRank_eq_or inside with same | ⟨_, _, above⟩ <;> omega

/-- Folding a number that loses a tie leads below the nearest rank. -/
theorem LosesTie.foldRank_lt (loses : LosesTie (2 ^ width) (valueOfDigits (2 ^ width) digits))
    (inside : ∀ digit ∈ digits, digit < 2 ^ width) :
    foldRank (2 ^ width) digits <
      nearestRank (valueOfDigits (2 ^ width) digits * unitsPerOne) 1 := by
  obtain ⟨places, tie, nonzero⟩ := loses
  -- There are as many digits as the tie has places behind it, or nothing would be left of it.
  have enough : places ≤ digits.length := by
    refine Nat.le_of_not_lt fun few => ?_
    have less : valueOfDigits (2 ^ width) digits < (2 ^ width) ^ places :=
      (valueOfDigits_lt inside).trans_le (Nat.pow_le_pow_right (Nat.two_pow_pos width) few.le)
    have := tie.wide
    rw [Nat.div_eq_of_lt less] at this
    have := blockSize_pos
    omega
  obtain ⟨front, back, rfl, rfl⟩ : ∃ front back, digits = front ++ back ∧ back.length = places :=
    ⟨_, _, (List.take_append_drop (digits.length - places) digits).symm,
      by rw [List.length_drop]; omega⟩
  obtain ⟨front_inside, back_inside⟩ := List.forall_mem_append.mp inside
  obtain ⟨leading, later⟩ := valueOfDigits_append_div_mod front back_inside
  rw [leading] at tie
  rw [later] at nonzero
  -- A front that is wide stays wide with the digits behind its own shortest one.
  have wide : wideRank ≤ foldRank (2 ^ width) front := by
    obtain ⟨_, _, cut⟩ := exists_isCut (Nat.two_pow_pos width) tie.wide
    have := wideRank_le cut.wide
    rw [cut.foldRank_eq front_inside]
    omega
  -- The fold keeps the tie as it was, and the nearest rank is past it.
  have above := tie.lt_nearestRank_moved (width * back.length) nonzero
  have lower := foldRank_le front_inside
  rw [Nat.pow_mul, ← valueOfDigits_append] at above
  rw [foldRank_append_of_wide wide back_inside]
  omega

/-- Folding leads past the finite ranks where rounding once does. -/
theorem foldRank_lt_finiteCount_iff (inside : ∀ digit ∈ digits, digit < 2 ^ width) :
    foldRank (2 ^ width) digits < finiteCount ↔
      valueOfDigits (2 ^ width) digits < overflowStart := by
  -- The last finite rank is odd, so the rank below the nearest one is never the last.
  have odd : (finiteCount - 1) % 2 = 1 := rfl
  rw [← nearestRank_lt_finiteCount_iff]
  rcases foldRank_eq_or inside with same | ⟨_, even, above⟩
  · rw [same]
  · omega

/-- Folding leads to the value that rounding once does, but for finite numbers that lose a tie. -/
theorem ofRank_foldRank_eq_ofNat_iff (inside : ∀ digit ∈ digits, digit < 2 ^ width) :
    Binary64.ofRank false (foldRank (2 ^ width) digits) =
        .ofNat (valueOfDigits (2 ^ width) digits) ↔
      ¬ (valueOfDigits (2 ^ width) digits < overflowStart ∧
        LosesTie (2 ^ width) (valueOfDigits (2 ^ width) digits)) := by
  rw [Binary64.ofNat_eq]
  by_cases finite : valueOfDigits (2 ^ width) digits < overflowStart
  · -- Here the two values are one only if their ranks are.
    have rank := nearestRank_lt_finiteCount_iff.mpr finite
    simp only [finite, true_and]
    constructor
    · intro same loses
      exact (loses.foldRank_lt inside).ne (Binary64.eq_of_ofRank_eq rank same)
    · intro keeps
      rcases foldRank_eq_or inside with same | ⟨loses, _⟩
      · rw [same]
      · exact absurd loses keeps
  · -- Past the finite values there is nothing but infinity to lead to.
    rw [Binary64.ofRank_eq_infinity_iff.mpr (mt (foldRank_lt_finiteCount_iff inside).mp finite),
      Binary64.ofRank_eq_infinity_iff.mpr (mt nearestRank_lt_finiteCount_iff.mp finite)]
    simp [finite]

namespace IsCut

variable {front back : List Nat}

/-- The number of a run that is cut loses a tie only if that is the front. -/
theorem losesTie_iff (cut : IsCut (2 ^ width) digits front back)
    (inside : ∀ digit ∈ digits, digit < 2 ^ width) :
    LosesTie (2 ^ width) (valueOfDigits (2 ^ width) digits) ↔
      IsEvenTie (valueOfDigits (2 ^ width) front) ∧ ∃ digit ∈ back, digit ≠ 0 := by
  rw [← valueOfDigits_ne_zero_iff (Nat.two_pow_pos width)]
  refine ⟨fun loses => ?_, fun ⟨tie, nonzero⟩ => cut.losesTie inside tie nonzero⟩
  -- Where the tie is lost folding leads too low, which is the second of the two ways.
  have below := loses.foldRank_lt inside
  rcases cut.nearestRank_eq_or inside with same | ⟨tie, nonzero, _⟩
  · omega
  · exact ⟨tie, nonzero⟩

end IsCut

end Reckon
