import Mathlib.Algebra.Order.Field.Basic
import Mathlib.Data.Rat.Lemmas
import Mathlib.Tactic.FieldSimp
import Mathlib.Tactic.Positivity
import Mathlib.Tactic.Ring
import Reckon.Binary64.Shortest
import Reckon.Proofs.LiteralText

/-! The text of a finite value is read back as that value. -/

namespace Reckon

/-- A quotient that leaves nothing over is rounded to itself. -/
theorem roundedQuotient_mul (quotient : Nat) {den : Nat} (positive : 0 < den) :
    roundedQuotient (quotient * den) den = quotient := by
  simp [roundedQuotient, Nat.mul_div_cancel _ positive, positive]

/-- A subnormal magnitude is as many units as its rank says. -/
theorem units_of_lt {rank : Nat} (subnormal : rank < blockSize) : units rank = rank := by
  simp [units, significand, subnormal, Reckon.scale, Nat.div_eq_of_lt subnormal]

/-- A significand of fifty-three bits, moved to a scale, has as many bits more as the scale. -/
theorem log2_shiftLeft_significand {rank : Nat} (normal : blockSize ≤ rank) (distance : Nat) :
    (significand rank <<< distance).log2 = 52 + distance := by
  have positive : 0 < 2 ^ distance := Nat.two_pow_pos distance
  have remainder : rank % blockSize < blockSize := Nat.mod_lt _ (by decide)
  have size : blockSize = 2 ^ 52 := rfl
  rw [Nat.shiftLeft_eq, significand, if_neg (by omega)]
  rw [size] at remainder ⊢
  -- The leading bit of the significand is the first of fifty-three, whatever is behind it.
  have lower : 2 ^ 52 * 2 ^ distance ≤ (2 ^ 52 + rank % 2 ^ 52) * 2 ^ distance :=
    Nat.mul_le_mul_right _ (by omega)
  have upper : (2 ^ 52 + rank % 2 ^ 52) * 2 ^ distance < 2 ^ 53 * 2 ^ distance :=
    Nat.mul_lt_mul_of_pos_right (by omega) positive
  rw [Nat.log2_eq_iff (by omega)]
  exact ⟨by rwa [Nat.pow_add], by rwa [show 52 + distance + 1 = 53 + distance by omega, Nat.pow_add]⟩

/-- The rank nearest to the units of a magnitude is its own, whatever they are divided by. -/
theorem nearestRank_units (rank : Nat) {den : Nat} (positive : 0 < den) :
    nearestRank (units rank * den) den = rank := by
  -- The whole quotient is the number of units, which tells the scale.
  rw [nearestRank, Nat.mul_div_cancel _ positive]
  by_cases subnormal : rank < blockSize
  · -- Below the first full significand the scale is not used.
    have narrow : rank.log2 - 52 = 0 := by
      by_cases zero : rank = 0
      · simp [zero]
      · have bound := (Nat.log2_lt zero).mpr (show rank < 2 ^ 52 from subnormal)
        omega
    rw [units_of_lt subnormal, narrow]
    simpa using roundedQuotient_mul rank positive
  · have normal : blockSize ≤ rank := by omega
    -- The scale moves the divisor instead of the significand, so that nothing is left over.
    have shift : significand rank <<< Reckon.scale rank * den =
        significand rank * (den <<< Reckon.scale rank) := by
      rw [Nat.shiftLeft_eq, Nat.shiftLeft_eq, Nat.mul_assoc, Nat.mul_comm den]
    have wide : 0 < den <<< Reckon.scale rank := by
      rw [Nat.shiftLeft_eq]
      exact Nat.mul_pos positive (Nat.two_pow_pos _)
    rw [units, log2_shiftLeft_significand normal, Nat.add_sub_cancel_left, shift,
      roundedQuotient_mul _ wide, significand, if_neg subnormal, Reckon.scale]
    simp only [blockSize] at *
    omega

/-- A value of one is some units. -/
theorem unitsPerOne_pos : 0 < unitsPerOne := by decide

/-- The lowest terms of a quotient are its terms up to a common factor. -/
theorem natAbs_num_mul (num : Nat) {den : Nat} (positive : 0 < den) :
    ((num : Rat) / den).num.natAbs * den = num * ((num : Rat) / den).den := by
  have nonneg : 0 ≤ ((num : Rat) / den).num := Rat.num_nonneg.mpr (by positivity)
  -- The two fractions are equal, and their cross products are whole numbers.
  have cross : (((num : Rat) / den).num : Rat) * den = num * ((num : Rat) / den).den := by
    rw [← Rat.mul_den_eq_num]
    field_simp
  have cross : ((num : Rat) / den).num * (den : Int) = num * ((num : Rat) / den).den := by
    exact_mod_cast cross
  rw [← Int.natAbs_of_nonneg nonneg] at cross
  exact_mod_cast cross

namespace Binary64

/-- Ranks of finite values are told apart by their values. -/
theorem eq_of_ofRank_eq {negative : Bool} {first second : Nat} (finite : second < finiteCount)
    (same : ofRank negative first = ofRank negative second) : first = second := by
  unfold ofRank at same
  rw [dif_pos finite] at same
  -- Infinity is no finite value, so the first rank is finite as well.
  split at same
  · simpa using same
  · contradiction

/-- A number that is not negative is rounded by its size, and takes the sign in front of it. -/
theorem nearest_signed (negative : Bool) {number : Rat} (nonneg : 0 ≤ number) :
    nearest negative (signed negative number) =
      ofRank negative (nearestRank (number.num.natAbs * unitsPerOne) number.den) := by
  have sign : 0 ≤ number.num := Rat.num_nonneg.mpr nonneg
  cases negative with
  | false => simp [nearest, signed, Int.not_lt.mpr sign]
  | true =>
    -- Zero has no sign of its own, so it takes the one in front.
    by_cases zero : number.num = 0
    · simp [nearest, signed, zero]
    · have positive : 0 < number.num := by omega
      simp [nearest, signed, zero, positive]

/-- The value nearest to the magnitude of a rank is that of the rank. -/
theorem nearest_magnitude (rank : Nat) : nearest false (magnitude rank) = ofRank false rank := by
  have nonneg : 0 ≤ magnitude rank := by unfold magnitude; positivity
  have rounded := nearest_signed false nonneg
  -- A magnitude is a number of units, so its terms are those units up to a factor.
  have factors : (magnitude rank).num.natAbs * unitsPerOne = units rank * (magnitude rank).den :=
    natAbs_num_mul (units rank) unitsPerOne_pos
  rw [factors, nearestRank_units rank (magnitude rank).den_pos] at rounded
  simpa [signed] using rounded

end Binary64

/-- The exact decimal of a rank is its magnitude. -/
theorem toRat_exactDecimal (rank : Nat) : (exactDecimal rank).toRat = magnitude rank := by
  unfold exactDecimal Decimal.toRat magnitude unitsPerOne
  -- The powers are too large to be computed, so the exponent is taken for any number.
  generalize 1074 = exponent
  have ten : (10 : Rat) ^ exponent = 2 ^ exponent * 5 ^ exponent := by
    rw [← mul_pow]
    norm_num
  rw [ten, Nat.shiftLeft_eq, Nat.one_mul, Nat.pow_eq]
  push_cast
  field_simp

/-- What is picked of two neighbours is one that was told to read back. -/
theorem reads_of_pickReading? {number : Rat} {lower upper d : Decimal}
    {lowerReads upperReads : Bool}
    (found : pickReading? number lower upper lowerReads upperReads = some d) :
    d = lower ∧ lowerReads = true ∨ d = upper ∧ upperReads = true := by
  -- At most one of the two is picked, and never one that does not read back.
  cases lowerReads with
  | false =>
    cases upperReads with
    | false => contradiction
    | true => exact .inr ⟨(Option.some.inj found).symm, rfl⟩
  | true =>
    cases upperReads with
    | false => exact .inl ⟨(Option.some.inj found).symm, rfl⟩
    | true =>
      -- The nearer one is taken, and both of them read back.
      by_cases nearer : number - lower.toRat < upper.toRat - number
      · simp only [pickReading?, if_pos nearer, Option.some.injEq] at found
        exact .inl ⟨found.symm, rfl⟩
      · simp only [pickReading?, if_neg nearer, Option.some.injEq] at found
        exact .inr ⟨found.symm, rfl⟩

/-- What is found on a grid reads back as the magnitude. -/
theorem readsBack_of_readingOnGrid? {rank : Nat} {exponent : Int} {d : Decimal}
    (found : readingOnGrid? rank exponent = some d) : readsBack rank d = true := by
  rcases reads_of_pickReading? found with ⟨rfl, reads⟩ | ⟨rfl, reads⟩
  · exact reads
  · exact reads

/-- A decimal that stands for a magnitude reads back as it. -/
theorem readsBack_of_toRat_eq {rank : Nat} {d : Decimal} (equal : d.toRat = magnitude rank) :
    readsBack rank d = true := by
  rw [readsBack, equal, Binary64.nearest_magnitude]
  exact decide_eq_true rfl

/-- The search for the fewest digits ends with a decimal that reads back as the magnitude. -/
theorem readsBack_firstReading (rank grids : Nat) (exponent : Int) :
    readsBack rank (firstReading rank grids exponent) = true := by
  induction grids generalizing exponent with
  | zero =>
    -- Without a reading on any grid the decimal is the magnitude itself.
    rw [firstReading]
    exact readsBack_of_toRat_eq (toRat_exactDecimal rank)
  | succ grids ih =>
    rw [firstReading]
    cases found : readingOnGrid? rank exponent with
    -- The first grid with a reading ends the search.
    | some reading => exact readsBack_of_readingOnGrid? found
    | none => exact ih (exponent - 1)

/-- The shortest decimal of a magnitude reads back as it. -/
theorem readsBack_shortestDecimal (rank : Nat) : readsBack rank (shortestDecimal rank) = true := by
  unfold shortestDecimal
  split
  case isTrue zero =>
    -- Zero is written as it is, without a search.
    have nothing : units rank = 0 := by rw [zero, units_of_lt (by decide)]
    exact readsBack_of_toRat_eq (by simp [Decimal.toRat, magnitude, nothing])
  case isFalse => exact readsBack_firstReading rank 18 _

/-- With its sign in front the shortest decimal of a finite value is rounded to that value. -/
theorem Binary64.nearest_shortestDecimal (negative : Bool) (rank : Fin finiteCount) :
    nearest negative (signed negative (shortestDecimal rank).toRat) = .finite negative rank := by
  have nonneg : 0 ≤ (shortestDecimal rank).toRat := by unfold Decimal.toRat; positivity
  have back : nearest false (shortestDecimal rank).toRat = ofRank false rank :=
    of_decide_eq_true (readsBack_shortestDecimal rank)
  -- The size is rounded in the same way with either sign.
  have size := (nearest_signed false nonneg).symm.trans back
  rw [nearest_signed negative nonneg, eq_of_ofRank_eq rank.isLt size, ofRank, dif_pos rank.isLt]

namespace Decimal

/-- There is a digit in front of the point. -/
theorem places_lt_length (d : Decimal) : d.places < d.paddedDigits.length := by
  simp only [paddedDigits, List.length_append, List.length_replicate]
  omega

/-- The digits of a decimal are digits. -/
theorem isDigit_of_mem_paddedDigits {d : Decimal} {c : Char} (member : c ∈ d.paddedDigits) :
    c.isDigit = true := by
  -- A padding zero is a digit too.
  rcases List.mem_append.mp member with zero | digit
  · rw [List.eq_of_mem_replicate zero]
    rfl
  · exact Nat.isDigit_of_mem_toDigits (by decide) (by decide) digit

/-- The digits of a decimal are those of its whole number. -/
theorem ofDigitChars_paddedDigits (d : Decimal) :
    Nat.ofDigitChars 10 d.paddedDigits 0 = d.digits := by
  -- Zeros in front of a number add nothing to it.
  have zeros (count : Nat) : Nat.ofDigitChars 10 (List.replicate count '0') 0 = 0 := by
    induction count with
    | zero => rfl
    | succ count ih => simp [List.replicate_succ, Nat.ofDigitChars_cons, ih]
  rw [paddedDigits, Nat.ofDigitChars_append, zeros]
  exact Nat.ofDigitChars_toDigits (by decide) (by decide)

/-- The digits in front of the point and those behind it are all digits of a decimal. -/
theorem toChars_eq (d : Decimal) :
    ∃ whole fraction, d.paddedDigits = whole ++ fraction ∧ whole ≠ [] ∧
      fraction.length = d.places ∧
      d.toChars = whole ++ (if fraction = [] then [] else '.' :: fraction) := by
  have long := d.places_lt_length
  refine ⟨_, _, (List.take_append_drop (d.paddedDigits.length - d.places) _).symm, ?_, ?_, ?_⟩
  · intro nothing
    have short := congrArg List.length nothing
    simp only [List.length_take, List.length_nil] at short
    omega
  · rw [List.length_drop]
    omega
  · -- There is a point only where there are digits behind it.
    have point : d.paddedDigits.drop (d.paddedDigits.length - d.places) = [] ↔ d.places = 0 := by
      rw [List.drop_eq_nil_iff]
      omega
    simp only [toChars, point]
    split <;> simp

/-- What is written of a decimal is read back as it. -/
theorem ofChars?_toChars (d : Decimal) : ofChars? d.toChars = some d := by
  obtain ⟨whole, fraction, cut, occupied, places, chars⟩ := d.toChars_eq
  have number := d.ofDigitChars_paddedDigits
  have digits : ∀ c ∈ whole ++ fraction, c.isDigit = true :=
    fun c member => isDigit_of_mem_paddedDigits (cut ▸ member)
  obtain ⟨wholeDigits, fractionDigits⟩ := List.forall_mem_append.mp digits
  rw [cut] at number
  rw [chars]
  obtain ⟨total, shift⟩ := d
  dsimp only at number places
  subst number places
  by_cases point : fraction = []
  · -- The whole text is one run of digits.
    subst point
    have run := List.takeWhile_eq_self_iff.mpr wholeDigits
    have left := List.dropWhile_eq_nil_iff.mpr wholeDigits
    simp [ofChars?, run, left, occupied]
  · -- The first run of digits ends at the point.
    obtain ⟨run, left⟩ := takeWhile_append_cons wholeDigits (c := '.') (by decide) fraction
    simp only [if_neg point, ofChars?, run, left]
    simpa [occupied, point] using fractionDigits

/-- What is written of a decimal does not start with a sign. -/
theorem head?_toChars (d : Decimal) : d.toChars.head? ≠ some '-' := by
  obtain ⟨whole, fraction, cut, occupied, _, chars⟩ := d.toChars_eq
  obtain ⟨c, rest, rfl⟩ := List.exists_cons_of_ne_nil occupied
  rw [chars, List.cons_append, List.head?_cons]
  intro sign
  -- The first character is one of the digits, since there is one in front of the point.
  have digit : c.isDigit = true := isDigit_of_mem_paddedDigits (d := d) (by simp [cut])
  rw [Option.some.inj sign] at digit
  contradiction

end Decimal

namespace Binary64

/-- The text of a finite value is read as that value. -/
theorem value?_text (negative : Bool) (rank : Fin finiteCount) :
    LiteralKind.decimal.value? (text (.finite negative rank)).toList =
      some (.finite negative rank) := by
  have read := Decimal.ofChars?_toChars (shortestDecimal rank)
  have rounded := nearest_shortestDecimal negative rank
  have chars : (text (.finite negative rank)).toList =
      if negative then '-' :: (shortestDecimal rank).toChars
        else (shortestDecimal rank).toChars := by
    simp [text]
  rw [chars, LiteralKind.value?]
  -- The sign is written in front of the digits, and only there.
  cases negative with
  | true => rw [if_pos rfl, LiteralKind.decimalValue?_minus, read, Option.map_some, rounded]
  | false =>
    rw [if_neg Bool.false_ne_true, LiteralKind.decimalValue?_unsigned (Decimal.head?_toChars _),
      read, Option.map_some, rounded]

end Binary64

end Reckon
