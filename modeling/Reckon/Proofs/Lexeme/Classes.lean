import Reckon.Text.Bytes
import Reckon.Token

/-! The classes of characters that lexemes are made of, as ranges of code points. -/

namespace Reckon

variable {c : Char}

/-- The decimal digits are a range of code points. -/
theorem isDigit_iff : c.isDigit = true ↔ 48 ≤ c.toNat ∧ c.toNat ≤ 57 :=
  Char.isDigit_iff_toNat

/-- The capital letters are a range of code points. -/
theorem isUpper_iff : c.isUpper = true ↔ 65 ≤ c.toNat ∧ c.toNat ≤ 90 := by
  -- The class is decided on the code points as words of 32 bits.
  change decide (c.val ≥ 'A'.val ∧ c.val ≤ 'Z'.val) = true ↔ _
  rw [decide_eq_true_iff, ge_iff_le, UInt32.le_iff_toNat_le, UInt32.le_iff_toNat_le]
  exact Iff.rfl

/-- The small letters are a range of code points. -/
theorem isLower_iff : c.isLower = true ↔ 97 ≤ c.toNat ∧ c.toNat ≤ 122 := by
  change (decide (c.val ≥ 'a'.val) && decide (c.val ≤ 'z'.val)) = true ↔ _
  rw [Bool.and_eq_true, decide_eq_true_iff, decide_eq_true_iff, ge_iff_le,
    UInt32.le_iff_toNat_le, UInt32.le_iff_toNat_le]
  exact Iff.rfl

/-- The letters are the capital and the small ones. -/
theorem isAlpha_iff : c.isAlpha = true ↔
    65 ≤ c.toNat ∧ c.toNat ≤ 90 ∨ 97 ≤ c.toNat ∧ c.toNat ≤ 122 := by
  -- A letter is tested for one case and then for the other.
  change (c.isUpper || c.isLower) = true ↔ _
  rw [Bool.or_eq_true, isUpper_iff, isLower_iff]

/-- The hexadecimal digits are the decimal ones and six letters of either case. -/
theorem isHexDigit_iff : isHexDigit c = true ↔ 48 ≤ c.toNat ∧ c.toNat ≤ 57 ∨
    97 ≤ c.toNat ∧ c.toNat ≤ 102 ∨ 65 ≤ c.toNat ∧ c.toNat ≤ 70 := by
  rw [isHexDigit, Bool.or_eq_true, Bool.or_eq_true, Bool.and_eq_true, Bool.and_eq_true,
    decide_eq_true_iff, decide_eq_true_iff, decide_eq_true_iff, decide_eq_true_iff, isDigit_iff,
    or_assoc]
  -- What is left are the code points of the four letters at the ends.
  exact Iff.rfl

/-- The binary digits are two code points. -/
theorem isBinaryDigit_iff : isBinaryDigit c = true ↔ c.toNat = 48 ∨ c.toNat = 49 := by
  -- Characters are equal when their code points are.
  rw [isBinaryDigit, Bool.or_eq_true, beq_iff_eq, beq_iff_eq, ← Char.toNat_inj, ← Char.toNat_inj]
  exact Iff.rfl

/-- The gaps are a tab and a space. -/
theorem isGap_iff : isGap c = true ↔ c.toNat = 32 ∨ c.toNat = 9 := by
  rw [isGap, Bool.or_eq_true, beq_iff_eq, beq_iff_eq, ← Char.toNat_inj, ← Char.toNat_inj]
  exact Iff.rfl

/-- A class that leaves out the space and the tab has no gap in it. -/
theorem solid_of_class {inClass : Char → Bool} (noSpace : inClass ' ' = false)
    (noTab : inClass '\t' = false) (inside : inClass c = true) : isGap c = false := by
  rw [Bool.eq_false_iff]
  intro gap
  simp only [isGap, Bool.or_eq_true, beq_iff_eq] at gap
  -- Either of the two characters would be in the class.
  rcases gap with rfl | rfl
  · rw [noSpace] at inside
    contradiction
  · rw [noTab] at inside
    contradiction

end Reckon
