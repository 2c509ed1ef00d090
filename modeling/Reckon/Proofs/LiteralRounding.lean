import Reckon.Proofs.Binary64.DigitFold
import Reckon.Proofs.LiteralText

/-! Hexadecimal and binary literals of any width, and the values that are nearest to them. -/

namespace Reckon

/-- The number that digits to a base denote. -/
def numberOf (radix : Nat) (digits : List Char) : Nat :=
  valueOfDigits radix (digits.filterMap (digitValue? radix))

/-- A number that folding its digits rounds twice, with another result than rounding it once. -/
def RoundsTwice (radix number : Nat) : Prop :=
  wideBound ≤ number ∧ number < overflowStart ∧ LosesTie radix number

/-- Characters that are all digits denote the number of their values. -/
theorem wholeNumber?_eq {radix : Nat} {text : List Char} (occupied : text ≠ [])
    (inside : ∀ c ∈ text, (digitValue? radix c).isSome = true) :
    wholeNumber? radix text = some (numberOf radix text) := by
  -- Each digit has a value, so the list of the values is as long as the text.
  have values : text.mapM (digitValue? radix) = some (text.filterMap (digitValue? radix)) := by
    clear occupied
    induction text with
    | nil => rfl
    | cons c rest ih =>
      obtain ⟨value, found⟩ := Option.isSome_iff_exists.mp (inside c List.mem_cons_self)
      have behind := ih fun other member => inside other (List.mem_cons_of_mem c member)
      simp [found, behind]
  unfold wholeNumber?
  split
  case h_1 rest =>
    -- A plus sign is no digit, whatever the base is.
    have sign := inside '+' List.mem_cons_self
    simp [digitValue?] at sign
  case h_2 => simp [values, occupied, numberOf]

section

variable {width : Nat} {text : List Char} (narrow : width < 53) (occupied : text ≠ [])
  (inside : ∀ c ∈ text, (digitValue? (2 ^ width) c).isSome = true)

include occupied inside

/-- A number below the bound is rounded once. -/
theorem ofDigits_of_lt (less : numberOf (2 ^ width) text < wideBound) :
    Binary64.ofDigits (2 ^ width) text = .ofNat (numberOf (2 ^ width) text) := by
  -- The number fits, so it is taken as a whole.
  simp [Binary64.ofDigits, wholeNumber?_eq occupied inside, Option.filter, less]

include narrow

/-- A number from the bound on is read as the value of the rank that its digits are folded to. -/
theorem ofDigits_of_le (least : wideBound ≤ numberOf (2 ^ width) text) :
    Binary64.ofDigits (2 ^ width) text =
      .ofRank false (foldRank (2 ^ width) (text.filterMap (digitValue? (2 ^ width)))) := by
  -- So small a base is a value without any rounding, and so are its digits.
  have small : 2 ^ width < 2 * blockSize := Nat.pow_lt_pow_right (by decide) narrow
  rw [← Binary64.foldDigits_eq (Nat.two_pow_pos width) small]
  simp [Binary64.ofDigits, wholeNumber?_eq occupied inside, Option.filter, Nat.not_lt.mpr least]

/-- Digits are read as the value nearest to their number, unless folding them rounds it twice. -/
theorem ofDigits_of_not_roundsTwice
    (once : ¬ RoundsTwice (2 ^ width) (numberOf (2 ^ width) text)) :
    Binary64.ofDigits (2 ^ width) text = .ofNat (numberOf (2 ^ width) text) := by
  by_cases less : numberOf (2 ^ width) text < wideBound
  · exact ofDigits_of_lt occupied inside less
  -- From the bound on the digits are folded, and the fold is right but for a tie that is lost.
  rw [ofDigits_of_le narrow occupied inside (Nat.not_lt.mp less)]
  refine (ofRank_foldRank_eq_ofNat_iff (lt_of_mem_digits (2 ^ width) text)).mpr ?_
  exact fun ⟨finite, loses⟩ => once ⟨Nat.not_lt.mp less, finite, loses⟩

/-- Digits that are folded with two roundings are read as the value right below the nearest one. -/
theorem ofDigits_of_roundsTwice (twice : RoundsTwice (2 ^ width) (numberOf (2 ^ width) text)) :
    ∃ rank, rank + 1 = nearestRank (numberOf (2 ^ width) text * unitsPerOne) 1 ∧
      Binary64.ofDigits (2 ^ width) text = .ofRank false rank := by
  obtain ⟨least, _, loses⟩ := twice
  have digits := lt_of_mem_digits (2 ^ width) text
  refine ⟨_, ?_, ofDigits_of_le narrow occupied inside least⟩
  -- The fold comes out below the nearest rank, and it is never off by more than one.
  have below := loses.foldRank_lt digits
  rcases foldRank_eq_or digits with same | ⟨_, _, above⟩
  · omega
  · exact above.symm

end

namespace LiteralKind

/-- A text is digits to a base with the marker of a kind of literals. -/
inductive Marks : LiteralKind → Nat → List Char → List Char → Prop where
  | hexadecimal {digits : List Char} (occupied : digits ≠ [])
      (inside : ∀ c ∈ digits, isHexDigit c = true) :
      Marks .hexadecimal 16 digits ('0' :: 'x' :: digits)
  | binary {digits : List Char} (occupied : digits ≠ [])
      (inside : ∀ c ∈ digits, isBinaryDigit c = true) :
      Marks .binary 2 digits (digits ++ ['b'])

/-- Digits to a base are read as their value. -/
theorem radixValue?_eq {radix : Nat} {digits : List Char} (occupied : digits ≠ [])
    (inside : ∀ c ∈ digits, (digitValue? radix c).isSome = true) :
    radixValue? radix digits = some (.ofDigits radix digits) := by
  -- The text is refused if it is empty or if a character is no digit.
  simp [radixValue?, occupied, List.all_eq_true.mpr inside]

namespace Marks

variable {kind : LiteralKind} {radix : Nat} {digits text : List Char}

/-- The base of a literal with a marker is a small power of two. -/
theorem exists_width (marked : kind.Marks radix digits text) : ∃ width < 53, radix = 2 ^ width := by
  -- Sixteen is two to the power of four, and two is itself.
  cases marked with
  | hexadecimal => exact ⟨4, by decide, rfl⟩
  | binary => exact ⟨1, by decide, rfl⟩

/-- There are digits with the marker. -/
theorem occupied (marked : kind.Marks radix digits text) : digits ≠ [] := by
  cases marked <;> assumption

/-- What the marker is put to are digits to the base. -/
theorem inside (marked : kind.Marks radix digits text) :
    ∀ c ∈ digits, (digitValue? radix c).isSome = true := by
  intro c member
  -- The mark is no digit, and each kind has the digits of its base.
  cases marked with
  | hexadecimal _ inside =>
    rw [isSome_digitValue?_sixteen]
    exact inside c member
  | binary _ inside =>
    rw [isSome_digitValue?_two]
    exact inside c member

/-- A text with a marker is read as the value of its digits. -/
theorem value?_eq (marked : kind.Marks radix digits text) :
    kind.value? text = some (.ofDigits radix digits) := by
  have read := radixValue?_eq marked.occupied marked.inside
  -- The marker of a hexadecimal literal stands in front, that of a binary one behind.
  cases marked with
  | hexadecimal => exact read
  | binary => rw [value?, binaryValue?, if_pos (by simp), List.dropLast_concat, read]

/-- A literal is read as the value nearest to its number, or as the one right below that. -/
theorem value?_cases (marked : kind.Marks radix digits text) :
    ¬ RoundsTwice radix (numberOf radix digits) ∧
        kind.value? text = some (.ofNat (numberOf radix digits)) ∨
      RoundsTwice radix (numberOf radix digits) ∧
        ∃ rank, rank + 1 = nearestRank (numberOf radix digits * unitsPerOne) 1 ∧
          kind.value? text = some (.ofRank false rank) := by
  have read := marked.value?_eq
  have occupied := marked.occupied
  have inside := marked.inside
  obtain ⟨width, narrow, rfl⟩ := marked.exists_width
  -- Which of both it is depends on the number alone, not on how it is spelled.
  by_cases twice : RoundsTwice (2 ^ width) (numberOf (2 ^ width) digits)
  · obtain ⟨rank, next, folded⟩ := ofDigits_of_roundsTwice narrow occupied inside twice
    exact .inr ⟨twice, rank, next, read.trans (congrArg some folded)⟩
  · have rounded := ofDigits_of_not_roundsTwice narrow occupied inside twice
    exact .inl ⟨twice, read.trans (congrArg some rounded)⟩

end Marks

/-- The value right below the nearest one is another one. -/
theorem ofRank_ne_ofNat {radix number rank : Nat} (twice : RoundsTwice radix number)
    (next : rank + 1 = nearestRank (number * unitsPerOne) 1) :
    Binary64.ofRank false rank ≠ .ofNat number := by
  have finite := nearestRank_lt_finiteCount_iff.mpr twice.2.1
  rw [Binary64.ofNat_eq]
  -- Equal values would have the same rank, and these are next to each other.
  intro same
  have := Binary64.eq_of_ofRank_eq finite same
  omega

/--
A literal is read as the value nearest to its number, unless its digits are folded with two
roundings.

Two literals with one number are read as one value if both are so folded or neither is, as any two
to the same base are.
-/
theorem exists_read_isNearest_iff {kind : LiteralKind} {radix : Nat} {digits : List Char}
    {text : String} (marked : kind.Marks radix digits text.toList) :
    ∃ value, kind.read text = .ok value ∧
      (value.IsNearest (numberOf radix digits) ↔ ¬ RoundsTwice radix (numberOf radix digits)) ∧
      ∀ {other : LiteralKind} {base : Nat} {places : List Char} {spelling : String},
        other.Marks base places spelling.toList →
        numberOf base places = numberOf radix digits →
        (other.read spelling = .ok value ↔
          (RoundsTwice base (numberOf radix digits) ↔
            RoundsTwice radix (numberOf radix digits))) := by
  simp only [read_eq_ok, Binary64.isNearest_iff]
  -- Any two literals with the number differ by one rank if just one of them is rounded twice.
  rcases marked.value?_cases with ⟨once, read⟩ | ⟨twice, rank, next, read⟩
  · refine ⟨_, read, by simp [once], fun again same => ?_⟩
    rcases again.value?_cases with ⟨once', read'⟩ | ⟨twice', rank', next', read'⟩
    · rw [same] at once' read'
      simp [once, once', read']
    · rw [same] at twice' next'
      simp [once, twice', read', ofRank_ne_ofNat twice' next']
  · refine ⟨_, read, by simp [twice, ofRank_ne_ofNat twice next], fun again same => ?_⟩
    rcases again.value?_cases with ⟨once', read'⟩ | ⟨twice', rank', next', read'⟩
    · rw [same] at once' read'
      simp [twice, once', read', (ofRank_ne_ofNat twice next).symm]
    · rw [same] at twice' next'
      obtain rfl : rank = rank' := by omega
      simp [twice, twice', read']

/-- A number of thirty-three hexadecimal digits that starts with a tie is not read as the nearest
value. -/
theorem read_not_isNearest :
    ∃ value, hexadecimal.read "0x200000000000010000000000000000001" = .ok value ∧
      ¬ value.IsNearest 0x200000000000010000000000000000001 := by
  have marked : hexadecimal.Marks 16 "200000000000010000000000000000001".toList
      "0x200000000000010000000000000000001".toList :=
    .hexadecimal (by decide) (List.all_eq_true.mp (by decide))
  have number : numberOf 16 "200000000000010000000000000000001".toList =
      0x200000000000010000000000000000001 := by decide
  -- Without its last nineteen digits the number is a tie, which the last of them breaks.
  have twice : RoundsTwice 16 0x200000000000010000000000000000001 :=
    ⟨by decide, by decide, 19, ⟨0, 2 ^ 52, by decide⟩, by decide⟩
  obtain ⟨value, read, nearest, _⟩ := exists_read_isNearest_iff marked
  rw [number] at nearest
  exact ⟨value, read, fun closest => nearest.mp closest twice⟩

end LiteralKind

end Reckon
