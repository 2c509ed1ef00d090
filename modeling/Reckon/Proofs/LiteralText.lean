import Reckon.Literal
import Reckon.Proofs.Grammar.Derivation
import Reckon.Proofs.Lexeme.LongestMatch

/-! The texts that are read as literals are those that the patterns of literals match. -/

namespace Reckon

/-- The value of a digit is told by its code point. -/
theorem isSome_digitValue?_iff {radix : Nat} {c : Char} :
    (digitValue? radix c).isSome = true ↔
      (if 48 ≤ c.toNat ∧ c.toNat ≤ 57 then c.toNat - 48
        else if 97 ≤ c.toNat ∧ c.toNat ≤ 122 then c.toNat - 97 + 10
        else if 65 ≤ c.toNat ∧ c.toNat ≤ 90 then c.toNat - 65 + 10
        else radix) < radix := by
  -- A character of no class is as good as a digit that is too large.
  simp only [digitValue?, isDigit_iff, isLower_iff, isUpper_iff, Option.isSome_ite]
  exact Iff.rfl

/-- The characters with a value to base sixteen are the hexadecimal digits. -/
theorem isSome_digitValue?_sixteen (c : Char) : (digitValue? 16 c).isSome = isHexDigit c := by
  -- Every class of characters is a range of code points, and those are compared as numbers.
  rw [Bool.eq_iff_iff, isSome_digitValue?_iff, isHexDigit_iff]
  split_ifs <;> omega

/-- The characters with a value to base two are the binary digits. -/
theorem isSome_digitValue?_two (c : Char) : (digitValue? 2 c).isSome = isBinaryDigit c := by
  -- To base two only the first two of the digits are small enough.
  rw [Bool.eq_iff_iff, isSome_digitValue?_iff, isBinaryDigit_iff]
  split_ifs <;> omega

namespace LiteralKind

/-- Digits to a base are read when there is one of them at least. -/
theorem isSome_radixValue? {radix : Nat} {inClass : Char → Bool} {digits : List Char}
    (classes : ∀ c, (digitValue? radix c).isSome = inClass c) :
    (radixValue? radix digits).isSome = true ↔
      digits ≠ [] ∧ ∀ c ∈ digits, inClass c = true := by
  simp [radixValue?, classes]

/-- A hexadecimal literal is read from what its pattern matches. -/
theorem isSome_hexadecimalValue? {text : List Char} :
    (hexadecimalValue? text).isSome = true ↔ Token.Matches .hexadecimal text := by
  rw [Token.matches_hexadecimal]
  constructor
  · intro read
    unfold hexadecimalValue? at read
    -- Nothing is read without the marker in front.
    split at read
    case h_1 digits =>
      obtain ⟨occupied, inside⟩ := (isSome_radixValue? isSome_digitValue?_sixteen).mp read
      exact ⟨digits, occupied, inside, rfl⟩
    case h_2 => simp at read
  · intro matched
    -- The marker is taken off, and the digits are those that the pattern matched.
    obtain ⟨digits, occupied, inside, rfl⟩ := matched
    exact (isSome_radixValue? isSome_digitValue?_sixteen).mpr ⟨occupied, inside⟩

/-- A binary literal is read from what its pattern matches. -/
theorem isSome_binaryValue? {text : List Char} :
    (binaryValue? text).isSome = true ↔ Token.Matches .binary text := by
  rw [Token.matches_binary]
  constructor
  · intro read
    unfold binaryValue? at read
    -- Nothing is read without the marker at the end.
    split at read
    case isTrue marked =>
      obtain ⟨occupied, inside⟩ := (isSome_radixValue? isSome_digitValue?_two).mp read
      exact ⟨text.dropLast, occupied, inside, (List.dropLast_append_getLast? _ marked).symm⟩
    case isFalse => simp at read
  · intro matched
    obtain ⟨digits, occupied, inside, rfl⟩ := matched
    rw [binaryValue?, if_pos (by simp), List.dropLast_concat]
    exact (isSome_radixValue? isSome_digitValue?_two).mpr ⟨occupied, inside⟩

/-- Digits with an optional point are read from what the pattern of decimal literals matches. -/
theorem isSome_ofChars? {text : List Char} :
    (Decimal.ofChars? text).isSome = true ↔ Token.Matches .decimal text := by
  rw [Token.matches_decimal]
  constructor
  · intro read
    -- The text is a run of digits, and what is behind it is nothing or the point with more.
    have run := text.takeWhile_append_dropWhile (p := Char.isDigit)
    have digits : ∀ c ∈ text.takeWhile Char.isDigit, c.isDigit = true := by
      intro c member
      exact List.mem_takeWhile_imp member
    by_cases occupied : text.takeWhile Char.isDigit = []
    · simp [Decimal.ofChars?, occupied] at read
    · refine ⟨text.takeWhile Char.isDigit, ?_⟩
      simp only [Decimal.ofChars?, List.isEmpty_iff, occupied, if_false] at read
      split at read
      case h_1 nothing =>
        -- The digits are the whole text.
        refine ⟨[], occupied, digits, by simp, ?_⟩
        rw [nothing] at run
        simpa using run.symm
      -- The point is read only with more digits behind it, and nothing else.
      case h_2 fraction point =>
        split at read
        case isTrue inside =>
          simp only [Bool.and_eq_true, Bool.not_eq_true', List.isEmpty_eq_false_iff,
            List.all_eq_true] at inside
          refine ⟨fraction, occupied, digits, inside.2, ?_⟩
          rw [if_neg inside.1, ← point]
          exact run.symm
        case isFalse => simp at read
      case h_3 => simp at read
  · intro matched
    obtain ⟨whole, fraction, occupied, wholeDigits, fractionDigits, rfl⟩ := matched
    -- A text without a point is one run, and otherwise the run ends at the point.
    by_cases point : fraction = []
    · have all := List.takeWhile_eq_self_iff.mpr wholeDigits
      have nothing := List.dropWhile_eq_nil_iff.mpr wholeDigits
      simp [Decimal.ofChars?, point, all, nothing, occupied]
    · obtain ⟨taken, left⟩ :=
        takeWhile_append_cons wholeDigits (c := '.') (by decide) fraction
      simp only [if_neg point, Decimal.ofChars?, taken, left]
      simpa [occupied, point] using fractionDigits

/-- A sign is taken off a text that starts with one. -/
theorem decimalValue?_minus (digits : List Char) :
    decimalValue? ('-' :: digits) =
      (Decimal.ofChars? digits).map fun d => .nearest true (Binary64.signed true d.toRat) := rfl

/-- Nothing is taken off a text that does not start with a sign. -/
theorem decimalValue?_unsigned {text : List Char} (unsigned : text.head? ≠ some '-') :
    decimalValue? text =
      (Decimal.ofChars? text).map fun d => .nearest false (Binary64.signed false d.toRat) := by
  -- The match on the first character goes past the minus sign.
  cases text with
  | nil => rfl
  | cons c rest =>
    unfold decimalValue?
    split
    case h_1 negative digits signed =>
      split at signed
      case h_1 minus =>
        rw [(List.cons.inj minus).1] at unsigned
        exact absurd rfl unsigned
      case h_2 =>
        obtain ⟨rfl, rfl⟩ := Prod.mk.inj signed
        rfl

/-- The value of a decimal literal is that of its digits, behind the sign if there is one. -/
theorem isSome_decimalValue? {text digits : List Char}
    (unsigned : text = digits ∧ text.head? ≠ some '-' ∨ text = '-' :: digits) :
    (decimalValue? text).isSome = (Decimal.ofChars? digits).isSome := by
  rcases unsigned with ⟨rfl, unsigned⟩ | rfl
  · rw [decimalValue?_unsigned unsigned, Option.isSome_map]
  · rw [decimalValue?_minus, Option.isSome_map]

/-- Without a sign a literal of a kind is read from what the pattern of the kind matches. -/
theorem isSome_value?_of_matches {kind : LiteralKind} {text : List Char}
    (matched : kind.token.Matches text) : (kind.value? text).isSome = true := by
  cases kind with
  | hexadecimal => exact isSome_hexadecimalValue?.mpr matched
  | binary => exact isSome_binaryValue?.mpr matched
  | decimal =>
    -- A decimal literal starts with a digit, so no sign is taken off.
    have unsigned : text.head? ≠ some '-' := by
      intro minus
      rcases Token.mem_decimal matched (List.mem_of_head? minus) with digit | point
      · simp at digit
      · simp at point
    have same := isSome_decimalValue? (.inl ⟨rfl, unsigned⟩)
    exact same.trans (isSome_ofChars?.mpr matched)

/-- A minus in front of what the pattern of decimal literals matches is read with it. -/
theorem isSome_value?_minus {digits : List Char} (matched : Token.Matches .decimal digits) :
    (LiteralKind.decimal.value? ('-' :: digits)).isSome = true := by
  -- What is behind the sign is read as it is by itself.
  have same : (decimalValue? ('-' :: digits)).isSome = (Decimal.ofChars? digits).isSome :=
    isSome_decimalValue? (.inr rfl)
  exact same.trans (isSome_ofChars?.mpr matched)

/-- A text spells a literal of a kind, with a minus sign in front only if the kind is decimal. -/
inductive Spells : LiteralKind → List Char → Prop where
  | plain {kind : LiteralKind} {text : List Char} (matched : kind.token.Matches text) :
      Spells kind text
  | signed {digits : List Char} (matched : Token.Matches .decimal digits) :
      Spells .decimal ('-' :: digits)

/-- A text has a value as a literal of a kind when it spells one. -/
theorem isSome_value?_iff {kind : LiteralKind} {text : List Char} :
    (kind.value? text).isSome = true ↔ kind.Spells text := by
  constructor
  · intro valued
    cases kind with
    | hexadecimal => exact .plain (isSome_hexadecimalValue?.mp valued)
    | binary => exact .plain (isSome_binaryValue?.mp valued)
    | decimal =>
      have valued : (decimalValue? text).isSome = true := valued
      -- The first character tells whether there is a sign to take off.
      by_cases minus : text.head? = some '-'
      · obtain ⟨digits, rfl⟩ := List.head?_eq_some_iff.mp minus
        rw [isSome_decimalValue? (.inr rfl)] at valued
        exact .signed (isSome_ofChars?.mp valued)
      · rw [isSome_decimalValue? (.inl ⟨rfl, minus⟩)] at valued
        exact .plain (isSome_ofChars?.mp valued)
  · intro spelled
    cases spelled with
    | plain matched => exact isSome_value?_of_matches matched
    | signed matched => exact isSome_value?_minus matched

/-- A text with a value as a literal is read as that value. -/
theorem read_eq_ok {kind : LiteralKind} {text : String} {value : Binary64} :
    kind.read text = .ok value ↔ kind.value? text.toList = some value := by
  -- Reading fails exactly where there is no value.
  unfold read
  split
  case h_1 found => simp [found]
  case h_2 missing => simp [missing]

/-- A text is read as a literal of a kind when it spells one. -/
theorem exists_read_eq_ok_iff {kind : LiteralKind} {text : String} :
    (∃ value, kind.read text = .ok value) ↔ kind.Spells text.toList := by
  rw [← isSome_value?_iff, Option.isSome_iff_exists]
  exact exists_congr fun value => read_eq_ok

end LiteralKind

/-- A text is a name when the pattern of names matches it. -/
theorem isName_iff {text : String} : isName text = true ↔ Token.Matches .name text.toList := by
  -- Both say that there are letters, at least one, and nothing else.
  rw [Token.matches_name]
  simp [isName]

end Reckon
