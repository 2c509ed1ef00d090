import Mathlib.Computability.RegularExpressions
import Reckon.Proofs.Lexeme.Classes

/-! The patterns that lexemes are declared with, as regular expressions, and what they match. -/

namespace Reckon

namespace Pattern

/-- One of some characters. -/
def oneOf : List Char → RegularExpression Char
  | [] => 0
  | c :: others => .char c + oneOf others

/-- A pattern at least once. -/
def oneOrMore (pattern : RegularExpression Char) : RegularExpression Char :=
  pattern * pattern.star

/-- A pattern at most once. -/
def optional (pattern : RegularExpression Char) : RegularExpression Char := 1 + pattern

/-- The characters from one up to another. -/
def range (first last : Char) : List Char :=
  (List.range' first.toNat (last.toNat + 1 - first.toNat)).map Char.ofNat

/-- The characters of `[0-9]`. -/
def digits : List Char := range '0' '9'

/-- The characters of `[01]`. -/
def binaryDigits : List Char := ['0', '1']

/-- The characters of `[0-9a-fA-F]`. -/
def hexDigits : List Char := range '0' '9' ++ range 'a' 'f' ++ range 'A' 'F'

/-- The characters of `[a-zA-Z]`. -/
def letters : List Char := range 'a' 'z' ++ range 'A' 'Z'

/-- The characters of `[ \t]`. -/
def gaps : List Char := [' ', '\t']

/-- The pattern of what is skipped, `[ \t]+`. -/
def skipped : RegularExpression Char := oneOrMore (oneOf gaps)

/-- A character matches the text of itself only. -/
theorem mem_char {c : Char} {text : List Char} :
    text ∈ (RegularExpression.char c).matches' ↔ text = [c] := Iff.rfl

/-- Several characters match the texts of one of them. -/
theorem mem_oneOf {chars text : List Char} :
    text ∈ (oneOf chars).matches' ↔ ∃ c ∈ chars, text = [c] := by
  induction chars with
  -- The empty class is the pattern that matches nothing.
  | nil => simp [oneOf, Language.notMem_zero]
  | cons first others ih =>
    rw [oneOf, RegularExpression.matches'_add, Language.mem_add, mem_char, ih]
    simp

/-- A class of characters matches any number of times on texts of these characters only. -/
theorem mem_star_oneOf {chars text : List Char} :
    text ∈ (oneOf chars).star.matches' ↔ ∀ c ∈ text, c ∈ chars := by
  rw [RegularExpression.matches'_star, Language.mem_kstar]
  constructor
  · intro starred c member
    obtain ⟨pieces, rfl, matched⟩ := starred
    -- The character stands in one of the pieces, which is that character alone.
    obtain ⟨piece, pieceMember, inPiece⟩ := List.mem_flatten.mp member
    obtain ⟨d, dMember, rfl⟩ := mem_oneOf.mp (matched piece pieceMember)
    exact List.mem_singleton.mp inPiece ▸ dMember
  · intro inside
    -- The other way around each character is a piece of its own.
    refine ⟨text.map fun c => [c], ?_, ?_⟩
    · induction text with
      | nil => rfl
      | cons c rest ih =>
        rw [List.map_cons, List.flatten_cons, ← ih fun d member =>
          inside d (List.mem_cons_of_mem c member)]
        rfl
    · intro piece member
      obtain ⟨c, inText, rfl⟩ := List.mem_map.mp member
      exact mem_oneOf.mpr ⟨c, inside c inText, rfl⟩

/-- A class of characters matches at least once on the nonempty texts of these characters. -/
theorem mem_oneOrMore_oneOf {chars text : List Char} :
    text ∈ (oneOrMore (oneOf chars)).matches' ↔ text ≠ [] ∧ ∀ c ∈ text, c ∈ chars := by
  rw [oneOrMore, RegularExpression.matches'_mul, Language.mem_mul]
  constructor
  · intro repeated
    obtain ⟨first, firstMatched, rest, restMatched, rfl⟩ := repeated
    obtain ⟨c, member, rfl⟩ := mem_oneOf.mp firstMatched
    refine ⟨by simp, ?_⟩
    intro d inside
    -- The first repetition gives the first character, and the others the rest.
    rcases List.mem_cons.mp inside with same | later
    · exact same ▸ member
    · exact mem_star_oneOf.mp restMatched d later
  · intro made
    obtain ⟨occupied, inside⟩ := made
    -- The first character is the repetition that has to be there, and the rest are the others.
    obtain ⟨c, rest, rfl⟩ := List.exists_cons_of_ne_nil occupied
    refine ⟨[c], mem_oneOf.mpr ⟨c, inside c List.mem_cons_self, rfl⟩, rest, ?_, rfl⟩
    exact mem_star_oneOf.mpr fun d member => inside d (List.mem_cons_of_mem c member)

/-- A character in front of a pattern stands in front of what the pattern matches. -/
theorem mem_char_mul {c : Char} {pattern : RegularExpression Char} {text : List Char} :
    text ∈ (.char c * pattern : RegularExpression Char).matches' ↔
      ∃ rest ∈ pattern.matches', text = c :: rest := by
  rw [RegularExpression.matches'_mul, Language.mem_mul]
  constructor
  · intro parts
    -- The first part is the character alone.
    obtain ⟨first, alone, rest, matched, rfl⟩ := parts
    rw [mem_char.mp alone]
    exact ⟨rest, matched, rfl⟩
  · intro parts
    obtain ⟨rest, matched, rfl⟩ := parts
    exact ⟨[c], mem_char.mpr rfl, rest, matched, rfl⟩

/-- A text matches a pattern at most once when it is empty or the pattern matches it. -/
theorem mem_optional {pattern : RegularExpression Char} {text : List Char} :
    text ∈ (optional pattern).matches' ↔ text = [] ∨ text ∈ pattern.matches' := by
  -- The empty pattern matches the empty text only.
  rw [optional, RegularExpression.matches'_add, Language.mem_add,
    RegularExpression.matches'_epsilon, Language.mem_one]

/-- A range below the surrogates holds the characters between its ends. -/
theorem mem_range {first last c : Char} (basic : last.toNat < 0xd800) :
    c ∈ range first last ↔ first ≤ c ∧ c ≤ last := by
  -- Characters are compared by their code points.
  have order (a b : Char) : a ≤ b ↔ a.toNat ≤ b.toNat := Iff.rfl
  rw [range, List.mem_map, order, order]
  constructor
  · intro listed
    obtain ⟨code, inside, rfl⟩ := listed
    rw [List.mem_range'_1] at inside
    -- No code point of the range is a surrogate, so each of them is that of its character.
    have valid : (Char.ofNat code).toNat = code := by
      rw [Char.ofNat, dif_pos (Or.inl (by omega))]
      rfl
    omega
  · intro between
    obtain ⟨low, high⟩ := between
    exact ⟨c.toNat, List.mem_range'_1.mpr ⟨low, by omega⟩, Char.ofNat_toNat c⟩

/-- The class `[0-9]` holds the decimal digits. -/
theorem mem_digits {c : Char} : c ∈ digits ↔ c.isDigit = true := by
  -- Both sides say that the code point lies between those of the first and the last digit.
  rw [digits, mem_range (by decide), isDigit_iff]
  exact Iff.rfl

/-- The class `[01]` holds the binary digits. -/
theorem mem_binaryDigits {c : Char} : c ∈ binaryDigits ↔ isBinaryDigit c = true := by
  simp [binaryDigits, isBinaryDigit]

/-- The class `[0-9a-fA-F]` holds the hexadecimal digits. -/
theorem mem_hexDigits {c : Char} : c ∈ hexDigits ↔ isHexDigit c = true := by
  -- The three ranges of the class are the three that the digits are tested for.
  rw [hexDigits, List.mem_append, List.mem_append, mem_range (by decide), mem_range (by decide),
    mem_range (by decide), isHexDigit_iff, or_assoc]
  exact Iff.rfl

/-- The class `[a-zA-Z]` holds the letters. -/
theorem mem_letters {c : Char} : c ∈ letters ↔ c.isAlpha = true := by
  -- The class lists the small letters first, and the test is for the capital ones first.
  rw [letters, List.mem_append, mem_range (by decide), mem_range (by decide), isAlpha_iff, or_comm]
  exact Iff.rfl

/-- The class `[ \t]` holds the gaps. -/
theorem mem_gaps {c : Char} : c ∈ gaps ↔ isGap c = true := by
  simp [gaps, isGap]

/-- What is skipped are gaps only, and at least one. -/
theorem mem_skipped {text : List Char} :
    text ∈ skipped.matches' ↔ text ≠ [] ∧ ∀ c ∈ text, isGap c = true := by
  simp only [skipped, mem_oneOrMore_oneOf, mem_gaps]

end Pattern

namespace Token

/-- The pattern that a kind of lexeme is declared with. -/
def pattern : Token → RegularExpression Char
  | .hexadecimal => .char '0' * (.char 'x' * Pattern.oneOrMore (Pattern.oneOf Pattern.hexDigits))
  | .binary => Pattern.oneOrMore (Pattern.oneOf Pattern.binaryDigits) * .char 'b'
  | .decimal =>
    Pattern.oneOrMore (Pattern.oneOf Pattern.digits) *
      Pattern.optional (.char '.' * Pattern.oneOrMore (Pattern.oneOf Pattern.digits))
  | .name => Pattern.oneOrMore (Pattern.oneOf Pattern.letters)
  | .plus => .char '+'
  | .minus => .char '-'
  | .star => .char '*'
  | .slash => .char '/'
  | .caret => .char '^'
  | .equals => .char '='
  | .leftParen => .char '('
  | .rightParen => .char ')'

/-- Whether a text as a whole matches the pattern of a kind. -/
def Matches (token : Token) (text : List Char) : Prop := text ∈ token.pattern.matches'

/-- A hexadecimal literal is its marker and at least one digit. -/
theorem matches_hexadecimal {text : List Char} :
    Matches .hexadecimal text ↔ ∃ digits, digits ≠ [] ∧ (∀ c ∈ digits, isHexDigit c = true) ∧
      text = '0' :: 'x' :: digits := by
  -- The two characters of the marker come first, and the class of digits repeats behind them.
  rw [Matches, pattern, Pattern.mem_char_mul]
  simp only [Pattern.mem_char_mul, Pattern.mem_oneOrMore_oneOf, Pattern.mem_hexDigits]
  constructor
  · intro parts
    obtain ⟨_, ⟨digits, ⟨occupied, inside⟩, rfl⟩, rfl⟩ := parts
    exact ⟨digits, occupied, inside, rfl⟩
  · intro parts
    obtain ⟨digits, occupied, inside, rfl⟩ := parts
    exact ⟨_, ⟨digits, ⟨occupied, inside⟩, rfl⟩, rfl⟩

/-- A binary literal is at least one digit and its marker. -/
theorem matches_binary {text : List Char} :
    Matches .binary text ↔ ∃ digits, digits ≠ [] ∧ (∀ c ∈ digits, isBinaryDigit c = true) ∧
      text = digits ++ ['b'] := by
  -- The class of digits repeats, and the marker comes last.
  rw [Matches, pattern, RegularExpression.matches'_mul, Language.mem_mul]
  simp only [Pattern.mem_char, Pattern.mem_oneOrMore_oneOf, Pattern.mem_binaryDigits]
  constructor
  · intro parts
    obtain ⟨digits, ⟨occupied, inside⟩, marker, rfl, rfl⟩ := parts
    exact ⟨digits, occupied, inside, rfl⟩
  · intro parts
    obtain ⟨digits, occupied, inside, rfl⟩ := parts
    exact ⟨digits, ⟨occupied, inside⟩, ['b'], rfl, rfl⟩

/-- A decimal literal is at least one digit, and a point only with at least one digit behind. -/
theorem matches_decimal {text : List Char} :
    Matches .decimal text ↔ ∃ whole fraction, whole ≠ [] ∧ (∀ c ∈ whole, c.isDigit = true) ∧
      (∀ c ∈ fraction, c.isDigit = true) ∧
      text = whole ++ (if fraction = [] then [] else '.' :: fraction) := by
  rw [Matches, pattern, RegularExpression.matches'_mul, Language.mem_mul]
  simp only [Pattern.mem_optional, Pattern.mem_char_mul, Pattern.mem_oneOrMore_oneOf,
    Pattern.mem_digits]
  constructor
  · intro parts
    obtain ⟨whole, ⟨occupied, inside⟩, behind, pointed, rfl⟩ := parts
    -- Without a point there is no fraction, and behind one there is.
    rcases pointed with rfl | ⟨fraction, ⟨point, digits⟩, rfl⟩
    · exact ⟨whole, [], occupied, inside, by simp, by simp⟩
    · exact ⟨whole, fraction, occupied, inside, digits, by rw [if_neg point]⟩
  · intro parts
    obtain ⟨whole, fraction, occupied, inside, digits, rfl⟩ := parts
    refine ⟨whole, ⟨occupied, inside⟩, _, ?_, rfl⟩
    -- The optional part is there exactly where there is a fraction.
    by_cases point : fraction = []
    · exact .inl (if_pos point)
    · exact .inr ⟨fraction, ⟨point, digits⟩, if_neg point⟩

/-- A name is at least one letter. -/
theorem matches_name {text : List Char} :
    Matches .name text ↔ text ≠ [] ∧ ∀ c ∈ text, c.isAlpha = true := by
  simp only [Matches, pattern, Pattern.mem_oneOrMore_oneOf, Pattern.mem_letters]

/-- A character that is a lexeme by itself is all that the pattern of its kind matches. -/
theorem matches_symbol {token : Token} {c : Char} (symbol : ofSymbol? c = some token)
    {text : List Char} : Matches token text ↔ text = [c] := by
  -- The pattern of each of these kinds is the character itself.
  unfold ofSymbol? at symbol
  split at symbol <;> first | contradiction | (cases symbol; exact Pattern.mem_char)

end Token

end Reckon
