import Mathlib.Data.List.Infix
import Reckon.Proofs.Grammar.WrittenLine

/-! Literals and names are the same to the lexemes of a text, their readers and the grammar. -/

namespace Reckon

/-- A text as a whole is one lexeme of a kind. -/
def IsLexeme (token : Token) (text : String) : Prop :=
  ∃ lexeme, lexemesOf text = [lexeme] ∧ lexeme.token = some token ∧
    lexeme.span = ⟨0, text.utf8ByteSize⟩

/-- A text as a whole is a minus sign and a decimal literal with no gap between them. -/
def IsSignedDecimal (text : String) : Prop :=
  ∃ minus digits, lexemesOf text = [minus, digits] ∧ minus.token = some .minus ∧
    digits.token = some .decimal ∧ minus.span.offset = 0 ∧
    digits.span.offset = minus.span.stop ∧ digits.span.stop = text.utf8ByteSize

/-- In a line some text stands in a range, and the value of it is read by the reader of a kind. -/
def ReadsIn (line : String) (kind : LiteralKind) (text : String) (value : Binary64)
    (span : Span) : Prop :=
  slice? line.toList span.offset span.length = some text.toList ∧ kind.read text = .ok value

/-- A text with as many bytes as a part of it has nothing around that part. -/
theorem around_eq_nil {text before middle after : List Char}
    (cut : text = before ++ (middle ++ after)) (bytes : byteLength text = byteLength middle) :
    before = [] ∧ after = [] := by
  simp only [cut, byteLength_append] at bytes
  exact ⟨byteLength_eq_zero.mp (by omega), byteLength_eq_zero.mp (by omega)⟩

/-- A text is one lexeme of a kind when the pattern of the kind matches it. -/
theorem isLexeme_iff {token : Token} {text : String} :
    IsLexeme token text ↔ token.Matches text.toList := by
  constructor
  · intro lexed
    obtain ⟨lexeme, single, known, place⟩ := lexed
    have split := splits_lexemesOf text
    rw [single] at split
    obtain ⟨before, after, cut, _, own, matched, _⟩ := split.exists_cons
    obtain ⟨_, length⟩ := Span.mk.inj (place.symm.trans own)
    rw [← byteLength_toList] at length
    -- The lexeme takes all bytes of the text, so there are no gaps around it.
    obtain ⟨rfl, rfl⟩ := around_eq_nil cut length
    rw [cut]
    simpa using matched token known
  · intro matched
    -- What a pattern matches is split into one lexeme of its kind.
    have single := splits_iff.mp (matched.splits 0)
    exact ⟨_, single.symm, rfl, by rw [← byteLength_toList]; rfl⟩

/-- A text is a signed decimal literal when it is a minus sign in front of an unsigned one. -/
theorem isSignedDecimal_iff {text : String} :
    IsSignedDecimal text ↔
      ∃ digits, text.toList = '-' :: digits ∧ Token.Matches .decimal digits := by
  constructor
  · intro lexed
    obtain ⟨minus, digits, pair, sign, token, start, glued, stop⟩ := lexed
    have split := splits_lexemesOf text
    rw [pair] at split
    obtain ⟨before, after, cut, _, _, _, matched, cover⟩ := split.exists_glued sign token glued
    -- The two lexemes take all bytes of the text, so there are no gaps around them.
    have bytes : byteLength text.toList = byteLength ('-' :: digits.text.toList) := by
      obtain ⟨offset, length⟩ := Span.mk.inj cover
      rw [byteLength_toList]
      simp only [Span.stop] at *
      omega
    obtain ⟨rfl, rfl⟩ := around_eq_nil cut bytes
    exact ⟨digits.text.toList, by simpa using cut, matched⟩
  · intro found
    obtain ⟨digits, cut, matched⟩ := found
    -- A sign and a number side by side are split one after the other.
    have split := ((Token.matches_minus.mpr rfl).splits 0).append (matched.splits _)
      (.of_last [] digits rfl)
    rw [show ['-'] ++ digits = text.toList from cut.symm] at split
    have pair := splits_iff.mp split
    refine ⟨_, _, pair.symm, rfl, rfl, rfl, by simp [Lexeme.ofChars, Span.stop], ?_⟩
    rw [← byteLength_toList, cut]
    simp

/-- A text spells a literal when it is one lexeme of its kind, or a signed decimal literal. -/
theorem LiteralKind.spells_iff {kind : LiteralKind} {text : String} :
    kind.Spells text.toList ↔
      IsLexeme kind.token text ∨ kind = .decimal ∧ IsSignedDecimal text := by
  rw [isLexeme_iff, isSignedDecimal_iff]
  constructor
  · intro spelled
    -- The text is taken apart by how it is spelled.
    generalize whole : text.toList = characters at spelled
    cases spelled with
    | plain matched => exact .inl matched
    | signed matched => exact .inr ⟨rfl, _, rfl, matched⟩
  · intro lexed
    rcases lexed with matched | ⟨rfl, digits, cut, matched⟩
    · exact .plain matched
    · exact cut ▸ .signed matched

/-- What is read as a literal is written as one. -/
theorem LiteralKind.writes_of_read {kind : LiteralKind} {text : String} {value : Binary64}
    (read : kind.read text = .ok value) :
    Writes kind.rule text.toList (.literal kind text value ⟨0, text.utf8ByteSize⟩) := by
  -- The value is read with the sign, and the pattern of the kind matches without it.
  have valued := read_eq_ok.mp read
  have spelled := exists_read_eq_ok_iff.mp ⟨value, read⟩
  rw [← byteLength_toList]
  generalize whole : text.toList = characters at valued spelled
  obtain rfl : text = String.ofList characters := by rw [← whole, String.ofList_toList]
  cases spelled with
  | plain matched => exact .literal rfl matched valued
  | signed matched => exact .signed matched valued

/-- What any rule writes without opening a level is accepted. -/
theorem Writes.parse_eq_ok {rule : Rule} {text : String} {tree : Expr}
    (written : Writes rule text.toList tree) (flat : tree.nest = 0) : parse text = .ok tree := by
  have parsed := (LineWrites.expression written.expression).parse_eq_ok (by omega)
  rwa [String.ofList_toList] at parsed

/-- Some lexemes in a row are those of a part of the line. -/
theorem exists_part_of_isInfix {line : String} {lexemes : List Lexeme}
    (inside : lexemes <:+: lexemesOf line) :
    ∃ front text back, line.toList = front ++ (text ++ back) ∧
      Splits (byteLength front) text lexemes := by
  obtain ⟨former, latter, cut⟩ := inside
  have split := splits_lexemesOf line
  rw [← cut, List.append_assoc] at split
  -- The lexemes in front are split off first, then those behind.
  obtain ⟨front, behind, whole, _, split, _⟩ := split.exists_append
  obtain ⟨text, back, rfl, split, _⟩ := split.exists_append
  rw [Nat.zero_add] at split
  exact ⟨front, text, back, whole, split⟩

/-- The text of a lexeme is cut out of the line where the lexeme stands. -/
theorem slice?_of_mem {line : String} {lexeme : Lexeme} (member : lexeme ∈ lexemesOf line) :
    slice? line.toList lexeme.span.offset lexeme.span.length = some lexeme.text.toList := by
  -- The lexeme stands somewhere in the line with its own bytes.
  obtain ⟨before, after, stands, _⟩ := (splits_lexemesOf line).longest [] rfl lexeme member
  rw [List.nil_append] at stands
  rw [stands.line_eq, stands.span_eq]
  exact slice?_append before lexeme.text.toList after

/-- A literal lexeme of a line spells a literal of its kind where it stands. -/
theorem spells_of_mem {line : String} {lexeme : Lexeme} {kind : LiteralKind}
    (member : lexeme ∈ lexemesOf line) (token : lexeme.token = some kind.token) :
    slice? line.toList lexeme.span.offset lexeme.span.length = some lexeme.text.toList ∧
      kind.Spells lexeme.text.toList :=
  ⟨slice?_of_mem member, .plain ((orderly_lexemesOf line).spelled lexeme member _ token)⟩

/-- A minus sign of a line spells a literal with the digits right behind it. -/
theorem spells_of_glued {line : String} {minus digits : Lexeme}
    (inside : [minus, digits] <:+: lexemesOf line) (sign : minus.token = some .minus)
    (token : digits.token = some .decimal) (glued : digits.span.offset = minus.span.stop) :
    slice? line.toList (minus.span.cover digits.span).offset
        (minus.span.cover digits.span).length = some (minus.text ++ digits.text).toList ∧
      LiteralKind.decimal.Spells (minus.text ++ digits.text).toList := by
  obtain ⟨front, text, back, cut, split⟩ := exists_part_of_isInfix inside
  -- Since no gap is between the two, the cover of their ranges is one text.
  obtain ⟨before, after, rfl, _, _, whole, matched, cover⟩ := split.exists_glued sign token glued
  constructor
  · rw [cut, cover, whole, String.toList_ofList, ← byteLength_append]
    simpa using slice?_append (front ++ before) ('-' :: digits.text.toList) (after ++ back)
  · rw [whole, String.toList_ofList]
    exact .signed matched

/-- A literal that is made of a text which spells one has the value that is read from the text. -/
theorem ReadsIn.of_literal {line : String} {kind other : LiteralKind} {text otherText : String}
    {value : Binary64} {span otherSpan : Span}
    (made : Grammar.literal other otherText otherSpan = .literal kind text value span)
    (place : slice? line.toList otherSpan.offset otherSpan.length = some otherText.toList)
    (spelled : other.Spells otherText.toList) : ReadsIn line kind text value span := by
  -- Since the text is read, nothing stands in for a value that is missing.
  obtain ⟨found, read⟩ := LiteralKind.exists_read_eq_ok_iff.mpr spelled
  rw [Grammar.literal_eq read] at made
  obtain ⟨rfl, rfl, rfl, rfl⟩ := Expr.literal.inj made
  exact ⟨place, read⟩

/-- What is matched in parentheses is no literal. -/
theorem Grammar.parenthesized_ne_literal (inner : Option Matcher) (lexemes rest : List Lexeme)
    (kind : LiteralKind) (text : String) (value : Binary64) (span : Span) :
    Grammar.parenthesized inner lexemes ≠ .matched (.literal kind text value span) rest := by
  intro matched
  unfold Grammar.parenthesized at matched
  cases opened : Grammar.take? .leftParen lexemes with
  | none => simp [opened] at matched
  | some found =>
    obtain ⟨opening, later⟩ := found
    simp only [opened] at matched
    cases within : Grammar.deeper .parenthesized inner later with
    | failed rule later levels => simp [within, Outcome.andThen] at matched
    | matched tree later =>
      -- With or without a closing parenthesis, the tree is no leaf.
      simp only [within, Outcome.andThen] at matched
      split at matched <;> cases matched

/-- A literal that is matched in a line has the value that is read from its text there. -/
theorem readsIn_of_atom {line : String} {taken lexemes rest : List Lexeme}
    (cut : lexemesOf line = taken ++ lexemes) {inner : Option Matcher} {kind : LiteralKind}
    {text : String} {value : Binary64} {span : Span}
    (matched : Grammar.atom inner lexemes = .matched (.literal kind text value span) rest) :
    ReadsIn line kind text value span := by
  cases lexemes with
  | nil => contradiction
  | cons lexeme others =>
    have member : lexeme ∈ lexemesOf line := by simp [cut]
    -- A literal without a sign is made of one lexeme and nothing else.
    have single (other : LiteralKind) (token : lexeme.token = some other.token)
        (made : Grammar.literal other lexeme.text lexeme.span = .literal kind text value span) :
        ReadsIn line kind text value span :=
      .of_literal made (spells_of_mem member token).1 (spells_of_mem member token).2
    -- The kind of the first lexeme tells whether there is a literal, and what it is made of.
    cases token : lexeme.token with
    | none => simp [Grammar.atom, token] at matched
    | some first =>
      simp only [Grammar.atom, token] at matched
      cases first with
      | hexadecimal => exact single .hexadecimal token (Outcome.matched.inj matched).1
      | binary => exact single .binary token (Outcome.matched.inj matched).1
      | decimal => exact single .decimal token (Outcome.matched.inj matched).1
      | minus =>
        -- A minus sign by itself is no operand, and no literal is matched.
        cases found : Grammar.gluedDecimal? lexeme others with
        | none => simp [found] at matched
        | some result =>
          obtain ⟨digits, behind⟩ := result
          obtain ⟨rfl, number, glued⟩ := Grammar.eq_of_gluedDecimal?_eq_some found
          have inside : [lexeme, digits] <:+: lexemesOf line := ⟨taken, behind, by simp [cut]⟩
          obtain ⟨place, spelled⟩ := spells_of_glued inside token number glued
          simp only [found] at matched
          exact .of_literal (Outcome.matched.inj matched).1 place spelled
      | leftParen => exact absurd matched (Grammar.parenthesized_ne_literal _ _ _ _ _ _ _)
      | name | plus | star | slash | caret | equals | rightParen => cases matched

/--
Literals and names are the same to the lexemes of a text, to their readers and to the grammar.

A text is read as a literal when it is a single lexeme of the kind, or a minus sign and a decimal
literal right behind it, and it is a name when it is a single lexeme of that kind. As a line it is
then the leaf of that literal or name. So wherever in a line the grammar matches a literal, what
it makes of the lexemes is the value that the reader of the kind gives for the text there.
-/
theorem leaf_readings :
    (∀ kind text, (∃ value, LiteralKind.read kind text = .ok value) ↔
      IsLexeme kind.token text ∨ kind = .decimal ∧ IsSignedDecimal text) ∧
    (∀ text, isName text = true ↔ IsLexeme .name text) ∧
    (∀ kind text value, LiteralKind.read kind text = .ok value →
      parse text = .ok (.literal kind text value ⟨0, text.utf8ByteSize⟩)) ∧
    (∀ text, isName text = true → parse text = .ok (.reference text ⟨0, text.utf8ByteSize⟩)) ∧
    ∀ line taken lexemes, lexemesOf line = taken ++ lexemes →
      ∀ inner kind text value span rest,
        Grammar.atom inner lexemes = .matched (.literal kind text value span) rest →
        ReadsIn line kind text value span := by
  refine ⟨?_, ?_, ?_, ?_, ?_⟩
  · intro kind text
    rw [LiteralKind.exists_read_eq_ok_iff, LiteralKind.spells_iff]
  · intro text
    rw [isName_iff, isLexeme_iff]
  · intro kind text value read
    exact (LiteralKind.writes_of_read read).parse_eq_ok rfl
  · -- A name is written by the rule of variables, with the whole text as its range.
    intro text named
    have written := Writes.reference (isName_iff.mp named)
    rw [String.ofList_toList, byteLength_toList] at written
    exact written.parse_eq_ok rfl
  · intro line taken lexemes cut inner kind text value span rest matched
    exact readsIn_of_atom cut matched

/-- A minus sign belongs to the digits right behind it, and the name of a function is a name. -/
theorem leaf_readings_signed :
    ∃ value, LiteralKind.decimal.read "-0.5" = .ok value ∧ IsSignedDecimal "-0.5" ∧
      parse "-0.5" = .ok (.literal .decimal "-0.5" value ⟨0, 4⟩) ∧
      isName "sin" = true ∧ parse "sin" = .ok (.reference "sin" ⟨0, 3⟩) ∧
      ReadsIn "2 -0.5" .decimal "-0.5" value ⟨2, 4⟩ := by
  let value : Binary64 := .finite true ⟨1022 * blockSize, by decide⟩
  have read : LiteralKind.decimal.read "-0.5" = .ok value := by decide +kernel
  have named : isName "sin" = true := by decide +kernel
  obtain ⟨literals, _, literalLeaf, nameLeaf, within⟩ := leaf_readings
  have signed : IsSignedDecimal "-0.5" := by
    rcases (literals .decimal "-0.5").mp ⟨value, read⟩ with ⟨lexeme, single, _⟩ | ⟨_, signed⟩
    · -- The text has two lexemes.
      have two : (lexemesOf "-0.5").length = 2 := by decide +kernel
      simp [single] at two
    · exact signed
  have cut : lexemesOf "2 -0.5" = (lexemesOf "2 -0.5").take 1 ++ (lexemesOf "2 -0.5").drop 1 :=
    (List.take_append_drop 1 _).symm
  have matched : Grammar.atom none ((lexemesOf "2 -0.5").drop 1) =
      .matched (.literal .decimal "-0.5" value ⟨2, 4⟩) [] := by decide +kernel
  exact ⟨value, read, signed, literalLeaf _ _ _ read, named, nameLeaf _ named,
    within _ _ _ cut _ _ _ _ _ _ matched⟩

end Reckon
