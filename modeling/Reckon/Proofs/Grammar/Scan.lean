import Reckon.Proofs.Grammar.Derivation

/-! A scan from left to right that stops at the first lexeme with which no expression goes on. -/

namespace Reckon

/-- The kind and the text of a lexeme, which say all of it but where it stands. -/
def Lexeme.spelling (lexeme : Lexeme) : Option Token × String := (lexeme.token, lexeme.text)

/-- What has been scanned last, as far as the next lexeme depends on it. -/
inductive Expectation where
  /-- Nothing of an expression, which may be an assignment. -/
  | beginning
  /-- An operator or an equals sign. -/
  | operand
  /-- The minus sign of a literal. -/
  | digits
  /-- A name, which may stand at the beginning or be that of a function. -/
  | afterName (assignable callable : Bool)
  /-- Any other end of an operand. -/
  | afterOperand
  deriving DecidableEq

/-- A place in a line, with the levels that are open there. -/
structure Place where
  expectation : Expectation
  /-- The exponents that are open within the innermost open parentheses. -/
  exponents : Nat
  /-- The exponents that are open around each open parenthesis, the innermost first. -/
  outer : List Nat
  deriving DecidableEq

namespace Place

/-- The place before the first lexeme. -/
def start : Place := ⟨.beginning, 0, []⟩

/-- The number of parentheses and exponents that are open. -/
def levels (place : Place) : Nat :=
  place.exponents + place.outer.foldr (fun exponents levels => levels + exponents + 1) 0

/-- Whether an operand comes next. -/
def wantsOperand (place : Place) : Bool :=
  match place.expectation with
  | .beginning | .operand => true
  | _ => false

/-- Whether an operand has ended. -/
def isComplete (place : Place) : Bool :=
  match place.expectation with
  | .afterName .. | .afterOperand => true
  | _ => false

/-- Whether the name of a function has ended. -/
def isCallable (place : Place) : Bool :=
  match place.expectation with
  | .afterName _ callable => callable
  | _ => false

/-- Whether a name has ended that may be assigned to. -/
def isAssignable (place : Place) : Bool :=
  match place.expectation with
  | .afterName assignable _ => assignable
  | _ => false

/-- The place behind an operand of some form, if one may stand here. -/
def take? (place : Place) (expectation : Expectation) : Option Place :=
  if place.wantsOperand then some { place with expectation } else none

/-- The place behind an operator that ends all exponents, if an operator may stand here. -/
def fold? (place : Place) : Option Place :=
  if place.isComplete then some ⟨.operand, 0, place.outer⟩ else none

/-- The place behind a lexeme, if the lexeme may stand here and opens no level past the limit. -/
def advance? (limit : Nat) (place : Place) : Option Token × String → Option Place
  | (some .hexadecimal, _) | (some .binary, _) => place.take? .afterOperand
  | (some .decimal, _) =>
    if place.wantsOperand || place.expectation == .digits then
      some { place with expectation := .afterOperand }
    else none
  | (some .name, text) =>
    place.take? (.afterName (place.expectation == .beginning) (NamedFunction.called? text).isSome)
  -- Where an operand comes next a minus is a sign, and behind an operand it is an operator.
  | (some .minus, _) => if place.wantsOperand then place.take? .digits else place.fold?
  | (some .plus, _) | (some .star, _) | (some .slash, _) => place.fold?
  | (some .caret, _) =>
    if place.isComplete && place.levels < limit then
      some { place with expectation := .operand, exponents := place.exponents + 1 }
    else none
  | (some .equals, _) =>
    if place.isAssignable then some { place with expectation := .operand } else none
  -- The exponents around a parenthesis stay open until it is closed.
  | (some .leftParen, _) =>
    if (place.wantsOperand || place.isCallable) && place.levels < limit then
      some ⟨.beginning, 0, place.exponents :: place.outer⟩
    else none
  | (some .rightParen, _) =>
    match place.isComplete, place.outer with
    | true, exponents :: outer => some ⟨.afterOperand, exponents, outer⟩
    | _, _ => none
  -- A character that is no lexeme of any kind stands nowhere.
  | (none, _) => none

/-- The place behind some lexemes, if all of them may stand there. -/
def scan? (limit : Nat) (place : Place) (spellings : List (Option Token × String)) :
    Option Place :=
  spellings.foldlM (advance? limit) place

variable {limit : Nat} {place middle next : Place}

/-- Where an operand has ended none comes next. -/
theorem not_wantsOperand (complete : place.isComplete = true) :
    place.wantsOperand = false := by
  -- The expectations of the two kinds of places are apart.
  cases place with
  | mk expectation =>
    cases expectation with
    | beginning => contradiction
    | operand => contradiction
    | digits => contradiction
    | afterName => rfl
    | afterOperand => rfl

/-- The ways in which a lexeme leads from one place to the next. -/
inductive Step (limit : Nat) (place : Place) (lexeme : Lexeme) : Place → Prop where
  | literal (kind : LiteralKind) (token : lexeme.token = some kind.token)
      (fits : place.wantsOperand = true ∨ kind = .decimal ∧ place.expectation = .digits) :
      Step limit place lexeme ⟨.afterOperand, place.exponents, place.outer⟩
  | name (token : lexeme.token = some .name) (wants : place.wantsOperand = true) :
      Step limit place lexeme ⟨.afterName (place.expectation == .beginning)
        (NamedFunction.called? lexeme.text).isSome, place.exponents, place.outer⟩
  | sign (token : lexeme.token = some .minus) (wants : place.wantsOperand = true) :
      Step limit place lexeme ⟨.digits, place.exponents, place.outer⟩
  | operator (operator : Operator) (token : lexeme.token.bind Token.operator? = some operator)
      (loose : operator ≠ .power) (complete : place.isComplete = true) :
      Step limit place lexeme ⟨.operand, 0, place.outer⟩
  | caret (token : lexeme.token = some .caret) (complete : place.isComplete = true)
      (free : place.levels < limit) :
      Step limit place lexeme ⟨.operand, place.exponents + 1, place.outer⟩
  | equals (token : lexeme.token = some .equals) (assignable : place.isAssignable = true) :
      Step limit place lexeme ⟨.operand, place.exponents, place.outer⟩
  | opening (token : lexeme.token = some .leftParen)
      (fits : place.wantsOperand = true ∨ place.isCallable = true) (free : place.levels < limit) :
      Step limit place lexeme ⟨.beginning, 0, place.exponents :: place.outer⟩
  | closing {exponents : Nat} {outer : List Nat} (token : lexeme.token = some .rightParen)
      (complete : place.isComplete = true) (nested : place.outer = exponents :: outer) :
      Step limit place lexeme ⟨.afterOperand, exponents, outer⟩

/-- What is taken as an operand leads to where the operand has ended. -/
theorem take?_eq_some {expectation : Expectation}
    (taken : place.take? expectation = some next) :
    place.wantsOperand = true ∧ next = { place with expectation } := by
  unfold take? at taken
  split at taken
  · exact ⟨‹_›, (Option.some.inj taken).symm⟩
  · contradiction

/-- What is taken as an operator leads to an operand without exponents. -/
theorem fold?_eq_some (folded : place.fold? = some next) :
    place.isComplete = true ∧ next = ⟨.operand, 0, place.outer⟩ := by
  unfold fold? at folded
  split at folded
  · exact ⟨‹_›, (Option.some.inj folded).symm⟩
  · contradiction

/-- A lexeme that leads to the next place does so in one of the ways. -/
theorem step_of_advance? {lexeme : Lexeme}
    (advanced : place.advance? limit lexeme.spelling = some next) :
    Step limit place lexeme next := by
  -- The kind of the lexeme tells the way, and a minus has two of them.
  cases found : lexeme.token with
  | none => simp [Lexeme.spelling, found, advance?] at advanced
  | some kind =>
    cases kind <;> simp only [Lexeme.spelling, found, advance?] at advanced
    case hexadecimal =>
      obtain ⟨wants, rfl⟩ := take?_eq_some advanced
      exact .literal .hexadecimal found (.inl wants)
    case binary =>
      obtain ⟨wants, rfl⟩ := take?_eq_some advanced
      exact .literal .binary found (.inl wants)
    case decimal =>
      simp only [Option.ite_none_right_eq_some, Bool.or_eq_true, beq_iff_eq, Option.some.injEq]
        at advanced
      obtain ⟨fits, rfl⟩ := advanced
      exact .literal .decimal found (fits.imp_right fun sign => ⟨rfl, sign⟩)
    case name =>
      obtain ⟨wants, rfl⟩ := take?_eq_some advanced
      exact .name found wants
    case minus =>
      split at advanced
      · obtain ⟨wants, rfl⟩ := take?_eq_some advanced
        exact .sign found wants
      · obtain ⟨complete, rfl⟩ := fold?_eq_some advanced
        exact .operator .subtract (by rw [found]; rfl) (by decide) complete
    case plus =>
      obtain ⟨complete, rfl⟩ := fold?_eq_some advanced
      exact .operator .add (by rw [found]; rfl) (by decide) complete
    case star =>
      obtain ⟨complete, rfl⟩ := fold?_eq_some advanced
      exact .operator .multiply (by rw [found]; rfl) (by decide) complete
    case slash =>
      obtain ⟨complete, rfl⟩ := fold?_eq_some advanced
      exact .operator .divide (by rw [found]; rfl) (by decide) complete
    case caret =>
      simp only [Option.ite_none_right_eq_some, Bool.and_eq_true, decide_eq_true_eq,
        Option.some.injEq] at advanced
      obtain ⟨⟨complete, free⟩, rfl⟩ := advanced
      exact .caret found complete free
    case equals =>
      simp only [Option.ite_none_right_eq_some, Option.some.injEq] at advanced
      obtain ⟨assignable, rfl⟩ := advanced
      exact .equals found assignable
    case leftParen =>
      simp only [Option.ite_none_right_eq_some, Bool.and_eq_true, Bool.or_eq_true,
        decide_eq_true_eq, Option.some.injEq] at advanced
      obtain ⟨⟨fits, free⟩, rfl⟩ := advanced
      exact .opening found fits free
    case rightParen =>
      split at advanced
      · rename_i exponents outer complete nested
        obtain rfl := Option.some.inj advanced
        exact .closing found complete nested
      · contradiction

/-- Each of the ways leads from one place to the next. -/
theorem Step.advance? {lexeme : Lexeme} (step : Step limit place lexeme next) :
    place.advance? limit lexeme.spelling = some next := by
  -- What a way asks of the place is what is tested there.
  cases step with
  | literal kind token fits =>
    rcases fits with wants | ⟨rfl, sign⟩
    · cases kind <;>
        simp [Lexeme.spelling, token, LiteralKind.token, Place.advance?, take?, wants]
    · -- Only decimal literals follow a sign.
      simp [Lexeme.spelling, token, LiteralKind.token, Place.advance?, sign]
  | name token wants => simp [Lexeme.spelling, token, Place.advance?, take?, wants]
  | sign token wants => simp [Lexeme.spelling, token, Place.advance?, take?, wants]
  | operator operator token loose complete =>
    -- Behind an operand a minus is no sign.
    have occupied := not_wantsOperand complete
    obtain ⟨kind, found, writes⟩ := Option.bind_eq_some_iff.mp token
    cases kind <;> cases writes <;>
      simp [Lexeme.spelling, found, Place.advance?, fold?, complete, occupied] at loose ⊢
  | caret token complete free => simp [Lexeme.spelling, token, Place.advance?, complete, free]
  | equals token assignable => simp [Lexeme.spelling, token, Place.advance?, assignable]
  | opening token fits free => simp [Lexeme.spelling, token, Place.advance?, fits, free]
  | closing token complete nested =>
    simp [Lexeme.spelling, token, Place.advance?, complete, nested]

/-- The ways in which a lexeme leads from one place to the next are all that there are. -/
theorem advance?_eq_some_iff {lexeme : Lexeme} :
    place.advance? limit lexeme.spelling = some next ↔ Step limit place lexeme next :=
  ⟨step_of_advance?, Step.advance?⟩

/-- A step is taken under every higher limit too. -/
theorem Step.mono {lexeme : Lexeme} {larger : Nat} (step : Step limit place lexeme next)
    (bound : limit ≤ larger) : Step larger place lexeme next := by
  -- Only the lexemes that open a level look at the limit.
  cases step with
  | literal kind token fits => exact .literal kind token fits
  | name token wants => exact .name token wants
  | sign token wants => exact .sign token wants
  | operator operator token loose complete => exact .operator operator token loose complete
  | caret token complete free => exact .caret token complete (Nat.lt_of_lt_of_le free bound)
  | equals token assignable => exact .equals token assignable
  | opening token fits free => exact .opening token fits (Nat.lt_of_lt_of_le free bound)
  | closing token complete nested => exact .closing token complete nested

/-- An operand comes next only behind an equals sign, an operator or an opening parenthesis. -/
theorem Step.token_of_wantsOperand {lexeme : Lexeme} (step : Step limit place lexeme next)
    (wants : next.wantsOperand = true) :
    lexeme.token = some .equals ∨ (∃ operator, lexeme.token.bind Token.operator? = some operator) ∨
      lexeme.token = some .leftParen := by
  -- Every other way leads behind an operand or to the digits of a literal.
  cases step with
  | literal kind token fits => contradiction
  | name token own => contradiction
  | sign token own => contradiction
  | operator operator token loose complete => exact .inr (.inl ⟨operator, token⟩)
  | caret token complete free => exact .inr (.inl ⟨.power, by rw [token]; rfl⟩)
  | equals token assignable => exact .inl token
  | opening token fits free => exact .inr (.inr token)
  | closing token complete nested => contradiction

/-- Only the name of a function has its argument behind it. -/
theorem Step.called_of_isCallable {lexeme : Lexeme} (step : Step limit place lexeme next)
    (callable : next.isCallable = true) :
    lexeme.token = some .name ∧ (NamedFunction.called? lexeme.text).isSome = true := by
  -- No other way leads behind a name.
  cases step with
  | name token own => exact ⟨token, callable⟩
  | literal kind token fits => contradiction
  | sign token own => contradiction
  | operator operator token loose complete => contradiction
  | caret token complete free => contradiction
  | equals token assignable => contradiction
  | opening token fits free => contradiction
  | closing token complete nested => contradiction

/-- A parenthesis or an exponent opens a level, and one was free. -/
theorem Step.levels_lt {lexeme : Lexeme} (step : Step limit place lexeme next)
    (opens : lexeme.token = some .leftParen ∨ lexeme.token = some .caret) :
    place.levels < limit := by
  cases step with
  | caret token complete free => exact free
  | opening token fits free => exact free
  | literal kind token fits => cases kind <;> simp [token, LiteralKind.token] at opens
  | name token own => simp [token] at opens
  | sign token own => simp [token] at opens
  | operator operator token loose complete =>
    -- A caret writes the operator that is left out here.
    rcases opens with left | caret
    · simp [left, Token.operator?] at token
    · simp [caret, Token.operator?] at token
      exact absurd token.symm loose
  | equals token assignable => simp [token] at opens
  | closing token complete nested => simp [token] at opens

/-- Behind an operand there is no equals sign, no opening parenthesis and no operator. -/
theorem Step.not_opening {lexeme : Lexeme}
    (step : Step limit place lexeme next) (complete : next.isComplete = true) :
    lexeme.token ≠ some .equals ∧ lexeme.token ≠ some .leftParen ∧
      ∀ operator, lexeme.token.bind Token.operator? ≠ some operator := by
  -- An operand ends with a literal, a name or a closing parenthesis.
  cases step with
  | literal kind token fits => cases kind <;> simp [token, LiteralKind.token, Token.operator?]
  | name token own => simp [token, Token.operator?]
  | sign token own => contradiction
  | operator operator token loose own => contradiction
  | caret token own free => contradiction
  | equals token assignable => contradiction
  | opening token fits free => contradiction
  | closing token own nested => simp [token, Token.operator?]

/-- An opening parenthesis leads to the beginning of an expression inside of it. -/
theorem Step.eq_of_leftParen {lexeme : Lexeme}
    (step : Step limit place lexeme next) (left : lexeme.token = some .leftParen) :
    next = ⟨.beginning, 0, place.exponents :: place.outer⟩ := by
  -- Only one way is that of an opening parenthesis.
  cases step with
  | opening token fits free => rfl
  | literal kind token fits => cases kind <;> simp [left, LiteralKind.token] at token
  | name token own => simp [left] at token
  | sign token own => simp [left] at token
  | operator operator token loose own => simp [left, Token.operator?] at token
  | caret token own free => simp [left] at token
  | equals token assignable => simp [left] at token
  | closing token own nested => simp [left] at token

/-- Behind a name everything but the expectation is as in front of it. -/
theorem Step.eq_of_name {lexeme : Lexeme}
    (step : Step limit place lexeme next) (named : lexeme.token = some .name) :
    next = ⟨.afterName (place.expectation == .beginning)
      (NamedFunction.called? lexeme.text).isSome, place.exponents, place.outer⟩ := by
  -- Only one way is that of a name.
  cases step with
  | name token wants => rfl
  | literal kind token fits => cases kind <;> simp [named, LiteralKind.token] at token
  | sign token own => simp [named] at token
  | operator operator token loose own => simp [named, Token.operator?] at token
  | caret token own free => simp [named] at token
  | equals token assignable => simp [named] at token
  | opening token fits free => simp [named] at token
  | closing token own nested => simp [named] at token

/-- An equals sign stands only where a name has ended that may be assigned to. -/
theorem Step.isAssignable {lexeme : Lexeme}
    (step : Step limit place lexeme next) (assigns : lexeme.token = some .equals) :
    place.isAssignable = true := by
  -- Only one way is that of an equals sign.
  cases step with
  | equals token assignable => exact assignable
  | literal kind token fits => cases kind <;> simp [assigns, LiteralKind.token] at token
  | name token own => simp [assigns] at token
  | sign token own => simp [assigns] at token
  | operator operator token loose own => simp [assigns, Token.operator?] at token
  | caret token own free => simp [assigns] at token
  | opening token fits free => simp [assigns] at token
  | closing token own nested => simp [assigns] at token

/-- A scan of some lexemes leads from one place to another. -/
def Reaches (limit : Nat) (place : Place) (lexemes : List Lexeme) (next : Place) : Prop :=
  place.scan? limit (lexemes.map Lexeme.spelling) = some next

/-- No lexemes lead nowhere else. -/
theorem reaches_nil : Reaches limit place [] place := rfl

/-- A scan takes one step and goes on behind it. -/
theorem reaches_cons {first : Lexeme} {others : List Lexeme} :
    Reaches limit place (first :: others) next ↔
      ∃ middle, Step limit place first middle ∧ Reaches limit middle others next := by
  -- A scan fails where one of its steps does.
  simp only [Reaches, scan?, List.map_cons, List.foldlM_cons, ← advance?_eq_some_iff]
  exact Option.bind_eq_some_iff

/-- A scan of one lexeme is a step. -/
theorem reaches_singleton {lexeme : Lexeme} :
    Reaches limit place [lexeme] next ↔ Step limit place lexeme next := by
  -- Behind the one step nothing is left to be scanned.
  rw [reaches_cons]
  constructor
  · intro scanned
    obtain ⟨middle, step, nothing⟩ := scanned
    obtain rfl := Option.some.inj nothing
    exact step
  · intro step
    exact ⟨next, step, reaches_nil⟩

/-- Lexemes are scanned part by part. -/
theorem reaches_append {before after : List Lexeme} :
    Reaches limit place (before ++ after) next ↔
      ∃ middle, Reaches limit place before middle ∧ Reaches limit middle after next := by
  simp only [Reaches, scan?, List.map_append, List.foldlM_append]
  exact Option.bind_eq_some_iff

/-- Scans in a row are a scan. -/
theorem Reaches.append {before after : List Lexeme} (first : Reaches limit place before middle)
    (second : Reaches limit middle after next) : Reaches limit place (before ++ after) next :=
  reaches_append.mpr ⟨middle, first, second⟩

/-- A scan leads to one place only. -/
theorem Reaches.unique {lexemes : List Lexeme} {other : Place}
    (first : Reaches limit place lexemes next) (second : Reaches limit place lexemes other) :
    next = other :=
  Option.some.inj (first.symm.trans second)

/-- A scan goes through under every higher limit too. -/
theorem Reaches.mono {lexemes : List Lexeme} {larger : Nat}
    (scanned : Reaches limit place lexemes next) (bound : limit ≤ larger) :
    Reaches larger place lexemes next := by
  -- Each step of the scan goes through, so the induction is on the lexemes.
  induction lexemes generalizing place with
  | nil => exact scanned
  | cons first others ih =>
    obtain ⟨middle, step, later⟩ := reaches_cons.mp scanned
    exact reaches_cons.mpr ⟨middle, step.mono bound, ih later⟩

/-- The levels behind an opening parenthesis are one more than those in front of it. -/
theorem levels_opening (expectation : Expectation) (place : Place) :
    levels ⟨expectation, 0, place.exponents :: place.outer⟩ = place.levels + 1 := by
  simp only [levels, List.foldr_cons]
  omega

/-- The levels behind a caret are one more than those in front of it. -/
theorem levels_caret (expectation : Expectation) (place : Place) :
    levels ⟨expectation, place.exponents + 1, place.outer⟩ = place.levels + 1 := by
  simp only [levels]
  omega

end Place

end Reckon
