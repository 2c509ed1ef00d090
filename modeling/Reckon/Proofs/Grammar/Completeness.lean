import Reckon.Proofs.Grammar.Passage
import Reckon.Proofs.LiteralText

/-! What the grammar derives is matched, where the lexemes behind it do not go on with it. -/

namespace Reckon

namespace Grammar

/-- A matcher one level deeper, if a level is free. -/
def within (matcher : (free : Nat) → Matcher) : (free : Nat) → Option Matcher
  | 0 => none
  | free + 1 => some (matcher free)

/-- A power, whose parentheses and exponent go one level deeper. -/
theorem power_eq (free : Nat) (lexemes : List Lexeme) :
    power free lexemes =
      (signedAtom (within expression free) lexemes).andThen fun base rest =>
        match take? .caret rest with
        | none => .matched base rest
        | some (_, rest) =>
          (deeper .powerExpression (within power free) rest).andThen fun exponent rest =>
            .matched (operation base .power exponent) rest := by
  -- A level is free exactly where there is one less to go on with.
  cases free with
  | zero => rfl
  | succ free => rfl

/-- The first lexeme is taken when it is of the kind that is asked for. -/
theorem take?_cons {token : Token} {lexeme : Lexeme} (found : lexeme.token = some token)
    (rest : List Lexeme) : take? token (lexeme :: rest) = some (lexeme, rest) := by
  simp [take?, Lexeme.isToken, found]

/-- Nothing is taken when the first lexeme is of another kind. -/
theorem take?_eq_none_iff {token : Token} {lexemes : List Lexeme} :
    take? token lexemes = none ↔ ∀ next ∈ lexemes.head?, next.token ≠ some token := by
  cases lexemes with
  | nil => simp [take?]
  | cons lexeme rest => simp [take?, Lexeme.isToken]

/-- An operator is found when the first lexeme writes one of those accepted. -/
theorem operator?_cons {accepted : List Operator} {operator : Operator} {sign : Lexeme}
    (token : sign.token.bind Token.operator? = some operator) (among : operator ∈ accepted)
    (rest : List Lexeme) : operator? accepted (sign :: rest) = some (operator, rest) := by
  simp [Grammar.operator?, token, among]

/-- No operator is found when the first lexeme writes none of those accepted. -/
theorem operator?_eq_none_iff {accepted : List Operator} {lexemes : List Lexeme} :
    operator? accepted lexemes = none ↔ ∀ next ∈ lexemes.head?, ∀ operator ∈ accepted,
      next.token.bind Token.operator? ≠ some operator := by
  cases lexemes with
  | nil => simp [Grammar.operator?]
  | cons lexeme rest =>
    simp only [Grammar.operator?, Option.map_eq_none_iff, Option.filter_eq_none_iff,
      List.contains_iff_mem, List.head?_cons, Option.mem_def, Option.some.injEq]
    -- The first lexeme is the only one that is looked at.
    constructor
    · intro refused next same operator among found
      subst same
      exact refused operator found among
    · intro refused operator found among
      exact refused lexeme rfl operator among found

/-- Operands in a row end where no operator that joins them follows. -/
theorem chainFrom_ends {accepted : List Operator} {rest : List Lexeme}
    (ends : operator? accepted rest = none) (operand : Matcher) (rounds : Nat) (left : Expr) :
    chainFrom accepted operand rounds left rest = .matched left rest := by
  -- It does not matter how many rounds are left.
  cases rounds with
  | zero => rfl
  | succ rounds => simp [chainFrom, ends]

/-- A decimal literal right behind a minus belongs to it. -/
theorem gluedDecimal?_cons {minus digits : Lexeme} (token : digits.token = some .decimal)
    (glued : digits.span.offset = minus.span.stop) (rest : List Lexeme) :
    gluedDecimal? minus (digits :: rest) = some (digits, rest) := by
  simp [gluedDecimal?, take?_cons token, Option.filter, glued]

end Grammar

namespace Rule

/-- The operators of the layer that a rule is, and those of the layers below it. -/
def operators : Rule → List Operator
  | .expression | .assignment | .algebraicExpression => Operator.all
  | .multiplyingExpression => [.multiply, .divide, .power]
  | .powerExpression => [.power]
  | _ => []

/-- The matcher that a rule is tried with, if it may open a number of levels. -/
def matcher (free : Nat) : Rule → Matcher
  | .algebraicExpression => Grammar.additive free
  | .multiplyingExpression => Grammar.multiplicative free
  | .powerExpression => Grammar.power free
  | .signedAtom | .functionExpression => Grammar.signedAtom (Grammar.within Grammar.expression free)
  | .atom | .number | .hexLiteral | .binaryLiteral | .decimalLiteral | .reference =>
    Grammar.atom (Grammar.within Grammar.expression free)
  | .parenthesized => Grammar.parenthesized (Grammar.within Grammar.expression free)
  | _ => Grammar.expression free

end Rule

/-- Lexemes that do not go on with what a rule has derived in front of them. -/
structure Ends (rule : Rule) (rest : List Lexeme) : Prop where
  noParenthesis : ∀ next ∈ rest.head?, next.token ≠ some .leftParen
  noEquals : ∀ next ∈ rest.head?, next.token ≠ some .equals
  noOperator : ∀ next ∈ rest.head?, ∀ operator ∈ rule.operators,
    next.token.bind Token.operator? ≠ some operator

/-- What does not go on with a rule does not go on with its alternatives. -/
theorem Ends.alternative {rule part : Rule} {rest : List Lexeme} (ends : Ends rule rest)
    (listed : part ∈ rule.alternatives) : Ends part rest := by
  refine ⟨ends.noParenthesis, ends.noEquals, ?_⟩
  intro next isNext operator among
  apply ends.noOperator next isNext operator
  -- The layers below a layer have fewer operators.
  cases rule <;> simp [Rule.alternatives] at listed
  case expression => rcases listed with rfl | rfl <;> exact among
  case algebraicExpression => cases operator <;> decide
  case multiplyingExpression =>
    subst listed
    simp only [Rule.operators, List.mem_cons, List.not_mem_nil] at among ⊢
    exact .inr (.inr among)
  all_goals
    rcases listed with rfl | rfl | rfl
    all_goals contradiction

/-- An operator of a looser layer does not go on with what a rule has derived. -/
theorem ends_operator {rule : Rule} {sign : Lexeme} {operator : Operator}
    (token : sign.token.bind Token.operator? = some operator)
    (loose : operator ∉ rule.operators) (rest : List Lexeme) : Ends rule (sign :: rest) := by
  -- A kind that writes an operator is neither a parenthesis nor an equals sign.
  obtain ⟨kind, found, writes⟩ := Option.bind_eq_some_iff.mp token
  refine ⟨?_, ?_, ?_⟩
  · simp only [List.head?_cons, Option.mem_def, Option.some.injEq, forall_eq', found]
    intro parenthesis
    cases parenthesis
    contradiction
  · simp only [List.head?_cons, Option.mem_def, Option.some.injEq, forall_eq', found]
    intro equals
    cases equals
    contradiction
  · simp only [List.head?_cons, Option.mem_def, Option.some.injEq, forall_eq', token]
    intro other among same
    exact loose (Option.some.inj same ▸ among)

/-- What holds of a rule that folds operands of another one. -/
structure Rule.Folds (rule operand : Rule) (accepted : List Operator) : Prop where
  alternatives_eq : rule.alternatives = [operand]
  operators_eq : rule.operators = accepted ++ operand.operators
  /-- The operators of the layer are none of those below, among which powers are. -/
  loose : ∀ operator ∈ accepted, operator ∉ operand.operators ∧ operator ≠ .power
  /-- An expression folds nothing, and neither do the operands of a fold start one. -/
  inner : rule ≠ .expression ∧ operand ≠ .expression
  matcher_eq : ∀ free, rule.matcher free = Grammar.chain accepted (operand.matcher free)

/-- There are two layers of rules that fold operands. -/
theorem Rule.folds_of_layer? {rule operand : Rule} {accepted : List Operator}
    (layer : rule.layer? = some (accepted, operand)) : rule.Folds operand accepted := by
  -- Only sums and products are layers.
  cases rule <;> simp only [Rule.layer?, Option.some.injEq, Prod.mk.injEq, reduceCtorEq] at layer
  · obtain ⟨rfl, rfl⟩ := layer
    exact ⟨rfl, rfl, by decide, by decide, fun _ => rfl⟩
  · obtain ⟨rfl, rfl⟩ := layer
    exact ⟨rfl, rfl, by decide, by decide, fun _ => rfl⟩

/--
Matching a rule takes some lexemes as a tree.

A rule that folds operands may still go on to fold others onto the tree.
-/
def Rule.Accepts (free : Nat) (rule : Rule) (lexemes : List Lexeme) (tree : Expr) : Prop :=
  match rule.layer? with
  | some (accepted, operand) =>
    ∀ rest, Ends operand rest → ∃ rounds, rest.length ≤ rounds ∧
      rule.matcher free (lexemes ++ rest) =
        Grammar.chainFrom accepted (operand.matcher free) rounds tree rest
  | none => ∀ rest, Ends rule rest → rule.matcher free (lexemes ++ rest) = .matched tree rest

/-- What a rule takes is all that it matches, where the lexemes behind do not go on with it. -/
theorem Rule.Accepts.matched {free : Nat} {rule : Rule} {lexemes rest : List Lexeme}
    {tree : Expr} (accepts : rule.Accepts free lexemes tree) (ends : Ends rule rest) :
    rule.matcher free (lexemes ++ rest) = .matched tree rest := by
  cases layer : rule.layer? with
  -- A rule that folds nothing takes what it matches.
  | none =>
    simp only [Rule.Accepts, layer] at accepts
    exact accepts rest ends
  | some folded =>
    obtain ⟨accepted, operand⟩ := folded
    simp only [Rule.Accepts, layer] at accepts
    have folds := Rule.folds_of_layer? layer
    obtain ⟨rounds, _, same⟩ := accepts rest (ends.alternative (by simp [folds.alternatives_eq]))
    -- No operator of the layer follows, so the chain is at its end.
    have nothing : Grammar.operator? accepted rest = none := by
      rw [Grammar.operator?_eq_none_iff]
      intro next isNext operator among
      exact ends.noOperator next isNext operator (by simp [folds.operators_eq, among])
    rw [same, Grammar.chainFrom_ends nothing]

/-- What an atom is derived from does not call a function. -/
theorem Derives.not_called {rule : Rule} {lexemes : List Lexeme} {tree : Expr}
    (derived : Derives rule lexemes tree)
    (isAtom : rule ∈ [.atom, .number, .hexLiteral, .binaryLiteral, .decimalLiteral, .reference,
      .parenthesized]) {rest : List Lexeme}
    (behind : ∀ next ∈ rest.head?, next.token ≠ some .leftParen) :
    Grammar.called? (lexemes ++ rest) = none := by
  -- Only a variable starts with a name, and nothing opens a parenthesis behind it.
  have others : ∀ (first : Lexeme) (lexemes : List Lexeme), first.token ≠ some .name →
      Grammar.called? (first :: lexemes) = none := by
    intro first lexemes different
    cases lexemes with
    | nil => rfl
    | cons second lexemes => simp [Grammar.called?, Lexeme.isToken, different]
  induction derived with
  | @alternative rule part lexemes tree listed derived ih =>
    apply ih
    cases rule <;> simp [Rule.alternatives] at listed isAtom
    case atom => rcases listed with rfl | rfl | rfl <;> decide
    case number => rcases listed with rfl | rfl | rfl <;> decide
  | @literal kind rule lexeme value named token read =>
    exact others lexeme rest (by cases kind <;> simp [token, LiteralKind.token])
  | @signed minus digits value sign token glued read =>
    exact others minus _ (by simp [sign])
  | @reference name token =>
    cases rest with
    | nil => rfl
    | cons next rest =>
      have closed := behind next rfl
      simp [Grammar.called?, Lexeme.isToken, closed]
  | @parenthesized opening closing inner tree left derived right ih =>
    exact others opening _ (by simp [left])
  | call token keyword derived ih => simp at isAtom
  | power leftDerived token rightDerived leftIh rightIh => simp at isAtom
  | @fold rule operand accepted operator sign former latter left right layer leftDerived token
      among rightDerived leftIh rightIh =>
    cases rule <;> simp [Rule.layer?] at layer isAtom
  | assignment target token derived ih => simp at isAtom

/-- What a sum is derived from is not matched as an assignment. -/
theorem Derives.not_assigned {lexemes : List Lexeme} {tree : Expr}
    (derived : Derives .algebraicExpression lexemes tree) {rest : List Lexeme}
    (behind : ∀ next ∈ rest.head?, next.token ≠ some .equals) (power : Matcher) :
    Grammar.assignmentOver? power (lexemes ++ rest) = none := by
  match lexemes with
  | [] => exact absurd rfl derived.ne_nil
  | [only] =>
    -- A variable by itself is not assigned to, as no equals sign follows.
    cases rest with
    | nil => rfl
    | cons next rest =>
      have other := behind next rfl
      simp [Grammar.assignmentOver?, Lexeme.isToken, other]
  | name :: equals :: others =>
    have other := derived.not_assigning
    simpa [Grammar.assignmentOver?, Lexeme.isToken] using other

/-- A literal that is read as a value is the tree with that value. -/
theorem Grammar.literal_eq {kind : LiteralKind} {text : String} {value : Binary64}
    (read : kind.read text = .ok value) (span : Span) :
    Grammar.literal kind text span = .literal kind text value span := by
  rw [Grammar.literal, LiteralKind.read_eq_ok.mp read, Option.getD_some]

/-- An operation on two trees stands where the lexemes of both and what is between them do. -/
theorem operation_eq {leftRule rightRule : Rule} {former latter : List Lexeme}
    (between : List Lexeme) {left right : Expr} (leftDerived : Derives leftRule former left)
    (rightDerived : Derives rightRule latter right)
    (ordered : Ordered (former ++ (between ++ latter))) (operator : Operator) :
    Grammar.operation left operator right =
      .operation left operator right (extent (former ++ (between ++ latter))) := by
  rw [Grammar.operation, leftDerived.span_eq, rightDerived.span_eq,
    cover_extent ordered leftDerived.ne_nil rightDerived.ne_nil]

/-- A closing parenthesis goes on with nothing that has been derived. -/
theorem ends_closing {closing : Lexeme} (token : closing.token = some .rightParen) (rule : Rule)
    (rest : List Lexeme) : Ends rule (closing :: rest) := by
  -- It is of none of the kinds that go on.
  refine ⟨?_, ?_, ?_⟩
  · simp [token]
  · simp [token]
  · simp [token, Token.operator?]

/-- What stands between parentheses starts with one. -/
theorem Derives.starts_parenthesized {lexemes : List Lexeme} {tree : Expr}
    (derived : Derives .parenthesized lexemes tree) :
    ∃ opening rest, lexemes = opening :: rest ∧ opening.token = some .leftParen := by
  cases derived with
  | alternative listed derived => contradiction
  | @literal kind _ lexeme value named token read => cases kind <;> contradiction
  | @parenthesized opening closing inner tree left derived right => exact ⟨opening, _, rfl, left⟩
  | fold layer leftDerived token among rightDerived => contradiction

/-- A literal is matched as the tree of its lexeme. -/
theorem Grammar.atom_literal {kind : LiteralKind} {lexeme : Lexeme} {value : Binary64}
    (token : lexeme.token = some kind.token) (read : kind.read lexeme.text = .ok value)
    (inner : Option Matcher) (rest : List Lexeme) :
    atom inner (lexeme :: rest) = .matched (.literal kind lexeme.text value lexeme.span) rest := by
  -- The lexeme of a literal is taken as it stands, whichever kind it is.
  rw [← literal_eq read]
  cases kind with
  | decimal => simp [atom, token, LiteralKind.token]
  | hexadecimal => simp [atom, token, LiteralKind.token]
  | binary => simp [atom, token, LiteralKind.token]

/-- What an alternative matches, a rule that folds nothing matches. -/
theorem Derives.matcher_eq {rule part : Rule} (listed : part ∈ rule.alternatives)
    (layer : rule.layer? = none) {lexemes rest : List Lexeme} {tree : Expr}
    (derived : Derives part lexemes tree) (ends : Ends rule rest) {free : Nat}
    (matched : part.matcher free (lexemes ++ rest) = .matched tree rest) :
    rule.matcher free (lexemes ++ rest) = .matched tree rest := by
  cases rule <;> simp [Rule.alternatives, Rule.layer?] at listed layer
  case expression =>
    rcases listed with rfl | rfl
    · exact matched
    · -- A sum is tried where there is no assignment.
      show Grammar.expressionOver _ _ = _
      rw [Grammar.expressionOver, derived.not_assigned ends.noEquals]
      exact matched
  case powerExpression =>
    subst listed
    have noCaret : Grammar.take? .caret rest = none := by
      rw [Grammar.take?_eq_none_iff]
      intro next isNext caret
      exact ends.noOperator next isNext .power (by decide) (by simp [caret, Token.operator?])
    -- Without a caret behind it the base is all of the power.
    change Grammar.signedAtom _ _ = _ at matched
    show Grammar.power _ _ = _
    rw [Grammar.power_eq, matched]
    simp [Outcome.andThen, noCaret]
  case signedAtom =>
    rcases listed with rfl | rfl
    · exact matched
    · -- An atom is tried where no function is called.
      show Grammar.signedAtom _ _ = _
      rw [Grammar.signedAtom, derived.not_called (by simp) ends.noParenthesis]
      exact matched
  case atom =>
    rcases listed with rfl | rfl | rfl
    · exact matched
    · exact matched
    · -- An atom is tried between parentheses when it starts with one.
      obtain ⟨opening, others, rfl, token⟩ := derived.starts_parenthesized
      simpa [Rule.matcher, Grammar.atom, token] using matched
  case number => rcases listed with rfl | rfl | rfl <;> exact matched

section Accepts

variable {free : Nat} {tree left right : Expr}

/-- A literal is taken as an atom. -/
theorem accepts_literal (free : Nat) {kind : LiteralKind} {lexeme : Lexeme} {value : Binary64}
    (token : lexeme.token = some kind.token) (read : kind.read lexeme.text = .ok value) :
    kind.rule.Accepts free [lexeme] (.literal kind lexeme.text value lexeme.span) := by
  -- The rule of every kind of literal is matched as an atom.
  cases kind with
  | decimal => exact fun rest ends => Grammar.atom_literal token read _ rest
  | hexadecimal => exact fun rest ends => Grammar.atom_literal token read _ rest
  | binary => exact fun rest ends => Grammar.atom_literal token read _ rest

/-- A minus is taken with the decimal literal right behind it. -/
theorem accepts_signed (free : Nat) {minus digits : Lexeme} {value : Binary64}
    (sign : minus.token = some .minus) (token : digits.token = some .decimal)
    (glued : digits.span.offset = minus.span.stop)
    (read : LiteralKind.decimal.read (minus.text ++ digits.text) = .ok value)
    (ordered : Ordered [minus, digits]) :
    Rule.decimalLiteral.Accepts free [minus, digits]
      (.literal .decimal (minus.text ++ digits.text) value (extent [minus, digits])) := by
  intro rest ends
  -- The range of the literal reaches from the sign to the end of the digits.
  have cover : minus.span.cover digits.span = extent [minus, digits] :=
    extent_singleton digits ▸ cover_extent_cons [] ordered (by simp)
  simp [Rule.matcher, Grammar.atom, sign, Grammar.gluedDecimal?_cons token glued,
    Grammar.literal_eq read, cover]

/-- An expression is taken between parentheses with one level less. -/
theorem accepts_parenthesized {opening closing : Lexeme} {inner : List Lexeme}
    (token : opening.token = some .leftParen) (right : closing.token = some .rightParen)
    (ordered : Ordered (opening :: (inner ++ [closing])))
    (accepts : Rule.expression.Accepts free inner tree) :
    Rule.parenthesized.Accepts (free + 1) (opening :: (inner ++ [closing]))
      (.parenthesized tree (extent (opening :: (inner ++ [closing])))) := by
  intro rest ends
  -- The closing parenthesis ends the expression, which is matched with one level less.
  have matched : Grammar.expression free (inner ++ closing :: rest) =
      .matched tree (closing :: rest) :=
    accepts.matched (ends_closing right .expression rest)
  have cover := cover_extent_cons inner ordered (by simp)
  rw [extent_singleton] at cover
  simp [Rule.matcher, Grammar.parenthesized, Grammar.take?_cons token, Grammar.take?_cons right,
    Grammar.deeper, Grammar.within, matched, Outcome.inLevel, Outcome.andThen, cover]

/-- An argument in parentheses is taken behind the name of a function. -/
theorem accepts_call {name : Lexeme} {function : NamedFunction} {argument : List Lexeme}
    (token : name.token = some .name) (keyword : name.text = function.keyword)
    (derived : Derives .parenthesized argument tree) (ordered : Ordered (name :: argument))
    (accepts : Rule.parenthesized.Accepts free argument tree) :
    Rule.functionExpression.Accepts free (name :: argument)
      (.call function tree (extent (name :: argument))) := by
  intro rest ends
  have matched : Grammar.parenthesized (Grammar.within Grammar.expression free)
      (argument ++ rest) = .matched tree rest :=
    accepts.matched ⟨ends.noParenthesis, ends.noEquals, ends.noOperator⟩
  have cover : name.span.cover (extent argument) = extent (name :: argument) :=
    cover_extent_cons [] ordered derived.ne_nil
  -- The parenthesis behind the name makes it a call.
  have called : Grammar.called? (name :: argument ++ rest) =
      some (function, name, argument ++ rest) := by
    obtain ⟨opening, others, rfl, left⟩ := derived.starts_parenthesized
    simp [Grammar.called?, Lexeme.isToken, token, left, keyword, NamedFunction.called?_keyword]
  show Grammar.signedAtom _ _ = _
  rw [Grammar.signedAtom, called]
  simp [matched, Outcome.andThen, derived.span_eq, cover]

/-- A power is taken as the exponent of its base, with one level less. -/
theorem accepts_power {caret : Lexeme} {base exponent : List Lexeme}
    (leftDerived : Derives .signedAtom base left) (token : caret.token = some .caret)
    (rightDerived : Derives .powerExpression exponent right)
    (ordered : Ordered (base ++ caret :: exponent))
    (leftAccepts : Rule.signedAtom.Accepts (free + 1) base left)
    (rightAccepts : Rule.powerExpression.Accepts free exponent right) :
    Rule.powerExpression.Accepts (free + 1) (base ++ caret :: exponent)
      (.operation left .power right (extent (base ++ caret :: exponent))) := by
  intro rest ends
  have sign : caret.token.bind Token.operator? = some .power := by
    rw [token]
    rfl
  -- A caret ends the base as any operator does.
  have baseMatched : Grammar.signedAtom (Grammar.within Grammar.expression (free + 1))
      (base ++ (caret :: exponent ++ rest)) = .matched left (caret :: exponent ++ rest) :=
    leftAccepts.matched (ends_operator sign (by decide) _)
  -- The exponent ends where the whole power does, and has one level less.
  have exponentMatched : Grammar.power free (exponent ++ rest) = .matched right rest :=
    rightAccepts.matched ends
  have whole := operation_eq [caret] leftDerived rightDerived ordered .power
  show Grammar.power _ _ = _
  rw [List.append_assoc, Grammar.power_eq, baseMatched]
  simp only [Outcome.andThen, List.cons_append, Grammar.take?_cons token, Grammar.deeper,
    Grammar.within, exponentMatched, Outcome.inLevel, whole, List.nil_append]

/-- One more operand is taken by one round of a fold. -/
theorem accepts_fold {rule operand : Rule} {accepted : List Operator} {operator : Operator}
    {sign : Lexeme} {former latter : List Lexeme}
    (layer : rule.layer? = some (accepted, operand)) (leftDerived : Derives rule former left)
    (token : sign.token.bind Token.operator? = some operator) (among : operator ∈ accepted)
    (rightDerived : Derives operand latter right) (ordered : Ordered (former ++ sign :: latter))
    (leftAccepts : rule.Accepts free former left)
    (rightAccepts : operand.Accepts free latter right) :
    rule.Accepts free (former ++ sign :: latter)
      (.operation left operator right (extent (former ++ sign :: latter))) := by
  simp only [Rule.Accepts, layer] at leftAccepts ⊢
  intro rest ends
  -- The operator does not go on with the left operand, so the chain comes to it.
  obtain ⟨rounds, enough, same⟩ := leftAccepts (sign :: latter ++ rest)
    (ends_operator token ((Rule.folds_of_layer? layer).loose operator among).1 _)
  simp only [List.length_append, List.length_cons] at enough
  obtain ⟨fewer, rfl⟩ : ∃ fewer, rounds = fewer + 1 := ⟨rounds - 1, by omega⟩
  refine ⟨fewer, by omega, ?_⟩
  have whole := operation_eq [sign] leftDerived rightDerived ordered operator
  rw [List.append_assoc, same, Grammar.chainFrom, List.cons_append,
    Grammar.operator?_cons token among]
  simp only [rightAccepts.matched ends, Outcome.andThen, whole, List.singleton_append]

/-- A sum is taken as the value of an assignment. -/
theorem accepts_assignment {name equals : Lexeme} {lexemes : List Lexeme}
    (target : name.token = some .name) (token : equals.token = some .equals)
    (derived : Derives .algebraicExpression lexemes tree)
    (ordered : Ordered (name :: equals :: lexemes))
    (accepts : Rule.algebraicExpression.Accepts free lexemes tree) :
    Rule.assignment.Accepts free (name :: equals :: lexemes)
      (.assignment ⟨name.text, name.span⟩ tree (extent (name :: equals :: lexemes))) := by
  intro rest ends
  -- What ends an assignment ends the sum that is its value.
  have matched : Grammar.additiveOver (Grammar.power free) (lexemes ++ rest) =
      .matched tree rest :=
    accepts.matched ⟨ends.noParenthesis, ends.noEquals, ends.noOperator⟩
  have cover : name.span.cover (extent lexemes) = extent (name :: equals :: lexemes) :=
    cover_extent_cons [equals] ordered derived.ne_nil
  show Grammar.expressionOver _ _ = _
  simp [Grammar.expressionOver, Grammar.assignmentOver?, Lexeme.isToken, target, token, matched,
    Outcome.andThen, derived.span_eq, cover]

/-- What an alternative takes is taken by the rule. -/
theorem accepts_alternative {rule part : Rule} {lexemes : List Lexeme}
    (listed : part ∈ rule.alternatives) (derived : Derives part lexemes tree)
    (accepts : part.Accepts free lexemes tree) : rule.Accepts free lexemes tree := by
  cases layer : rule.layer? with
  | some folded =>
    obtain ⟨accepted, operand⟩ := folded
    have folds := Rule.folds_of_layer? layer
    -- The first operand is what a chain starts with, and all of its rounds are left.
    obtain rfl : part = operand := by simpa [folds.alternatives_eq] using listed
    simp only [Rule.Accepts, layer]
    intro rest ends
    refine ⟨rest.length, Nat.le_refl _, ?_⟩
    rw [folds.matcher_eq free, Grammar.chain, accepts.matched ends]
    rfl
  | none =>
    simp only [Rule.Accepts, layer]
    intro rest ends
    exact derived.matcher_eq listed layer ends (accepts.matched (ends.alternative listed))

end Accepts

/-- What a rule derives is taken by matching the rule with enough levels free. -/
theorem Derives.accepts {rule : Rule} {lexemes : List Lexeme} {tree : Expr}
    (derived : Derives rule lexemes tree) (ordered : Ordered lexemes) :
    ∀ free, tree.nest ≤ free → rule.Accepts free lexemes tree := by
  -- The induction follows the derivation, with the levels that are free as a parameter.
  induction derived with
  | alternative listed derived ih =>
    intro free bound
    exact accepts_alternative listed derived (ih ordered free bound)
  | literal named token read =>
    intro free bound
    exact named ▸ accepts_literal free token read
  | signed sign token glued read =>
    intro free bound
    exact accepts_signed free sign token glued read ordered
  | @reference name token =>
    intro free bound rest ends
    simp [Rule.matcher, Grammar.atom, token]
  | parenthesized left derived right ih =>
    intro free bound
    simp only [Expr.nest] at bound
    -- A level is free for what is between the parentheses.
    obtain ⟨lower, rfl⟩ : ∃ lower, free = lower + 1 := ⟨free - 1, by omega⟩
    have inner := ih (ordered.sublist (by simp)) lower (by omega)
    exact accepts_parenthesized left right ordered inner
  | call token keyword derived ih =>
    intro free bound
    have argument := ih (ordered.sublist (by simp)) free bound
    exact accepts_call token keyword derived ordered argument
  | power leftDerived token rightDerived leftIh rightIh =>
    intro free bound
    simp only [Expr.nest, if_true] at bound
    -- The exponent stands one level deeper, and the base stands outside of that level.
    obtain ⟨lower, rfl⟩ : ∃ lower, free = lower + 1 := ⟨free - 1, by omega⟩
    have base := leftIh (ordered.sublist (by simp)) (lower + 1) (by omega)
    have exponent := rightIh (ordered.sublist (by simp)) lower (by omega)
    exact accepts_power leftDerived token rightDerived ordered base exponent
  | fold layer leftDerived token among rightDerived leftIh rightIh =>
    intro free bound
    have loose := ((Rule.folds_of_layer? layer).loose _ among).2
    simp only [Expr.nest, loose, if_false] at bound
    have former := leftIh (ordered.sublist (by simp)) free (by omega)
    have latter := rightIh (ordered.sublist (by simp)) free (by omega)
    exact accepts_fold layer leftDerived token among rightDerived ordered former latter
  | assignment target token derived ih =>
    intro free bound
    have value := ih (ordered.sublist (by simp)) free bound
    exact accepts_assignment target token derived ordered value

end Reckon
