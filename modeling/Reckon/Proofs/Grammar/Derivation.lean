import Reckon.Cursor

/-! The documented grammar, as derivations of trees from lexemes. -/

namespace Reckon

/-- The most levels that parentheses and exponents open along a path to a leaf. -/
def Expr.nest : Expr → Nat
  | .literal .. => 0
  | .reference .. => 0
  | .assignment _ value _ => value.nest
  | .operation left operator right _ =>
    -- The left operand of a power stands outside of the level of its exponent.
    max left.nest (if operator = .power then right.nest + 1 else right.nest)
  | .call _ argument _ => argument.nest
  | .parenthesized inner _ => inner.nest + 1
  | .header .. => 0

/-- The range from the start of the first lexeme to the end of the last one. -/
def extent (lexemes : List Lexeme) : Span :=
  match lexemes.head?, lexemes.getLast? with
  | some first, some last => .between first.span.offset last.span.stop
  | _, _ => ⟨0, 0⟩

namespace LiteralKind

/-- The kind of lexeme that a literal of a kind is. -/
def token : LiteralKind → Token
  | .decimal => .decimal
  | .hexadecimal => .hexadecimal
  | .binary => .binary

/-- The rule of the literals of a kind. -/
def rule : LiteralKind → Rule
  | .decimal => .decimalLiteral
  | .hexadecimal => .hexLiteral
  | .binary => .binaryLiteral

end LiteralKind

namespace Rule

/-- The rules that a rule is a choice between. -/
def alternatives : Rule → List Rule
  | .expression => [.assignment, .algebraicExpression]
  | .algebraicExpression => [.multiplyingExpression]
  | .multiplyingExpression => [.powerExpression]
  | .powerExpression => [.signedAtom]
  | .signedAtom => [.functionExpression, .atom]
  | .atom => [.number, .reference, .parenthesized]
  | .number => [.hexLiteral, .binaryLiteral, .decimalLiteral]
  | _ => []

/-- The operators that a rule folds to the left, and the rule of the operands that it folds. -/
def layer? : Rule → Option (List Operator × Rule)
  | .algebraicExpression => some ([.add, .subtract], .multiplyingExpression)
  | .multiplyingExpression => some ([.multiply, .divide], .powerExpression)
  | _ => none

end Rule

/-- A rule of the grammar derives a tree from some lexemes, all of which it takes. -/
inductive Derives : Rule → List Lexeme → Expr → Prop where
  /-- What one of its alternatives derives, a rule derives. -/
  | alternative {rule part : Rule} {lexemes : List Lexeme} {tree : Expr}
      (listed : part ∈ rule.alternatives) (derived : Derives part lexemes tree) :
      Derives rule lexemes tree
  /-- A literal is one lexeme, whose text is read as a number of its kind. -/
  | literal {kind : LiteralKind} {rule : Rule} {lexeme : Lexeme} {value : Binary64}
      (named : kind.rule = rule) (token : lexeme.token = some kind.token)
      (read : kind.read lexeme.text = .ok value) :
      Derives rule [lexeme] (.literal kind lexeme.text value lexeme.span)
  /-- A minus right in front of a decimal literal is part of that literal. -/
  | signed {minus digits : Lexeme} {value : Binary64}
      (sign : minus.token = some .minus) (token : digits.token = some .decimal)
      (glued : digits.span.offset = minus.span.stop)
      (read : LiteralKind.decimal.read (minus.text ++ digits.text) = .ok value) :
      Derives .decimalLiteral [minus, digits]
        (.literal .decimal (minus.text ++ digits.text) value (extent [minus, digits]))
  /-- A name is a variable. -/
  | reference {name : Lexeme} (token : name.token = some .name) :
      Derives .reference [name] (.reference name.text name.span)
  /-- An expression stands between parentheses. -/
  | parenthesized {opening closing : Lexeme} {inner : List Lexeme} {tree : Expr}
      (left : opening.token = some .leftParen) (derived : Derives .expression inner tree)
      (right : closing.token = some .rightParen) :
      Derives .parenthesized (opening :: (inner ++ [closing]))
        (.parenthesized tree (extent (opening :: (inner ++ [closing]))))
  /-- The name of a function stands in front of its argument. -/
  | call {name : Lexeme} {function : NamedFunction} {argument : List Lexeme} {tree : Expr}
      (token : name.token = some .name) (keyword : name.text = function.keyword)
      (derived : Derives .parenthesized argument tree) :
      Derives .functionExpression (name :: argument)
        (.call function tree (extent (name :: argument)))
  /-- An exponent is a power itself, so that powers group from the right. -/
  | power {caret : Lexeme} {base exponent : List Lexeme} {left right : Expr}
      (leftDerived : Derives .signedAtom base left) (token : caret.token = some .caret)
      (rightDerived : Derives .powerExpression exponent right) :
      Derives .powerExpression (base ++ caret :: exponent)
        (.operation left .power right (extent (base ++ caret :: exponent)))
  /-- A left operand is of the rule itself, so that the other operators group from the left. -/
  | fold {rule operand : Rule} {accepted : List Operator} {operator : Operator} {sign : Lexeme}
      {former latter : List Lexeme} {left right : Expr}
      (layer : rule.layer? = some (accepted, operand)) (leftDerived : Derives rule former left)
      (token : sign.token.bind Token.operator? = some operator) (among : operator ∈ accepted)
      (rightDerived : Derives operand latter right) :
      Derives rule (former ++ sign :: latter)
        (.operation left operator right (extent (former ++ sign :: latter)))
  /-- A name is bound to a sum. -/
  | assignment {name equals : Lexeme} {lexemes : List Lexeme} {tree : Expr}
      (target : name.token = some .name) (token : equals.token = some .equals)
      (derived : Derives .algebraicExpression lexemes tree) :
      Derives .assignment (name :: equals :: lexemes)
        (.assignment ⟨name.text, name.span⟩ tree (extent (name :: equals :: lexemes)))

/-- A line as a whole derives a tree. -/
inductive LineDerives (line : String) : Expr → Prop where
  /-- A header is one minus or more and nothing else, with the text from the first to the last. -/
  | header {text : List Char} (occupied : lexemesOf line ≠ [])
      (signs : ∀ lexeme ∈ lexemesOf line, lexeme.token = some .minus)
      (cut : slice? line.toList (extent (lexemesOf line)).offset (extent (lexemesOf line)).length =
        some text) :
      LineDerives line (.header (String.ofList text) (extent (lexemesOf line)))
  /-- Any other line is an expression. -/
  | expression {tree : Expr} (derived : Derives .expression (lexemesOf line) tree) :
      LineDerives line tree

/-- No rule derives anything from no lexemes. -/
theorem Derives.ne_nil {rule : Rule} {lexemes : List Lexeme} {tree : Expr}
    (derived : Derives rule lexemes tree) : lexemes ≠ [] := by
  -- Every way to derive a tree but that of an alternative takes a lexeme of its own.
  induction derived with
  | alternative listed derived ih => exact ih
  | literal => simp
  | signed => simp
  | reference => simp
  | parenthesized => simp
  | call => simp
  | power => simp
  | fold => simp
  | assignment => simp

/-- The range of a single lexeme is its own. -/
@[simp] theorem extent_singleton (lexeme : Lexeme) : extent [lexeme] = lexeme.span := by
  simp [extent, Span.between, Span.stop]

/-- The range of a tree is that of the lexemes that it is derived from. -/
theorem Derives.span_eq {rule : Rule} {lexemes : List Lexeme} {tree : Expr}
    (derived : Derives rule lexemes tree) : tree.span = extent lexemes := by
  -- A tree of several lexemes has their range by its definition.
  induction derived with
  | alternative listed derived ih => exact ih
  | literal => exact (extent_singleton _).symm
  | signed => rfl
  | reference => exact (extent_singleton _).symm
  | parenthesized => rfl
  | call => rfl
  | power => rfl
  | fold => rfl
  | assignment => rfl

/-- Lexemes that stand one behind the other. -/
def Ordered (lexemes : List Lexeme) : Prop :=
  lexemes.Pairwise fun left right => left.span.stop ≤ right.span.offset

/-- The first of some lexemes in order neither starts nor ends behind the last. -/
theorem Ordered.first_le_last {first : Lexeme} {others : List Lexeme} {last : Lexeme}
    (ordered : Ordered (first :: others)) (ends : (first :: others).getLast? = some last) :
    first.span.offset ≤ last.span.offset ∧ first.span.stop ≤ last.span.stop := by
  -- The last lexeme is the first one itself, or one that starts behind its end.
  rcases List.mem_cons.mp (List.mem_of_getLast? ends) with rfl | later
  · exact ⟨Nat.le_refl _, Nat.le_refl _⟩
  · have order := (List.pairwise_cons.mp ordered).1 last later
    simp only [Span.stop] at order ⊢
    omega

/-- The ranges of lexemes in order cover what the range of all of them does. -/
theorem cover_extent {former between latter : List Lexeme}
    (ordered : Ordered (former ++ (between ++ latter))) (formerOccupied : former ≠ [])
    (latterOccupied : latter ≠ []) :
    (extent former).cover (extent latter) = extent (former ++ (between ++ latter)) := by
  obtain ⟨first, others, rfl⟩ := List.exists_cons_of_ne_nil formerOccupied
  obtain ⟨start, rest, rfl⟩ := List.exists_cons_of_ne_nil latterOccupied
  obtain ⟨before, behind, apart⟩ := List.pairwise_append.mp ordered
  have order := (List.pairwise_append.mp behind).2.1
  obtain ⟨middle, middleEnds⟩ : ∃ last, (first :: others).getLast? = some last :=
    ⟨_, List.getLast?_eq_some_getLast (List.cons_ne_nil first others)⟩
  obtain ⟨last, ends⟩ : ∃ last, (start :: rest).getLast? = some last :=
    ⟨_, List.getLast?_eq_some_getLast (List.cons_ne_nil start rest)⟩
  -- The first of all starts first, and the last of all ends last.
  have starts := apart first List.mem_cons_self start (by simp)
  have stops := apart middle (List.mem_of_getLast? middleEnds) last
    (List.mem_append_right between (List.mem_of_getLast? ends))
  have formerOrder := (Ordered.first_le_last before middleEnds).1
  have latterOrder := (Ordered.first_le_last order ends).1
  have wholeEnds : (first :: others ++ (between ++ start :: rest)).getLast? = some last := by
    rw [List.getLast?_append, List.getLast?_append, ends]
    rfl
  have wholeStarts : (first :: others ++ (between ++ start :: rest)).head? = some first := rfl
  simp only [Span.stop] at starts stops
  simp only [extent, middleEnds, ends, wholeEnds, wholeStarts, List.head?_cons, Span.cover,
    Span.between, Span.stop, Span.mk.injEq]
  omega

/-- The range of a lexeme and that of lexemes further on cover what the range of all does. -/
theorem cover_extent_cons {first : Lexeme} (between : List Lexeme) {latter : List Lexeme}
    (ordered : Ordered (first :: (between ++ latter))) (occupied : latter ≠ []) :
    first.span.cover (extent latter) = extent (first :: (between ++ latter)) := by
  -- A single lexeme is the range of itself.
  have cover : (extent [first]).cover (extent latter) = extent ([first] ++ (between ++ latter)) :=
    cover_extent ordered (by simp) occupied
  rwa [extent_singleton] at cover

end Reckon
