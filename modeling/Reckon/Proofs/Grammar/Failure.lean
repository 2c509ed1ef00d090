import Reckon.Proofs.Grammar.Completeness

/-! Where and why a match cannot go on, as derivations that come to an end too early. -/

namespace Reckon

/-- Why a line is rejected. -/
inductive Cause where
  /-- An expression is complete, and something is left behind it. -/
  | leftover
  /-- No operand starts where one is required. -/
  | operand
  /-- A parenthesis that is open is not closed behind its expression. -/
  | unclosed
  /-- A parenthesis opens a level when every level is in use. -/
  | deepParenthesis
  /-- An exponent opens a level when every level is in use. -/
  | deepExponent
  deriving DecidableEq

/-- The rule that is reported. -/
def Cause.rule : Cause → Rule
  | .leftover => .session
  | .operand => .atom
  | .unclosed => .parenthesized
  | .deepParenthesis => .parenthesized
  | .deepExponent => .powerExpression

/-- Lexemes that start as an operand does. -/
inductive StartsOperand : List Lexeme → Prop where
  | literal {kind : LiteralKind} {lexeme : Lexeme} (token : lexeme.token = some kind.token)
      (rest : List Lexeme) : StartsOperand (lexeme :: rest)
  | signed {minus digits : Lexeme} (sign : minus.token = some .minus)
      (token : digits.token = some .decimal) (glued : digits.span.offset = minus.span.stop)
      (rest : List Lexeme) : StartsOperand (minus :: digits :: rest)
  | name {lexeme : Lexeme} (token : lexeme.token = some .name) (rest : List Lexeme) :
      StartsOperand (lexeme :: rest)
  | parenthesis {lexeme : Lexeme} (token : lexeme.token = some .leftParen) (rest : List Lexeme) :
      StartsOperand (lexeme :: rest)

/-- The lexemes behind what a rule has taken are not among those that it would have taken too. -/
structure Settled (rule : Rule) (taken rest : List Lexeme) : Prop where
  /-- The next lexeme is no operator of the rule's layer or of one below. -/
  noOperator : ∀ next ∈ rest.head?, ∀ operator ∈ rule.operators,
    next.token.bind Token.operator? ≠ some operator
  /-- The last name that was taken does not call a function. -/
  noArgument : ∀ next ∈ rest.head?, next.token = some .leftParen →
    ∀ last ∈ taken.getLast?, last.token = some .name → NamedFunction.called? last.text = none
  /-- The expression that was taken is not the target of an assignment. -/
  noTarget : ∀ next ∈ rest.head?, next.token = some .equals → rule = .expression →
    ∀ name, taken = [name] → name.token ≠ some .name

/-- An operand starts with a literal, a sign, a name or a parenthesis. -/
theorem StartsOperand.token {lexeme : Lexeme} {rest : List Lexeme}
    (starts : StartsOperand (lexeme :: rest)) : ∃ kind, lexeme.token = some kind ∧
      kind ∈ [.hexadecimal, .binary, .decimal, .name, .minus, .leftParen] := by
  -- Each of the ways names the kind of the first lexeme.
  cases starts with
  | @literal kind _ token => exact ⟨kind.token, token, by cases kind <;> decide⟩
  | signed sign => exact ⟨.minus, sign, by decide⟩
  | name token => exact ⟨.name, token, by decide⟩
  | parenthesis token => exact ⟨.leftParen, token, by decide⟩

/--
A match of a rule takes some lexemes and cannot go on with those behind them.

The number is that of the levels which are free where the match starts.
-/
inductive Stuck : (free : Nat) → Rule → (taken rest : List Lexeme) → Cause → Prop where
  /-- An operand is required, and none starts. -/
  | operand {free : Nat} {rest : List Lexeme} (missing : ¬ StartsOperand rest) :
      Stuck free .atom [] rest .operand
  /-- The expression between parentheses is complete, and they are not closed. -/
  | unclosed {free : Nat} {opening : Lexeme} {inner rest : List Lexeme} {tree : Expr}
      (left : opening.token = some .leftParen) (derived : Derives .expression inner tree)
      (bound : tree.nest ≤ free) (settled : Settled .expression inner rest)
      (missing : ∀ next ∈ rest.head?, next.token ≠ some .rightParen) :
      Stuck (free + 1) .parenthesized (opening :: inner) rest .unclosed
  /-- A parenthesis opens, and no level is free for it. -/
  | deepParenthesis {opening : Lexeme} {rest : List Lexeme}
      (left : opening.token = some .leftParen) :
      Stuck 0 .parenthesized [opening] rest .deepParenthesis
  /-- An exponent comes next, and no level is free for it. -/
  | deepExponent {caret : Lexeme} {base rest : List Lexeme} {tree : Expr}
      (derived : Derives .signedAtom base tree) (bound : tree.nest ≤ 0)
      (token : caret.token = some .caret) :
      Stuck 0 .powerExpression (base ++ [caret]) rest .deepExponent
  /-- One of the alternatives of a rule cannot go on. -/
  | alternative {free : Nat} {rule part : Rule} {taken rest : List Lexeme} {cause : Cause}
      (listed : part ∈ rule.alternatives) (stuck : Stuck free part taken rest cause) :
      Stuck free rule taken rest cause
  /-- The expression between parentheses cannot go on. -/
  | parenthesized {free : Nat} {opening : Lexeme} {taken rest : List Lexeme} {cause : Cause}
      (left : opening.token = some .leftParen) (stuck : Stuck free .expression taken rest cause) :
      Stuck (free + 1) .parenthesized (opening :: taken) rest cause
  /-- The argument of a function cannot go on. -/
  | call {free : Nat} {name : Lexeme} {function : NamedFunction} {taken rest : List Lexeme}
      {cause : Cause} (token : name.token = some .name) (keyword : name.text = function.keyword)
      (stuck : Stuck free .parenthesized taken rest cause) :
      Stuck free .functionExpression (name :: taken) rest cause
  /-- An exponent cannot go on. -/
  | power {free : Nat} {caret : Lexeme} {base taken rest : List Lexeme} {tree : Expr}
      {cause : Cause} (derived : Derives .signedAtom base tree) (bound : tree.nest ≤ free + 1)
      (token : caret.token = some .caret)
      (stuck : Stuck free .powerExpression taken rest cause) :
      Stuck (free + 1) .powerExpression (base ++ caret :: taken) rest cause
  /-- A right operand cannot go on. -/
  | fold {free : Nat} {rule operand : Rule} {accepted : List Operator} {operator : Operator}
      {sign : Lexeme} {former taken rest : List Lexeme} {tree : Expr} {cause : Cause}
      (layer : rule.layer? = some (accepted, operand)) (derived : Derives rule former tree)
      (bound : tree.nest ≤ free) (token : sign.token.bind Token.operator? = some operator)
      (among : operator ∈ accepted) (stuck : Stuck free operand taken rest cause) :
      Stuck free rule (former ++ sign :: taken) rest cause
  /-- The value of an assignment cannot go on. -/
  | assignment {free : Nat} {name equals : Lexeme} {taken rest : List Lexeme} {cause : Cause}
      (target : name.token = some .name) (token : equals.token = some .equals)
      (stuck : Stuck free .algebraicExpression taken rest cause) :
      Stuck free .assignment (name :: equals :: taken) rest cause

/-- Behind the last of what was taken nothing goes on that does not go on behind its end. -/
theorem Settled.append {rule : Rule} {latter rest : List Lexeme}
    (settled : Settled rule latter rest) (occupied : latter ≠ []) (inner : rule ≠ .expression)
    (former : List Lexeme) : Settled rule (former ++ latter) rest := by
  -- Only the last lexeme is looked at, and it is the same for both.
  refine ⟨settled.noOperator, ?_, fun _ _ _ same => absurd same inner⟩
  intro next isNext parenthesis last ends
  -- What is last behind the others is last by itself.
  rw [List.getLast?_append_of_ne_nil _ occupied] at ends
  exact settled.noArgument next isNext parenthesis last ends

/-- What is known behind an operand is known behind it as a rule with the same operators. -/
theorem Settled.congr {rule part : Rule} {taken rest : List Lexeme}
    (settled : Settled part taken rest) (same : rule.operators = part.operators)
    (inner : rule ≠ .expression) : Settled rule taken rest :=
  ⟨same ▸ settled.noOperator, settled.noArgument, fun _ _ _ whole => absurd whole inner⟩

/-- Behind what does not end in a name no operand goes on. -/
theorem settled_of_last {rule : Rule} {taken rest : List Lexeme} (last : Lexeme)
    (ends : taken.getLast? = some last) (unnamed : last.token ≠ some .name)
    (isOperand : rule.operators = []) : Settled rule taken rest := by
  refine ⟨by simp [isOperand], ?_, ?_⟩
  · intro next isNext parenthesis other otherEnds named
    -- The last lexeme is no name, so it calls nothing.
    rw [ends] at otherEnds
    exact absurd ((Option.some.inj otherEnds) ▸ named) unnamed
  · -- An expression has operators, so the rule is another one.
    intro next isNext equals whole name alone
    subst whole
    exact absurd isOperand (by decide)

end Reckon
