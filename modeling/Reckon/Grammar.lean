import Reckon.Expr
import Reckon.Lexeme
import Reckon.Rule

/-! The grammar, as matchers that take lexemes from the front of a list. -/

namespace Reckon

/-- What came of matching a rule. -/
inductive Outcome where
  /-- A tree for the lexemes that were taken, and the lexemes left behind it. -/
  | matched (tree : Expr) (rest : List Lexeme)
  /-- The rule that failed, the lexemes left where it did, and how many levels it left open. -/
  | failed (rule : Rule) (rest : List Lexeme) (opened : Nat)
  deriving DecidableEq

/-- A rule: what comes of matching it at the start of some lexemes. -/
abbrev Matcher := List Lexeme → Outcome

namespace Outcome

/-- Goes on behind a match, and lets a failure stand. -/
def andThen (outcome : Outcome) (next : Expr → Matcher) : Outcome :=
  match outcome with
  | matched tree rest => next tree rest
  | failed rule rest opened => failed rule rest opened

/-- Counts a level that was open around the match and closes only behind a success. -/
def inLevel : Outcome → Outcome
  | matched tree rest => matched tree rest
  | failed rule rest opened => failed rule rest (opened + 1)

end Outcome

namespace Grammar

/-- The first lexeme and the rest, if the first is of a given kind. -/
def take? (token : Token) : List Lexeme → Option (Lexeme × List Lexeme)
  | lexeme :: rest => if lexeme.isToken token then some (lexeme, rest) else none
  | [] => none

/--
Matches one level deeper, on behalf of a rule.

Without a matcher for the next level every level is in use, and the rule fails right where the
level would have begun.
-/
def deeper (rule : Rule) (inner : Option Matcher) : Matcher := fun lexemes =>
  match inner with
  -- The level that was refused has not been opened.
  | none => .failed rule lexemes 0
  | some inner => (inner lexemes).inLevel

/-- A literal of a kind, whose lexeme always reads as one. -/
def literal (kind : LiteralKind) (text : String) (span : Span) : Expr :=
  .literal kind text ((kind.value? text.toList).getD .quietNaN) span

/-- A binary operation, which reaches from its left operand to its right one. -/
def operation (left : Expr) (operator : Operator) (right : Expr) : Expr :=
  .operation left operator right (left.span.cover right.span)

/-- An expression between parentheses, where the matcher for the expression is one level deeper. -/
def parenthesized (inner : Option Matcher) : Matcher := fun lexemes =>
  match take? .leftParen lexemes with
  | none => .failed .parenthesized lexemes 0
  | some (opening, rest) =>
    (deeper .parenthesized inner rest).andThen fun tree rest =>
      match take? .rightParen rest with
      | none => .failed .parenthesized rest 0
      | some (closing, rest) =>
        .matched (.parenthesized tree (opening.span.cover closing.span)) rest

/-- The decimal literal that a minus belongs to, which is one with no gap in between. -/
def gluedDecimal? (minus : Lexeme) (lexemes : List Lexeme) : Option (Lexeme × List Lexeme) :=
  (take? .decimal lexemes).filter fun (digits, _) => digits.span.offset == minus.span.stop

/-- A literal, a variable or an expression between parentheses. -/
def atom (inner : Option Matcher) : Matcher
  | [] => .failed .atom [] 0
  | lexeme :: rest =>
    match lexeme.token with
    | some .hexadecimal => .matched (literal .hexadecimal lexeme.text lexeme.span) rest
    | some .binary => .matched (literal .binary lexeme.text lexeme.span) rest
    | some .decimal => .matched (literal .decimal lexeme.text lexeme.span) rest
    | some .name => .matched (.reference lexeme.text lexeme.span) rest
    | some .minus =>
      match gluedDecimal? lexeme rest with
      | some (digits, rest) =>
        let text := lexeme.text ++ digits.text
        .matched (literal .decimal text (lexeme.span.cover digits.span)) rest
      -- A minus by itself is not taken, and the failure is where it stands.
      | none => .failed .atom (lexeme :: rest) 0
    | some .leftParen => parenthesized inner (lexeme :: rest)
    | _ => .failed .atom (lexeme :: rest) 0

/-- The function that is called at the start, with its name and the lexemes behind the name. -/
def called? : List Lexeme → Option (NamedFunction × Lexeme × List Lexeme)
  | name :: opening :: rest =>
    -- Without an argument in parentheses the name of a function is a variable.
    if name.isToken .name && opening.isToken .leftParen then
      (NamedFunction.called? name.text).map fun function => (function, name, opening :: rest)
    else none
  | _ => none

/-- A call of a function, or an atom. -/
def signedAtom (inner : Option Matcher) : Matcher := fun lexemes =>
  match called? lexemes with
  | some (function, name, rest) =>
    (parenthesized inner rest).andThen fun argument rest =>
      .matched (.call function argument (name.span.cover argument.span)) rest
  | none => atom inner lexemes

/-- The first lexeme's operator and the rest, if the operator is one of those accepted. -/
def operator? (accepted : List Operator) : List Lexeme → Option (Operator × List Lexeme)
  | lexeme :: rest =>
    -- An operator of another precedence is left for the rule around this one.
    ((lexeme.token.bind Token.operator?).filter accepted.contains).map fun operator =>
      (operator, rest)
  | [] => none

/--
Operators with their right operands, folded onto a left operand.

Every round takes at least the operator, so as many rounds as there are lexemes suffice.
-/
def chainFrom (accepted : List Operator) (operand : Matcher) : (rounds : Nat) → Expr → Matcher
  | 0, left, lexemes => .matched left lexemes
  | rounds + 1, left, lexemes =>
    match operator? accepted lexemes with
    | none => .matched left lexemes
    | some (operator, rest) =>
      (operand rest).andThen fun right rest =>
        chainFrom accepted operand rounds (operation left operator right) rest

/-- Operands joined by operators of one precedence, which group from the left. -/
def chain (accepted : List Operator) (operand : Matcher) : Matcher := fun lexemes =>
  (operand lexemes).andThen fun left rest => chainFrom accepted operand rest.length left rest

/-- Powers joined by multiplications and divisions. -/
def multiplicativeOver (power : Matcher) : Matcher := chain [.multiply, .divide] power

/-- Products joined by additions and subtractions. -/
def additiveOver (power : Matcher) : Matcher := chain [.add, .subtract] (multiplicativeOver power)

/-- An assignment, if the lexemes start with a name and an equals sign. -/
def assignmentOver? (power : Matcher) : List Lexeme → Option Outcome
  | name :: equals :: rest =>
    if name.isToken .name && equals.isToken .equals then
      -- The value is a sum, so an assignment takes parentheses to stand in another.
      some ((additiveOver power rest).andThen fun value rest =>
        .matched (.assignment ⟨name.text, name.span⟩ value (name.span.cover value.span)) rest)
    else none
  | _ => none

/-- An assignment, or a sum. -/
def expressionOver (power : Matcher) : Matcher := fun lexemes =>
  match assignmentOver? power lexemes with
  | some outcome => outcome
  | none => additiveOver power lexemes

/--
A signed atom, and a power as its exponent if a caret follows.

Parentheses and exponents both go one level deeper, where the same rule holds again.
-/
def powerOver (deeperPower : Option Matcher) : Matcher := fun lexemes =>
  (signedAtom (deeperPower.map expressionOver) lexemes).andThen fun base rest =>
    match take? .caret rest with
    | none => .matched base rest
    | some (_, rest) =>
      -- The exponent is a power itself, so powers group from the right.
      (deeper .powerExpression deeperPower rest).andThen fun exponent rest =>
        .matched (operation base .power exponent) rest

/-- A power, with a number of levels that it may still open. -/
def power : (free : Nat) → Matcher
  | 0 => powerOver none
  | free + 1 => powerOver (some (power free))

/-- A product, with a number of levels that it may still open. -/
def multiplicative (free : Nat) : Matcher := multiplicativeOver (power free)

/-- A sum, with a number of levels that it may still open. -/
def additive (free : Nat) : Matcher := additiveOver (power free)

/-- An assignment, if one starts here, with a number of levels that it may still open. -/
def assignment? (free : Nat) : List Lexeme → Option Outcome := assignmentOver? (power free)

/-- An expression, with a number of levels that it may still open. -/
def expression (free : Nat) : Matcher := expressionOver (power free)

/-- The range of a header, which is made of nothing but one or more minus signs. -/
def headerSpan? (lexemes : List Lexeme) : Option Span :=
  match lexemes.head?, lexemes.getLast? with
  | some first, some last =>
    if lexemes.all (·.isToken .minus) then some (first.span.cover last.span) else none
  | _, _ => none

/-- A header or an expression, behind which nothing may be left. -/
def session (source : String) (free : Nat) : Matcher := fun lexemes =>
  match headerSpan? lexemes with
  | some span =>
    -- The gaps between the signs belong to the header's text, so it is cut from the source.
    let text := (slice? source.toList span.offset span.length).getD []
    .matched (.header (String.ofList text) span) []
  | none =>
    (expression free lexemes).andThen fun tree rest =>
      if rest.isEmpty then .matched tree rest else .failed .session rest 0

end Grammar

end Reckon
