/-! The rules of the grammar, as diagnostics and the listing show them. -/

namespace Reckon

/-- A rule of the grammar. -/
inductive Rule where
  | session
  | header
  | expression
  | assignment
  | algebraicExpression
  | multiplyingExpression
  | powerExpression
  | signedAtom
  | functionExpression
  | atom
  | parenthesized
  | number
  | hexLiteral
  | binaryLiteral
  | decimalLiteral
  | reference
  deriving DecidableEq

namespace Rule

/-- Every rule, outermost first. -/
def all : List Rule :=
  [.session, .header, .expression, .assignment, .algebraicExpression, .multiplyingExpression,
    .powerExpression, .signedAtom, .functionExpression, .atom, .parenthesized, .number,
    .hexLiteral, .binaryLiteral, .decimalLiteral, .reference]

/-- The rule that every line is matched against. -/
def start : Rule := .session

/-- The name of the rule. -/
def name : Rule → String
  | .session => "Session"
  | .header => "Header"
  | .expression => "Expression"
  | .assignment => "Assignment"
  | .algebraicExpression => "AlgebraicExpression"
  | .multiplyingExpression => "MultiplyingExpression"
  | .powerExpression => "PowerExpression"
  | .signedAtom => "SignedAtom"
  | .functionExpression => "FunctionExpression"
  | .atom => "Atom"
  | .parenthesized => "Parenthesized"
  | .number => "Number"
  | .hexLiteral => "HexLiteral"
  | .binaryLiteral => "BinaryLiteral"
  | .decimalLiteral => "DecimalLiteral"
  | .reference => "Variable"

/-- What the rule is made of. -/
def definition : Rule → String
  | .session => "Header | Expression"
  | .header => "'-'+"
  | .expression => "Assignment | AlgebraicExpression"
  | .assignment => "Variable '=' AlgebraicExpression"
  | .algebraicExpression => "MultiplyingExpression (('+' | '-') MultiplyingExpression)*"
  | .multiplyingExpression => "PowerExpression (('*' | '/') PowerExpression)*"
  | .powerExpression => "SignedAtom ('^' PowerExpression)?"
  | .signedAtom => "FunctionExpression | Atom"
  | .functionExpression => "('sin' | 'cos') Parenthesized"
  | .atom => "Number | Variable | Parenthesized"
  | .parenthesized => "'(' Expression ')'"
  | .number => "HexLiteral | BinaryLiteral | DecimalLiteral"
  | .hexLiteral => "'0x' [0-9a-fA-F]+"
  | .binaryLiteral => "[01]+ 'b'"
  | .decimalLiteral => "'-'? [0-9]+ ('.' [0-9]+)?"
  | .reference => "[a-zA-Z]+"

end Rule

end Reckon
