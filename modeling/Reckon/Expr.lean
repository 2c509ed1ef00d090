import Reckon.Literal
import Reckon.Operator
import Reckon.Span

/-! Syntax trees of lines. -/

namespace Reckon

/-- The name on the left of an assignment. -/
structure Identifier where
  /-- The name as it is typed. -/
  name : String
  /-- Where the name stands in the line. -/
  span : Span
  deriving DecidableEq

/-- A syntax tree, of which every node knows where it stands in its line. -/
inductive Expr where
  /-- A number as it is typed, and its value. -/
  | literal (kind : LiteralKind) (text : String) (value : Binary64) (span : Span)
  /-- The variable of a name. -/
  | reference (name : String) (span : Span)
  /-- A name that is bound to the value of a tree. -/
  | assignment (target : Identifier) (value : Expr) (span : Span)
  /-- An operator between two trees. -/
  | operation (left : Expr) (operator : Operator) (right : Expr) (span : Span)
  /-- A function of a tree between parentheses. -/
  | call (function : NamedFunction) (argument : Expr) (span : Span)
  /-- A tree between parentheses. -/
  | parenthesized (inner : Expr) (span : Span)
  /-- A line of minus signs, which drops every binding. -/
  | header (text : String) (span : Span)
  deriving DecidableEq

namespace Expr

/-- Where the node stands in the line. -/
def span : Expr → Span
  | .literal _ _ _ span => span
  | .reference _ span => span
  | .assignment _ _ span => span
  | .operation _ _ _ span => span
  | .call _ _ span => span
  | .parenthesized _ span => span
  | .header _ span => span

/-- The name of the kind of node. -/
def kindName : Expr → String
  | .literal kind _ _ _ => kind.name
  | .reference _ _ => "Variable"
  | .assignment _ _ _ => "Assignment"
  | .operation _ operator _ _ => operator.name
  | .call function _ _ => function.name
  | .parenthesized _ _ => "Parenthesized"
  | .header _ _ => "Header"

/-- The tree as nested lists, with the text of the line at its leaves. -/
def display : Expr → String
  | .literal _ text _ _ => text
  | .reference name _ => name
  | .assignment target value _ => "(Assignment " ++ target.name ++ " " ++ value.display ++ ")"
  | .operation left operator right _ =>
    "(" ++ operator.name ++ " " ++ left.display ++ " " ++ right.display ++ ")"
  | .call function argument _ => "(" ++ function.name ++ " " ++ argument.display ++ ")"
  | .parenthesized inner _ => "(Parenthesized " ++ inner.display ++ ")"
  | .header text _ => "(Header " ++ text ++ ")"

/-- Every node of the tree, each before its children and those from left to right. -/
def nodes : Expr → List Expr
  | tree@(.literal ..) => [tree]
  | tree@(.reference ..) => [tree]
  | tree@(.assignment _ value _) => tree :: value.nodes
  | tree@(.operation left _ right _) => tree :: (left.nodes ++ right.nodes)
  | tree@(.call _ argument _) => tree :: argument.nodes
  | tree@(.parenthesized inner _) => tree :: inner.nodes
  | tree@(.header ..) => [tree]

end Expr

end Reckon
