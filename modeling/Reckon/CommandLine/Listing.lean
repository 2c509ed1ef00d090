import Reckon.Operator
import Reckon.Rule

/-! The listing of the grammar's rules and of the functions. -/

namespace Reckon.CommandLine

/-- A text with spaces behind it up to a width. -/
def padded (text : String) (width : Nat) : String :=
  text ++ String.ofList (List.replicate (width - text.length) ' ')

/-- The length of the longest name of a rule. -/
def nameWidth : Nat := (Rule.all.map fun rule => rule.name.length).foldl max 0

/-- The line of a rule, on which a star marks the rule that every line starts with. -/
def ruleLine (rule : Rule) : String :=
  (if rule = Rule.start then "*" else " ") ++ " " ++ padded rule.name nameWidth ++ " <- " ++
    rule.definition ++ "\n"

/-- The rules one to a line, and below them the functions. -/
def listing : String :=
  String.join (Rule.all.map ruleLine) ++ "\nfunctions: " ++
    ", ".intercalate (NamedFunction.all.map NamedFunction.keyword) ++ "\n"

end Reckon.CommandLine
