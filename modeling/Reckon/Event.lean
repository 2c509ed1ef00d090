import Reckon.Binary64.Shortest
import Reckon.Expr
import Reckon.SyntaxError
import Reckon.Text.Quoted

/-! What a session reports about its work, and the words it reports it in. -/

namespace Reckon

/-- Something that a session reports. -/
inductive Event where
  /-- A line was read as a tree. -/
  | parsed (line : String) (tree : Expr)
  /-- A line was not read. -/
  | rejected (line : String) (error : SyntaxError)
  /-- A name that is not bound was read as zero. -/
  | unbound (name : String)
  /-- A name that was not bound got a value. -/
  | bound (name : String) (value : Binary64)
  /-- A name got a value in place of its previous one. -/
  | rebound (name : String) (previous value : Binary64)
  /-- A header dropped a number of bindings. -/
  | cleared (count : Nat)
  /-- A node of a kind got its value. -/
  | computed (kind : String) (span : Span) (value : Binary64)
  deriving DecidableEq

/-- How much detail an event is. -/
inductive Level where
  | debug
  | trace
  deriving DecidableEq

/-- The name of the level. -/
def Level.name : Level → String
  | .debug => "DEBUG"
  | .trace => "TRACE"

namespace Event

/-- Only the values of single nodes are details of the finer kind. -/
def level : Event → Level
  | .computed .. => .trace
  | _ => .debug

/-- The event in words. -/
def message : Event → String
  | .parsed line tree => "parsed " ++ quoted line ++ " as " ++ tree.display
  | .rejected line error => "rejected " ++ quoted line ++ ": " ++ error.message
  | .unbound name => "variable '" ++ name ++ "' is unbound, reading 0"
  | .bound name value => "bound '" ++ name ++ "' to " ++ value.text
  | .rebound name previous value =>
    "rebound '" ++ name ++ "' from " ++ previous.text ++ " to " ++ value.text
  | .cleared count => "header cleared " ++ toString count ++ " binding(s)"
  | .computed kind span value => kind ++ " at " ++ span.display ++ " = " ++ value.text

end Event

end Reckon
