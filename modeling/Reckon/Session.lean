import Reckon.Cursor
import Reckon.Evaluation

/-! Lines evaluated one after another over the same bindings. -/

namespace Reckon

/-- What carries over from one line to the next. -/
structure Session where
  /-- The variables that are bound. -/
  bindings : Bindings
  deriving DecidableEq

/-- What comes of a line. -/
structure Turn where
  /-- The value of the line, or where and why it does not match. -/
  answer : Except SyntaxError Binary64
  /-- The session afterwards. -/
  session : Session
  /-- What happened, in order. -/
  events : List Event

namespace Session

/-- A session with nothing bound. -/
def new : Session := ⟨.empty⟩

/-- What comes of a tree that was read before. -/
def run (session : Session) (tree : Expr) : Turn :=
  let evaluation := tree.evaluate session.bindings
  ⟨.ok evaluation.value, ⟨evaluation.bindings⟩, evaluation.events⟩

/-- What comes of a line, where a line that does not match changes nothing. -/
def evaluate (session : Session) (line : String) : Turn :=
  match parse line with
  | .error error => ⟨.error error, session, [.rejected line error]⟩
  | .ok tree =>
    -- Reading comes before everything that evaluating reports.
    let turn := session.run tree
    { turn with events := .parsed line tree :: turn.events }

/-- What comes of several lines, each evaluated in the session that the line before it left. -/
def evaluateAll (session : Session) : List String → List Turn
  | [] => []
  | line :: lines =>
    let turn := session.evaluate line
    turn :: turn.session.evaluateAll lines

end Session

end Reckon
