import Reckon.Session

/-! What the program prints, and what it prints for one line. -/

namespace Reckon.CommandLine

/-- Everything the program leaves behind. -/
structure Response where
  /-- The exit status. -/
  status : Nat
  /-- The text on standard output. -/
  output : String
  /-- The text on standard error. -/
  errors : String
  deriving DecidableEq

/-- A response with more output in front of it. -/
def Response.after (response : Response) (output : String) : Response :=
  { response with output := output ++ response.output }

/-- The words for input that is not UTF-8. -/
def notUtf8 : String := "stream did not contain valid UTF-8"

/-- What is printed for a line, and the session afterwards. -/
structure LineReport where
  /-- The text for standard output. -/
  output : String
  /-- Whether the line matched. -/
  accepted : Bool
  /-- The session afterwards. -/
  session : Session

/--
Evaluates a line and prints its value or its error.

A tree is printed on request. The error is drawn to stand below a prompt with the line, which an
echo supplies where nobody typed it.
-/
def reportLine (tree echo : Bool) (session : Session) (line : String) : LineReport :=
  match parse line with
  | .ok expr =>
    let evaluation := expr.evaluate session.bindings
    let shown := if tree then expr.display ++ "\n" else ""
    ⟨shown ++ line ++ " = " ++ evaluation.value.text ++ "\n", true, ⟨evaluation.bindings⟩⟩
  | .error error =>
    let echoed := if echo then "> " ++ line ++ "\n" else ""
    ⟨echoed ++ error.diagnostic line ++ "\n", false, session⟩

end Reckon.CommandLine
