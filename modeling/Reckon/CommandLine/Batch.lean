import Reckon.CommandLine.Response
import Reckon.Text.Blank
import Reckon.Text.Lines

/-! The lines of a file, evaluated in one session. -/

namespace Reckon.CommandLine

/-- Whether a line has nothing but white space. -/
def isBlankLine (line : String) : Bool := (trimBlank line.toList).isEmpty

/--
What is printed for the lines of a file.

Blank lines are passed over. A line that does not match is reported and the next one follows, but
the status tells that there was one.
-/
def reportLines (tree : Bool) (session : Session) : List String → Response
  | [] => ⟨0, "", ""⟩
  | line :: lines =>
    if isBlankLine line then reportLines tree session lines
    else
      let report := reportLine tree true session line
      let following := reportLines tree report.session lines
      -- One line without a match is enough, however many match behind it.
      { following.after report.output with
        status := if report.accepted then following.status else 1 }

/-- The response to a file that cannot be read. -/
def unreadableFile (path reason : String) : Response :=
  ⟨1, "", "Failed to read the input file '" ++ path ++ "': " ++ reason ++ "\n"⟩

/-- The response to a file, given its bytes or why there are none. -/
def reportFile (tree : Bool) (path : String) : Except String (List UInt8) → Response
  | .error reason => unreadableFile path reason
  | .ok bytes =>
    match decode? bytes with
    | none => unreadableFile path notUtf8
    | some text => reportLines tree .new (textLines text)

end Reckon.CommandLine
