import Reckon.CommandLine.Batch

/-! Lines evaluated as they are typed. -/

namespace Reckon.CommandLine

/-- The word that ends a dialogue. -/
def exitWord : String := "exit"

/-- What is printed before the first prompt. -/
def banner : String := "Enter '" ++ exitWord ++ "' to exit the program.\n"

/-- What is printed before each line is read. -/
def prompt : String := "> "

/-- What the bytes of a line turn out to be. -/
inductive Reading where
  | line (text : String)
  | invalid
  deriving DecidableEq

/-- How a dialogue goes on from a reading. -/
inductive Next where
  /-- Some output, and another line in the session as it is now. -/
  | proceed (output : String) (session : Session)
  /-- The last that is printed, and the status. -/
  | leave (response : Response)

/-- The response to the end of the input, which moves on from the prompt. -/
def endOfInput : Response := ⟨0, "\n", ""⟩

/-- What a reading leads to. -/
def respond (tree : Bool) (session : Session) : Reading → Next
  | .invalid => .leave ⟨1, "", "Failed to read from standard input: " ++ notUtf8 ++ "\n"⟩
  | .line text =>
    let trimmed := String.ofList (trimBlank text.toList)
    if trimmed = exitWord then .leave ⟨0, "Bye bye.\n", ""⟩
    else if trimmed.isEmpty then .proceed "" session
    else
      -- The line is read as it was typed, as an error counts its columns from the start.
      let report := reportLine tree false session text
      .proceed report.output report.session

/-- The reading of the bytes of one line. -/
def Reading.ofBytes (bytes : List UInt8) : Reading :=
  match decode? bytes with
  | some text => .line text
  | none => .invalid

/-- The rest of a dialogue over the lines that are still to be read. -/
def converse (tree : Bool) (session : Session) : List (List UInt8) → Response
  | [] => endOfInput.after prompt
  | line :: lines =>
    match respond tree session (.ofBytes line) with
    | .proceed output session => (converse tree session lines).after (prompt ++ output)
    -- What is still to be read is left alone.
    | .leave response => response.after prompt

/-- The response to everything on standard input. -/
def dialogue (tree : Bool) (input : List UInt8) : Response :=
  (converse tree .new (byteLines input)).after banner

end Reckon.CommandLine
