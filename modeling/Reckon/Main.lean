import Reckon.CommandLine.Program

/-! The program itself, which reads and prints and leaves every decision to the library. -/

namespace Reckon.CommandLine

/-- Prints a response, and gives its status. -/
def finish (response : Response) : IO UInt32 := do
  IO.print response.output
  (← IO.getStdout).flush
  IO.eprint response.errors
  return UInt32.ofNat response.status

/-- Reads bytes up to a newline or the end, behind those read before. -/
partial def readBytes (input : IO.FS.Stream) (before : ByteArray) : IO ByteArray := do
  let next ← input.read 1
  if next.isEmpty then return before
  else if next.data.contains 10 then return before ++ next
  else readBytes input (before ++ next)

/-- Reads one line of standard input, if there is one. -/
def readLine? (input : IO.FS.Stream) : IO (Option Reading) := do
  return (byteLines (← readBytes input .empty).toList).head?.map .ofBytes

/-- Holds a dialogue on standard input until it ends. -/
partial def hold (tree : Bool) (input output : IO.FS.Stream) (session : Session) : IO UInt32 := do
  output.putStr prompt
  output.flush
  match ← readLine? input with
  | none => finish endOfInput
  | some reading =>
    match respond tree session reading with
    | .leave response => finish response
    | .proceed text session =>
      output.putStr text
      hold tree input output session

/-- The words of the system for why a file cannot be read. -/
def systemText : IO.Error → String
  | .noFileOrDirectory .. => "No such file or directory (os error 2)"
  | .permissionDenied .. => "Permission denied (os error 13)"
  | .inappropriateType .. => "Is a directory (os error 21)"
  | reason => toString reason

/-- Reads a file, or says why it cannot be read. -/
def readFile (path : String) : IO (Except String (List UInt8)) := do
  match ← (IO.FS.readBinFile path).toBaseIO with
  | .ok bytes => return .ok bytes.toList
  | .error reason => return .error (systemText reason)

end Reckon.CommandLine

open Reckon.CommandLine in
/-- Runs the program. -/
def main (arguments : List String) : IO UInt32 := do
  match Plan.ofArguments arguments with
  | .done response => finish response
  | .file tree path => finish (reportFile tree path (← readFile path))
  | .dialogue tree =>
    IO.print banner
    hold tree (← IO.getStdin) (← IO.getStdout) .new
