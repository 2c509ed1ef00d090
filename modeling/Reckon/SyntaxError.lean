import Reckon.Rule
import Reckon.Text.Bytes

/-! The place and the rule at which a line stopped matching, and how they are shown. -/

namespace Reckon

/-- A rule that could not be matched, and the bytes of the line that were left. -/
structure SyntaxError where
  /-- The rule that could not be matched. -/
  rule : Rule
  /-- The byte offset at which matching stopped. -/
  offset : Nat
  /-- The number of bytes from there to the end of the content. -/
  length : Nat
  deriving DecidableEq

namespace SyntaxError

/-- The error in words. -/
def message (error : SyntaxError) : String :=
  "Syntax error while parsing " ++ error.rule.name ++ " at offset " ++ toString error.offset ++ "."

/--
The error as two lines to print below its source.

The first line underlines what was left and ends with a caret. Two spaces make up for the prompt
that the source stands behind.
-/
def diagnostic (error : SyntaxError) (source : String) : String :=
  let first := columnAt source.toList error.offset
  let last := columnAt source.toList (error.offset + error.length)
  "  " ++ String.ofList (List.replicate first ' ' ++ List.replicate (last - first) '~') ++
    "^\n  Syntax error while parsing " ++ error.rule.name

end SyntaxError

end Reckon
