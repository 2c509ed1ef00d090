import Reckon.Span
import Reckon.Text.Bytes
import Reckon.Token

/-! A line split into lexemes. -/

namespace Reckon

/-- A piece of a line that is one unit to the grammar. -/
structure Lexeme where
  /-- The kind of the piece, and none for a character that starts no lexeme of any kind. -/
  token : Option Token
  /-- Where the piece stands in the line. -/
  span : Span
  /-- The characters of the piece. -/
  text : String
  deriving DecidableEq

namespace Lexeme

/-- Whether the lexeme is of a given kind. -/
def isToken (lexeme : Lexeme) (token : Token) : Bool := lexeme.token == some token

/-- The lexeme of some characters that start at an offset. -/
def ofChars (token : Option Token) (offset : Nat) (taken : List Char) : Lexeme :=
  ⟨token, ⟨offset, byteLength taken⟩, String.ofList taken⟩

end Lexeme

/--
The lexemes of a text that starts at a byte offset.

The first argument counts the characters that still belong to the lexeme before.
-/
def lexemesFrom : (taken : Nat) → (offset : Nat) → List Char → List Lexeme
  | _, _, [] => []
  | taken + 1, offset, c :: rest => lexemesFrom taken (offset + c.utf8Size) rest
  | 0, offset, c :: rest =>
    let following (taken : Nat) := lexemesFrom taken (offset + c.utf8Size) rest
    if isGap c then following 0
    else match Token.leading? (c :: rest) with
      | some (token, taken) =>
        Lexeme.ofChars (some token) offset taken :: following (taken.length - 1)
      | none => Lexeme.ofChars none offset [c] :: following 0
termination_by structural _ _ text => text

/-- The lexemes of a line, which skip spaces and tabs and nothing else. -/
def lexemesOf (line : String) : List Lexeme := lexemesFrom 0 0 line.toList

end Reckon
