import Reckon.Grammar
import Reckon.SyntaxError

/-! A position among the lexemes of a line, from which rules are matched. -/

namespace Reckon

/-- How many parentheses and exponents may be open at once. -/
def levelLimit : Nat := 256

/-- A position among the lexemes of a line. -/
structure Cursor where
  /-- The line. -/
  source : String
  /-- The lexemes from the position on. -/
  rest : List Lexeme
  /-- The number of open levels. -/
  depth : Nat
  deriving DecidableEq

namespace Cursor

/-- The position before the first lexeme of a line. -/
def ofLine (line : String) : Cursor := ⟨line, lexemesOf line, 0⟩

/-- How many of the lexemes of the line have been taken. -/
def taken (cursor : Cursor) : Nat := (lexemesOf cursor.source).length - cursor.rest.length

/--
The lexeme a number of places ahead.

The places are added to the lexemes taken in one machine word. A sum that does not fit starts over
from zero, and with it the lexemes from the front of the line.
-/
def ahead? (cursor : Cursor) (places : Nat) : Option Lexeme :=
  (lexemesOf cursor.source)[(cursor.taken + places) % UInt64.size]?

/-- Whether the lexeme a number of places ahead is of a given kind. -/
def isAt (cursor : Cursor) (places : Nat) (token : Token) : Bool :=
  (cursor.ahead? places).any (·.isToken token)

/-- Takes the next lexeme, if there is one. -/
def take? (cursor : Cursor) : Option (Lexeme × Cursor) :=
  match cursor.rest with
  | lexeme :: rest => some (lexeme, { cursor with rest })
  | [] => none

/-- Takes the next lexeme, if it is of a given kind. -/
def takeIf? (cursor : Cursor) (token : Token) : Option (Lexeme × Cursor) :=
  if cursor.rest.head?.any (·.isToken token) then cursor.take? else none

/-- Whether no lexeme is left. -/
def atEnd (cursor : Cursor) : Bool := cursor.rest.isEmpty

/-- The text of a range of the line, which is refused past the end and inside a character. -/
def slice? (cursor : Cursor) (span : Span) : Option String :=
  (Reckon.slice? cursor.source.toList span.offset span.length).map String.ofList

/-- The offset of the next lexeme, or that of the end of the content. -/
def offset (cursor : Cursor) : Nat :=
  match cursor.rest with
  | lexeme :: _ => lexeme.span.offset
  -- Blanks behind the last lexeme are no place for an error.
  | [] => contentLength cursor.source.toList

/-- The error of a rule that fails here, which reaches to the end of the content. -/
def error (cursor : Cursor) (rule : Rule) : SyntaxError :=
  ⟨rule, cursor.offset, contentLength cursor.source.toList - cursor.offset⟩

/-- The number of levels that may still be opened. -/
def free (cursor : Cursor) : Nat := levelLimit - cursor.depth

/-- Opens a level on behalf of a rule. -/
def openLevel (cursor : Cursor) (rule : Rule) : Except SyntaxError Cursor :=
  if levelLimit ≤ cursor.depth then .error (cursor.error rule)
  else .ok { cursor with depth := cursor.depth + 1 }

/-- Closes a level, if one is open. -/
def closeLevel (cursor : Cursor) : Cursor := { cursor with depth := cursor.depth - 1 }

/--
Opens up to a number of levels on behalf of a rule.

It ends with the first one that is refused, and counts those that were opened.
-/
def openLevels (cursor : Cursor) (rule : Rule) : Nat → Nat × Option SyntaxError × Cursor
  | 0 => (0, none, cursor)
  | times + 1 =>
    match cursor.openLevel rule with
    -- No later attempt could do better, as nothing is closed in between.
    | .error error => (0, some error, cursor)
    | .ok below =>
      let (entered, refused, last) := below.openLevels rule times
      (entered + 1, refused, last)

/-- Closes up to a number of levels. -/
def closeLevels (cursor : Cursor) : Nat → Cursor
  | 0 => cursor
  | times + 1 => cursor.closeLevel.closeLevels times

/--
Moves to where a match ended.

A failed match keeps the lexemes it took and the levels it opened.
-/
def settle (cursor : Cursor) : Outcome → Except SyntaxError Expr × Cursor
  | .matched tree rest => (.ok tree, { cursor with rest })
  | .failed rule rest opened =>
    -- The levels stay open, so the same cursor can match less deep from here on.
    let stopped := { cursor with rest, depth := cursor.depth + opened }
    (.error (stopped.error rule), stopped)

/-- Matches a rule from here, with the levels that are free. -/
def run (cursor : Cursor) (rule : (free : Nat) → Matcher) : Except SyntaxError Expr × Cursor :=
  cursor.settle (rule cursor.free cursor.rest)

/-- Matches the rule of a whole line from here. -/
def session (cursor : Cursor) : Except SyntaxError Expr × Cursor :=
  cursor.run (Grammar.session cursor.source)

/-- Matches an expression from here. -/
def expression (cursor : Cursor) : Except SyntaxError Expr × Cursor :=
  cursor.run Grammar.expression

/-- Matches a sum from here. -/
def additive (cursor : Cursor) : Except SyntaxError Expr × Cursor :=
  cursor.run Grammar.additive

/-- Matches a product from here. -/
def multiplicative (cursor : Cursor) : Except SyntaxError Expr × Cursor :=
  cursor.run Grammar.multiplicative

/-- Matches a power from here. -/
def power (cursor : Cursor) : Except SyntaxError Expr × Cursor :=
  cursor.run Grammar.power

/-- Matches an assignment from here, if one starts here. -/
def assignment? (cursor : Cursor) : Option (Except SyntaxError Expr × Cursor) :=
  (Grammar.assignment? cursor.free cursor.rest).map cursor.settle

end Cursor

/-- The tree of a line, or where and why it does not match. -/
def parse (line : String) : Except SyntaxError Expr := (Cursor.ofLine line).session.1

end Reckon
