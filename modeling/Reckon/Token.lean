import Reckon.Operator

/-! The kinds of lexeme, and how much of a text the longest one at its start takes. -/

namespace Reckon

/-- A kind of lexeme. -/
inductive Token where
  | hexadecimal
  | binary
  | decimal
  | name
  | plus
  | minus
  | star
  | slash
  | caret
  | equals
  | leftParen
  | rightParen
  deriving DecidableEq

/-- Whether a character is a digit to base sixteen. -/
def isHexDigit (c : Char) : Bool :=
  c.isDigit || ('a' ≤ c && c ≤ 'f') || ('A' ≤ c && c ≤ 'F')

/-- Whether a character is a digit to base two. -/
def isBinaryDigit (c : Char) : Bool := c == '0' || c == '1'

namespace Token

/-- Every kind, with its name, in the order they are listed to the user. -/
def all : List Token :=
  [.hexadecimal, .binary, .decimal, .name, .plus, .minus, .star, .slash, .caret, .equals,
    .leftParen, .rightParen]

/-- The binary operator that a kind writes, if it writes one. -/
def operator? : Token → Option Operator
  | .plus => some .add
  | .minus => some .subtract
  | .star => some .multiply
  | .slash => some .divide
  | .caret => some .power
  | _ => none

/-- The hexadecimal literal at the start of a text: a marker and at least one digit. -/
def leadingHexadecimal? : List Char → Option (List Char)
  | '0' :: 'x' :: rest =>
    let digits := rest.takeWhile isHexDigit
    if digits.isEmpty then none else some ('0' :: 'x' :: digits)
  | _ => none

/-- The binary literal at the start of a text: at least one digit and a marker. -/
def leadingBinary? (text : List Char) : Option (List Char) :=
  let digits := text.takeWhile isBinaryDigit
  match digits.isEmpty, text.dropWhile isBinaryDigit with
  | false, 'b' :: _ => some (digits ++ ['b'])
  | _, _ => none

/-- The decimal literal at the start of a text: digits, and a point only if more digits follow. -/
def leadingDecimal? (text : List Char) : Option (List Char) :=
  let whole := text.takeWhile Char.isDigit
  if whole.isEmpty then none
  else match text.dropWhile Char.isDigit with
    | '.' :: rest =>
      let fraction := rest.takeWhile Char.isDigit
      some (if fraction.isEmpty then whole else whole ++ '.' :: fraction)
    | _ => some whole

/-- The name at the start of a text: at least one letter. -/
def leadingName? (text : List Char) : Option (List Char) :=
  let letters := text.takeWhile Char.isAlpha
  if letters.isEmpty then none else some letters

/-- The kind of lexeme that a single character makes by itself. -/
def ofSymbol? : Char → Option Token
  | '+' => some .plus
  | '-' => some .minus
  | '*' => some .star
  | '/' => some .slash
  | '^' => some .caret
  | '=' => some .equals
  | '(' => some .leftParen
  | ')' => some .rightParen
  | _ => none

/-- The symbol at the start of a text. -/
def leadingSymbol? : List Char → Option (Token × List Char)
  | c :: _ => (ofSymbol? c).map fun token => (token, [c])
  | [] => none

/--
The longest lexeme at the start of a text, with its characters.

A hexadecimal or a binary literal is always longer than the decimal literal it starts with, and no
other two kinds start alike, so the first kind that fits in this order is the longest.
-/
def leading? (text : List Char) : Option (Token × List Char) :=
  ((leadingHexadecimal? text).map fun taken => (.hexadecimal, taken)) <|>
  ((leadingBinary? text).map fun taken => (.binary, taken)) <|>
  ((leadingDecimal? text).map fun taken => (.decimal, taken)) <|>
  ((leadingName? text).map fun taken => (.name, taken)) <|>
  leadingSymbol? text

end Token

end Reckon
