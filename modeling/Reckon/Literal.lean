import Reckon.Decimal
import Reckon.Digits
import Reckon.Token

/-! The texts of literals and names, and the values of the literals. -/

namespace Reckon

/-- A way to write a number. -/
inductive LiteralKind where
  | decimal
  | hexadecimal
  | binary
  deriving DecidableEq

/-- Why a text is not a literal. -/
inductive LiteralError where
  | malformed (text : String)
  deriving DecidableEq

/-- The error in words. -/
def LiteralError.message : LiteralError → String
  | .malformed text => "Literal '" ++ text ++ "' contains invalid digits."

namespace LiteralKind

/-- The name of the tree node that a literal of the kind makes. -/
def name : LiteralKind → String
  | .decimal => "DecimalLiteral"
  | .hexadecimal => "HexLiteral"
  | .binary => "BinaryLiteral"

/-- The value of digits with an optional point, behind at most one minus sign. -/
def decimalValue? (text : List Char) : Option Binary64 :=
  let (negative, digits) := match text with
    | '-' :: rest => (true, rest)
    | _ => (false, text)
  -- The sign reaches a zero too, which an exact number alone could not carry.
  (Decimal.ofChars? digits).map fun d => .nearest negative (Binary64.signed negative d.toRat)

/-- The value of at least one digit to a base, behind no sign. -/
def radixValue? (radix : Nat) (digits : List Char) : Option Binary64 :=
  if !digits.isEmpty && digits.all (fun c => (digitValue? radix c).isSome) then
    some (.ofDigits radix digits)
  else none

/-- The value of hexadecimal digits behind their marker. -/
def hexadecimalValue? : List Char → Option Binary64
  | '0' :: 'x' :: digits => radixValue? 16 digits
  | _ => none

/-- The value of binary digits in front of their marker. -/
def binaryValue? (text : List Char) : Option Binary64 :=
  if text.getLast? = some 'b' then radixValue? 2 text.dropLast else none

/-- The value of a text as a literal of the kind, if it is one. -/
def value? : LiteralKind → List Char → Option Binary64
  | .decimal, text => decimalValue? text
  | .hexadecimal, text => hexadecimalValue? text
  | .binary, text => binaryValue? text

/-- Reads a text as a literal of the kind. -/
def read (kind : LiteralKind) (text : String) : Except LiteralError Binary64 :=
  match kind.value? text.toList with
  | some value => .ok value
  | none => .error (.malformed text)

end LiteralKind

/-- Whether a text is a name: letters, and at least one. -/
def isName (text : String) : Bool := !text.isEmpty && text.toList.all Char.isAlpha

end Reckon
