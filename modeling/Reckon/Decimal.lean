/-! Plain decimal numbers, the text that writes them and the reader that takes it back. -/

namespace Reckon

/-- A nonnegative decimal: a whole number of units in the last of some decimal places. -/
structure Decimal where
  /-- All digits, read as one whole number. -/
  digits : Nat
  /-- How many of the digits stand after the point. -/
  places : Nat
  deriving DecidableEq

namespace Decimal

/-- The number that a decimal stands for. -/
def toRat (d : Decimal) : Rat := (d.digits : Rat) / 10 ^ d.places

/-- The digits of a decimal, with zeros in front until one of them stands before the point. -/
def paddedDigits (d : Decimal) : List Char :=
  let digits := Nat.toDigits 10 d.digits
  List.replicate (d.places + 1 - digits.length) '0' ++ digits

/-- The characters of a decimal, without a point when no digit stands after it. -/
def toChars (d : Decimal) : List Char :=
  let digits := d.paddedDigits
  let whole := digits.take (digits.length - d.places)
  if d.places = 0 then whole else whole ++ '.' :: digits.drop (digits.length - d.places)

/--
Reads digits, and after a point more digits.

Neither side of the point may be empty, and a point without a second side is refused.
-/
def ofChars? (text : List Char) : Option Decimal :=
  let whole := text.takeWhile Char.isDigit
  if whole.isEmpty then none
  else match text.dropWhile Char.isDigit with
    | [] => some ⟨Nat.ofDigitChars 10 whole 0, 0⟩
    | '.' :: fraction =>
      if !fraction.isEmpty && fraction.all Char.isDigit then
        some ⟨Nat.ofDigitChars 10 (whole ++ fraction) 0, fraction.length⟩
      else none
    | _ => none

end Decimal

end Reckon
