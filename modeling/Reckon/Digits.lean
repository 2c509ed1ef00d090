import Reckon.Binary64.Arithmetic

/-! Runs of digits to any base up to thirty-six, and the binary64 values they are read as. -/

namespace Reckon

/-- The value of a character as a digit to a base, where letters of either case follow nine. -/
def digitValue? (radix : Nat) (c : Char) : Option Nat :=
  let value :=
    if c.isDigit then c.toNat - '0'.toNat
    else if c.isLower then c.toNat - 'a'.toNat + 10
    else if c.isUpper then c.toNat - 'A'.toNat + 10
    else radix
  if value < radix then some value else none

/-- The number that a run of digits denotes. -/
def valueOfDigits (radix : Nat) (digits : List Nat) : Nat :=
  digits.foldl (fun total digit => total * radix + digit) 0

/-- The number that a text denotes: at least one digit, behind at most one plus sign. -/
def wholeNumber? (radix : Nat) (text : List Char) : Option Nat :=
  let digits := match text with
    | '+' :: rest => rest
    | _ => text
  if digits.isEmpty then none else (digits.mapM (digitValue? radix)).map (valueOfDigits radix)

/-- The least number that is too wide to be rounded in one step. -/
def wideBound : Nat := 1 <<< 128

namespace Binary64

/--
A run of digits folded from the left, rounding after each digit.

Characters that are not digits are passed over.
-/
def foldDigits (radix : Nat) (text : List Char) : Binary64 :=
  (text.filterMap (digitValue? radix)).foldl
    (fun total digit => total.multiplyAdd (ofNat radix) (ofNat digit)) (zero false)

/--
The value of a run of digits.

A number below the bound is rounded once. Anything else, which includes a text that is no number
at all, is folded digit by digit.
-/
def ofDigits (radix : Nat) (text : List Char) : Binary64 :=
  match (wholeNumber? radix text).filter (· < wideBound) with
  | some number => ofNat number
  | none => foldDigits radix text

/-- The value of a run of digits to a base that the ten digits and the letters are enough for. -/
def ofDigits? (digits : String) (radix : Nat) : Option Binary64 :=
  if 2 ≤ radix && radix ≤ 36 then some (ofDigits radix digits.toList) else none

end Binary64

end Reckon
