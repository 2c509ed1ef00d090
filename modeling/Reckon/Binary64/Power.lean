import Reckon.Binary64.FixedPoint
import Reckon.Binary64.Nearest

/-! One value raised to the power of another. -/

namespace Reckon.Binary64

/-- Whether a value is a whole number. -/
def isInteger (x : Binary64) : Bool := x.isFinite && x.toRat.den == 1

/-- Whether a value is an odd whole number. -/
def isOdd (x : Binary64) : Bool := x.isInteger && x.toRat.num % 2 == 1

/-- A power of a positive magnitude, with a sign put in front. -/
def powerOfMagnitude (negative : Bool) (rank : Nat) (exponent : Rat) : Binary64 :=
  let logarithm := (FixedPoint.logUnits (units rank) * exponent.num).tdiv exponent.den
  -- Far outside the range of finite values only the direction matters.
  if 2000 * FixedPoint.one < logarithm then .infinity negative
  else if logarithm < -2000 * FixedPoint.one then zero negative
  else nearest negative (signed negative (FixedPoint.exponential logarithm))

/-- A power with an infinite exponent, which only the size of the base decides. -/
def powerAtInfinity (base : Binary64) (negativeExponent : Bool) : Binary64 :=
  let vanishing := if negativeExponent then .infinity false else zero false
  let growing := if negativeExponent then zero false else .infinity false
  match base with
  | .nan _ => .quietNaN
  | .infinity _ => growing
  | .finite _ rank =>
    if magnitude rank < 1 then vanishing else if 1 < magnitude rank then growing else one

/--
The power.

A zero exponent and a base of one give one even beside a quiet NaN. A negative base takes whole
exponents only, and the odd ones keep its sign, which also holds of the two zeros and the two
infinities.
-/
def power (base exponent : Binary64) : Binary64 :=
  if base.isSignaling || exponent.isSignaling then .quietNaN
  else if exponent.equals (zero false) || base = one then one
  else match base, exponent with
    | .nan _, _ => .quietNaN
    | _, .nan _ => .quietNaN
    | base, .infinity negative => powerAtInfinity base negative
    | .infinity s, .finite t _ =>
      let negative := s && exponent.isOdd
      if t then zero negative else .infinity negative
    | .finite s a, .finite t _ =>
      let negative := s && exponent.isOdd
      if a.val = 0 then
        if t then .infinity negative else zero negative
      else if s && !exponent.isInteger then .quietNaN
      else powerOfMagnitude negative a exponent.toRat

end Reckon.Binary64
