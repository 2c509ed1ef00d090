import Reckon.Binary64.Basic

/-! Rounding an exact number to the nearest binary64 value, ties to the even neighbour. -/

namespace Reckon

/-- The integer nearest to a quotient, and the even one of two that are equally near. -/
def roundedQuotient (num den : Nat) : Nat :=
  let quotient := num / den
  let twice := 2 * (num % den)
  if twice < den then quotient
  else if twice = den then quotient + quotient % 2
  else quotient + 1

/--
The rank of the magnitude nearest to a quotient of units of 2^-1074.

The whole part of the quotient fixes the scale at which the significand has fifty-three bits.
A significand that rounds up to fifty-four bits runs into the next block of ranks by itself, and
a magnitude past the last finite one gets a rank past the last finite rank.
-/
def nearestRank (num den : Nat) : Nat :=
  let scale := (num / den).log2 - 52
  scale * blockSize + roundedQuotient num (den <<< scale)

namespace Binary64

/-- The value of a rank and a sign, which is infinite past the last finite rank. -/
def ofRank (negative : Bool) (rank : Nat) : Binary64 :=
  if finite : rank < finiteCount then .finite negative ⟨rank, finite⟩ else .infinity negative

/--
The value nearest to an exact number.

An exact zero has no sign of its own and takes the one given. A number too small for any nonzero
magnitude becomes a zero that keeps the number's sign.
-/
def nearest (zeroNegative : Bool) (exact : Rat) : Binary64 :=
  let negative := if exact.num = 0 then zeroNegative else decide (exact.num < 0)
  ofRank negative (nearestRank (exact.num.natAbs * unitsPerOne) exact.den)

/-- The value nearest to a natural number. -/
def ofNat (n : Nat) : Binary64 := nearest false n

end Binary64

end Reckon
