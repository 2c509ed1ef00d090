/-! Elementary functions of fixed-point numbers, far more exact than a binary64 result needs. -/

namespace Reckon.FixedPoint

/--
How many bits stand behind the point.

No binary64 value has more than 1074 of them, and its largest is below 2^1024. What is left over
bounds the error of a product with any such value by well under 2^-400.
-/
def fractionBits : Nat := 1500

/-- The number one. -/
def one : Int := (1 <<< fractionBits : Nat)

/-- The product of two fixed-point numbers. -/
def multiply (left right : Int) : Int := (left * right).tdiv one

/-- The quotient of two fixed-point numbers. -/
def divide (left right : Int) : Int := (left * one).tdiv right

/-- The fixed-point number that agrees with an exact one in every bit there is room for. -/
def ofRat (exact : Rat) : Int := (exact.num * one).tdiv exact.den

/-- The exact number that a fixed-point number stands for. -/
def toRat (x : Int) : Rat := (x : Rat) / one

/-- The integer nearest to a quotient. -/
def roundedRatio (num den : Int) : Int := (2 * num + den).fdiv (2 * den)

/--
The sum of a series whose next term comes from the one before it.

The sum ends with the first term that has no bit left.
-/
def series (next : Nat → Int → Int) : (terms : Nat) → (index : Nat) → (term : Int) → Int
  | 0, _, _ => 0
  | terms + 1, index, term =>
    if term = 0 then 0 else term + series next terms (index + 1) (next index term)

/-- The inverse tangent of one over a whole number greater than one. -/
def arctanReciprocal (n : Nat) : Int :=
  series (fun i term => -(term * (2 * i + 1 : Nat)).tdiv ((2 * i + 3) * n * n : Nat))
    fractionBits 0 (one.tdiv n)

/-- A quarter of a turn, by Machin's formula. -/
def quarterTurn : Int := 8 * arctanReciprocal 5 - 2 * arctanReciprocal 239

/-- The sine of an angle of at most an eighth of a turn. -/
def sineSeries (angle : Int) : Int :=
  let square := multiply angle angle
  series (fun i term => -(multiply square term).tdiv ((2 * i + 2) * (2 * i + 3) : Nat))
    fractionBits 0 angle

/-- The cosine of an angle of at most an eighth of a turn. -/
def cosineSeries (angle : Int) : Int :=
  let square := multiply angle angle
  series (fun i term => -(multiply square term).tdiv ((2 * i + 1) * (2 * i + 2) : Nat))
    fractionBits 0 one

/-- The sine of an angle plus a number of quarter turns. -/
def sineAfterQuarters (quarters : Int) (angle : Int) : Int :=
  let nearest := roundedRatio angle quarterTurn
  let rest := angle - nearest * quarterTurn
  -- Each quarter turn passes from sine to cosine, and every second one changes the sign.
  match ((nearest + quarters) % 4).toNat with
  | 0 => sineSeries rest
  | 1 => cosineSeries rest
  | 2 => -sineSeries rest
  | _ => -cosineSeries rest

/-- Half the logarithm of the ratio of one plus a number to one minus it. -/
def artanh (x : Int) : Int :=
  let square := multiply x x
  series (fun i term => (multiply square term * (2 * i + 1 : Nat)).tdiv (2 * i + 3 : Nat))
    fractionBits 0 x

/-- The natural logarithm of two. -/
def logTwo : Int := 2 * artanh (one.tdiv 3)

/-- The natural logarithm of a positive whole number of units of 2^-1074. -/
def logUnits (units : Nat) : Int :=
  -- The leading bit is split off, which leaves a factor of at least one and below two.
  let leading := units.log2
  let factor := (units * one).tdiv (1 <<< leading : Nat)
  (leading - 1074 : Int) * logTwo + 2 * artanh (divide (factor - one) (factor + one))

/--
The number with sixty-four significant bits that a factor near one is, or the factor itself.

A power that has so few bits is rarely computed without an error in its last bit. A factor that
comes within 2^-1000 of such a number is taken for it, so that a power that lies on a
binary64 value or halfway between two is rounded from where it is.
-/
def snapped (factor : Int) : Int :=
  let step : Int := (1 <<< (fractionBits - 64) : Nat)
  let candidate := roundedRatio factor step * step
  if (factor - candidate).natAbs < 1 <<< (fractionBits - 1000) then candidate else factor

/-- The exponential function, as an exact number for the rounding that follows. -/
def exponential (x : Int) : Rat :=
  let doublings := roundedRatio x logTwo
  let rest := x - doublings * logTwo
  let factor := series (fun i term => (multiply rest term).tdiv (i + 1 : Nat)) fractionBits 0 one
  toRat (snapped factor) * 2 ^ doublings.toNat / 2 ^ (-doublings).toNat

end Reckon.FixedPoint
