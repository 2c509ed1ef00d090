import Reckon.Binary64.Nearest
import Reckon.Decimal

/-! The shortest decimal that reads back as a given binary64 value. -/

namespace Reckon

/-- The magnitude of a finite value as a decimal with every one of its digits. -/
def exactDecimal (rank : Nat) : Decimal :=
  -- A unit is a half to the power 1074, which is a five to that power in as many places.
  ⟨units rank * Nat.pow 5 1074, 1074⟩

/-- The multiple of a power of ten with the given count, in as few places as that power needs. -/
def onGrid (count : Nat) (exponent : Int) : Decimal :=
  if 0 ≤ exponent then ⟨count * Nat.pow 10 exponent.toNat, 0⟩ else ⟨count, (-exponent).toNat⟩

/-- Whether reading a decimal gives the magnitude of a rank. -/
def readsBack (rank : Nat) (d : Decimal) : Bool :=
  Binary64.nearest false d.toRat = Binary64.ofRank false rank

/--
The one of two neighbours of a magnitude that is told to read back as it, if there is one.

When both neighbours do, the nearer one is taken, and the upper one when they are equally near.
-/
def pickReading? (exact : Rat) (lower upper : Decimal) :
    (lowerReads : Bool) → (upperReads : Bool) → Option Decimal
  | true, true => some (if exact - lower.toRat < upper.toRat - exact then lower else upper)
  | true, false => some lower
  | false, true => some upper
  | false, false => none

/-- The multiple of a power of ten that reads back as a magnitude, if there is one. -/
def readingOnGrid? (rank : Nat) (exponent : Int) : Option Decimal :=
  let exact := magnitude rank
  -- Counting whole steps below the magnitude avoids a negative power of ten.
  let steps :=
    if 0 ≤ exponent then exact / 10 ^ exponent.toNat else exact * 10 ^ (-exponent).toNat
  let lower := onGrid steps.floor.toNat exponent
  let upper := onGrid (steps.floor.toNat + 1) exponent
  pickReading? exact lower upper (readsBack rank lower) (readsBack rank upper)

/-- The first reading on successively finer grids, and the exact decimal if none of them has one. -/
def firstReading (rank : Nat) : (grids : Nat) → (exponent : Int) → Decimal
  | 0, _ => exactDecimal rank
  | grids + 1, exponent =>
    (readingOnGrid? rank exponent).getD (firstReading rank grids (exponent - 1))

/-- An exponent whose power of ten is no smaller than a magnitude and at most ten times it. -/
def coarsestExponent (rank : Nat) : Int :=
  let exact := magnitude rank
  if 1 ≤ exact then (Nat.toDigits 10 exact.floor.toNat).length
  else 1 - (Nat.toDigits 10 exact⁻¹.floor.toNat).length

/--
The decimal with the fewest digits that reads back as a magnitude.

Seventeen digits always suffice, so the search ends within eighteen grids of the coarsest one.
-/
def shortestDecimal (rank : Nat) : Decimal :=
  if rank = 0 then ⟨0, 0⟩ else firstReading rank 18 (coarsestExponent rank)

/--
The text of a value.

A finite value has the shortest digits that read back as it, never an exponent, and a point only
where digits follow it. The sign of zero is written and NaN has none.
-/
def Binary64.text : Binary64 → String
  | .nan _ => "NaN"
  | .infinity negative => if negative then "-inf" else "inf"
  | .finite negative rank =>
    let digits := (shortestDecimal rank).toChars
    String.ofList (if negative then '-' :: digits else digits)

end Reckon
