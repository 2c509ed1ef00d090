import Reckon.Binary64.FixedPoint
import Reckon.Binary64.Nearest

/-! The sine and the cosine of an angle in radians. -/

namespace Reckon.Binary64

/-- The sine of an exact angle and a number of quarter turns more, which an exact zero may round to
with either sign. -/
def sineOf (zeroNegative : Bool) (quarters : Int) (angle : Rat) : Binary64 :=
  let exact := FixedPoint.sineAfterQuarters quarters (FixedPoint.ofRat angle)
  nearest zeroNegative (FixedPoint.toRat exact)

/-- The sine, which keeps the sign of a zero and is undefined at infinity. -/
def sine : Binary64 → Binary64
  | .finite negative rank => sineOf negative 0 (signed negative (magnitude rank))
  | _ => .quietNaN

/-- The cosine, which is the sine a quarter turn ahead. -/
def cosine : Binary64 → Binary64
  | .finite negative rank => sineOf false 1 (signed negative (magnitude rank))
  | _ => .quietNaN

end Reckon.Binary64
