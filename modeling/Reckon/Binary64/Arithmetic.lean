import Reckon.Binary64.Nearest

/-! The four arithmetic operations and the fused multiply-add, each rounded once. -/

namespace Reckon.Binary64

/-- The sum, where opposite infinities have none and an exact zero is negative only if both
operands are. -/
def add : Binary64 → Binary64 → Binary64
  | .nan _, _ => .quietNaN
  | _, .nan _ => .quietNaN
  | .infinity s, .infinity t => if s = t then .infinity s else .quietNaN
  | .infinity s, .finite _ _ => .infinity s
  | .finite _ _, .infinity t => .infinity t
  | .finite s a, .finite t b =>
    nearest (s && t) (signed s (magnitude a) + signed t (magnitude b))

/-- The difference, which is the sum with the second operand's sign changed. -/
def subtract (left right : Binary64) : Binary64 := left.add right.negate

/-- The product, where an infinity times zero has none. -/
def multiply : Binary64 → Binary64 → Binary64
  | .nan _, _ => .quietNaN
  | _, .nan _ => .quietNaN
  | .infinity s, .infinity t => .infinity (s ^^ t)
  | .infinity s, .finite t b => if b.val = 0 then .quietNaN else .infinity (s ^^ t)
  | .finite s a, .infinity t => if a.val = 0 then .quietNaN else .infinity (s ^^ t)
  | .finite s a, .finite t b =>
    nearest (s ^^ t) (signed s (magnitude a) * signed t (magnitude b))

/-- The quotient, which is a signed infinity over zero unless the dividend is zero or NaN too. -/
def divide : Binary64 → Binary64 → Binary64
  | .nan _, _ => .quietNaN
  | _, .nan _ => .quietNaN
  | .infinity _, .infinity _ => .quietNaN
  | .infinity s, .finite t _ => .infinity (s ^^ t)
  | .finite s _, .infinity t => zero (s ^^ t)
  | .finite s a, .finite t b =>
    if b.val = 0 then
      if a.val = 0 then .quietNaN else .infinity (s ^^ t)
    else nearest (s ^^ t) (signed s (magnitude a) / signed t (magnitude b))

/-- The product of two values plus a third, rounded once. -/
def multiplyAdd : Binary64 → Binary64 → Binary64 → Binary64
  | .finite s a, .finite t b, .finite u c =>
    nearest ((s ^^ t) && u)
      (signed s (magnitude a) * signed t (magnitude b) + signed u (magnitude c))
  -- Without three finite operands no rounding happens, so two operations do what one does.
  | .finite _ _, .finite _ _, addend => addend
  | left, right, addend => (left.multiply right).add addend

end Reckon.Binary64
