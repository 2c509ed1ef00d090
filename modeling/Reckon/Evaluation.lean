import Reckon.Binary64.Arithmetic
import Reckon.Binary64.Circular
import Reckon.Binary64.Power
import Reckon.Bindings
import Reckon.Event

/-! The value of a syntax tree, what it does to the bindings and what it reports on the way. -/

namespace Reckon

/-- The operator applied to two values. -/
def Operator.apply : Operator → Binary64 → Binary64 → Binary64
  | .add => .add
  | .subtract => .subtract
  | .multiply => .multiply
  | .divide => .divide
  | .power => .power

/-- The function applied to a value, which is an angle in radians. -/
def NamedFunction.apply : NamedFunction → Binary64 → Binary64
  | .sine => .sine
  | .cosine => .cosine

/-- What comes of evaluating a tree. -/
structure Evaluation where
  /-- The value of the tree. -/
  value : Binary64
  /-- The bindings afterwards. -/
  bindings : Bindings
  /-- What happened, in order. -/
  events : List Event
  deriving DecidableEq

namespace Evaluation

/-- Reads a name, and reports it if it is not bound. -/
def read (bindings : Bindings) (name : String) : Evaluation :=
  ⟨bindings.lookup name, bindings, if (bindings.get? name).isNone then [.unbound name] else []⟩

/-- Binds a name to the value just computed, and reports what the name was bound to before. -/
def assign (evaluation : Evaluation) (name : String) : Evaluation :=
  let value := evaluation.value
  -- The right side is worked out by now, so what it bound itself counts as previous.
  let event := match evaluation.bindings.get? name with
    | some previous => Event.rebound name previous value
    | none => Event.bound name value
  ⟨value, evaluation.bindings.bind name value, evaluation.events ++ [event]⟩

/-- Drops every binding, which has the value zero, and reports how many there were. -/
def clear (bindings : Bindings) : Evaluation :=
  ⟨.zero false, .empty, [.cleared bindings.size]⟩

/-- Reports the value of a whole node. -/
def report (evaluation : Evaluation) (tree : Expr) : Evaluation :=
  { evaluation with
    events := evaluation.events ++ [.computed tree.kindName tree.span evaluation.value] }

end Evaluation

/--
The value of a tree over some bindings.

Children are evaluated from left to right and each exactly once. Evaluation never fails: an
unbound name is worth zero, and arithmetic has infinities and NaN for what has no value.
-/
def Expr.evaluate (tree : Expr) (bindings : Bindings) : Evaluation :=
  let unreported : Evaluation := match tree with
    | .literal _ _ value _ => ⟨value, bindings, []⟩
    | .reference name _ => .read bindings name
    | .assignment target value _ => (value.evaluate bindings).assign target.name
    | .operation left operator right _ =>
      -- The right operand sees what the left one has bound.
      let left := left.evaluate bindings
      let right := right.evaluate left.bindings
      ⟨operator.apply left.value right.value, right.bindings, left.events ++ right.events⟩
    | .call function argument _ =>
      let argument := argument.evaluate bindings
      { argument with value := function.apply argument.value }
    | .parenthesized inner _ => inner.evaluate bindings
    | .header _ _ => .clear bindings
  unreported.report tree

end Reckon
