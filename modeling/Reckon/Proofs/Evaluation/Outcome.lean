import Reckon.Proofs.Tree.Placement
import Reckon.Session

/-! What evaluation comes to, without the reports that it makes on the way. -/

namespace Reckon

namespace Expr

/-- The value of a tree over some bindings, and the bindings afterwards. -/
def outcome (tree : Expr) (bindings : Bindings) : Binary64 × Bindings :=
  ((tree.evaluate bindings).value, (tree.evaluate bindings).bindings)

section Equations

variable (bindings : Bindings) (span : Span)

/-- A literal has its own value and leaves the bindings alone. -/
@[simp] theorem outcome_literal (kind : LiteralKind) (text : String) (value : Binary64) :
    (literal kind text value span).outcome bindings = (value, bindings) := rfl

/-- A variable has the value that its name is bound to and leaves the bindings alone. -/
@[simp] theorem outcome_reference (name : String) :
    (reference name span).outcome bindings = (bindings.lookup name, bindings) := rfl

/-- An assignment has the value of its tree, which it then binds to its name. -/
@[simp] theorem outcome_assignment (target : Identifier) (value : Expr) :
    (assignment target value span).outcome bindings =
      ((value.outcome bindings).1,
        (value.outcome bindings).2.bind target.name (value.outcome bindings).1) := rfl

/-- An operation evaluates its left operand first and its right one over what that leaves. -/
@[simp] theorem outcome_operation (left right : Expr) (operator : Operator) :
    (operation left operator right span).outcome bindings =
      (operator.apply (left.outcome bindings).1 (right.outcome (left.outcome bindings).2).1,
        (right.outcome (left.outcome bindings).2).2) := rfl

/-- A call applies its function to the value of the argument. -/
@[simp] theorem outcome_call (function : NamedFunction) (argument : Expr) :
    (call function argument span).outcome bindings =
      (function.apply (argument.outcome bindings).1, (argument.outcome bindings).2) := rfl

/-- Parentheses add nothing to what is between them. -/
@[simp] theorem outcome_parenthesized (inner : Expr) :
    (parenthesized inner span).outcome bindings = inner.outcome bindings := rfl

/-- A header drops all bindings and has the value zero. -/
@[simp] theorem outcome_header (text : String) :
    (header text span).outcome bindings = (.zero false, .empty) := rfl

end Equations

/-- What a tree comes to is a matter of its shape. -/
@[simp] theorem outcome_shape (tree : Expr) (bindings : Bindings) :
    tree.shape.outcome bindings = tree.outcome bindings := by
  -- Evaluation reads values, names and operators, which a shape keeps.
  induction tree generalizing bindings with
  | literal => rfl
  | reference => rfl
  | assignment target value span ih => simp [shape, ih]
  | operation left operator right span leftIh rightIh => simp [shape, leftIh, rightIh]
  | call function argument span ih => simp [shape, ih]
  | parenthesized inner span ih => simp [shape, ih]
  | header => rfl

/-- The place of a tree does not matter to what it comes to. -/
@[simp] theorem outcome_shift (tree : Expr) (distance : Nat) (bindings : Bindings) :
    (tree.shift distance).outcome bindings = tree.outcome bindings := by
  rw [← outcome_shape, shape_shift, outcome_shape]

end Expr

/-- A line has a value in a session and leaves a session behind. -/
structure Session.Yields (session : Session) (line : String) (value : Binary64)
    (next : Session) : Prop where
  answer_eq : (session.evaluate line).answer = .ok value
  session_eq : (session.evaluate line).session = next

/-- A line yields what its tree comes to. -/
theorem Session.yields_iff {session next : Session} {line : String} {value : Binary64} :
    session.Yields line value next ↔
      ∃ tree, parse line = .ok tree ∧ tree.outcome session.bindings = (value, next.bindings) := by
  constructor
  · intro yields
    obtain ⟨answer, left⟩ := yields
    cases parsed : parse line with
    -- A line that is refused is answered with its error.
    | error error => simp [evaluate, parsed] at answer
    | ok tree =>
      simp only [evaluate, parsed, run, Except.ok.injEq] at answer left
      exact ⟨tree, rfl, Prod.ext answer (congrArg Session.bindings left)⟩
  · intro found
    obtain ⟨tree, parsed, outcome⟩ := found
    obtain ⟨value_eq, bindings_eq⟩ := Prod.mk.inj outcome
    constructor
    · simpa [evaluate, parsed, run] using value_eq
    · obtain ⟨bindings⟩ := next
      simpa [evaluate, parsed, run] using bindings_eq

end Reckon
