import Reckon.Proofs.Evaluation.Frame
import Reckon.Proofs.Grammar.Parsing

/-! The names that are bound behind a tree without a header: those it assigns to, and the others. -/

namespace Reckon

/-- No rule derives a tree with a header in it. -/
theorem Derives.isHeader_eq_false {rule : Rule} {lexemes : List Lexeme} {tree : Expr}
    (derived : Derives rule lexemes tree) : ∀ node ∈ tree.nodes, node.isHeader = false := by
  -- No rule makes a header, so each node that one adds is something else.
  induction derived with
  | alternative listed derived ih => exact ih
  | literal | signed | reference => simp [Expr.nodes, Expr.isHeader]
  | parenthesized left derived right ih | call token keyword derived ih
  | assignment target token derived ih => exact List.forall_mem_cons.mpr ⟨rfl, ih⟩
  | power leftDerived token rightDerived leftIh rightIh
  | fold layer leftDerived token among rightDerived leftIh rightIh =>
    exact List.forall_mem_cons.mpr ⟨rfl, List.forall_mem_append.mpr ⟨leftIh, rightIh⟩⟩

/-- The tree of a line is a header as a whole or has none in it. -/
theorem isHeader_eq_false_of_parse {line : String} {tree : Expr} (parsed : parse line = .ok tree)
    (other : tree.isHeader = false) : ∀ node ∈ tree.nodes, node.isHeader = false := by
  -- A header is the whole of its line.
  cases (derived_of_parse parsed).1 with
  | header occupied signs cut => contradiction
  | expression derived => exact derived.isHeader_eq_false

namespace Expr

section Plain

variable {tree : Expr} (plain : ∀ node ∈ tree.nodes, node.isHeader = false) {name : String}
  (bindings : Bindings)

include plain

/-- A name that a tree does not assign to stays bound to what it was. -/
theorem get?_outcome_of_notMem (unassigned : name ∉ tree.targets) :
    (tree.outcome bindings).2.get? name = bindings.get? name := by
  -- What is left behind are the bindings with the changes of the nodes made.
  rw [← tree.changeAll_computations bindings]
  exact (tree.traces_computations bindings).get?_of_notMem_targets plain unassigned

/-- A name that a tree assigns to is bound afterwards. -/
theorem isSome_get?_outcome (assigned : name ∈ tree.targets) :
    ((tree.outcome bindings).2.get? name).isSome = true := by
  rw [← tree.changeAll_computations bindings]
  have traces := tree.traces_computations bindings
  -- The last assignment binds the name, and nothing drops it again.
  obtain ⟨_, last, _, _, _, _, bound⟩ := traces.exists_last_of_mem_targets plain assigned
  rw [bound, Option.isSome_some]

/-- The names that are bound afterwards are those that were and those that a tree assigns to. -/
theorem mem_names_outcome_iff :
    name ∈ (tree.outcome bindings).2.names ↔ name ∈ bindings.names ∨ name ∈ tree.targets := by
  rw [Bindings.mem_names_iff, Bindings.mem_names_iff]
  -- A name that is assigned to is bound in any case, and another one is left alone.
  by_cases assigned : name ∈ tree.targets
  · simp [assigned, isSome_get?_outcome plain bindings assigned]
  · simp [assigned, get?_outcome_of_notMem plain bindings assigned]

end Plain

end Expr

end Reckon
