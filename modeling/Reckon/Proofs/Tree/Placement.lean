import Reckon.Proofs.Grammar.Derivation

/-! Trees moved to another place in a line, and what of a tree does not depend on its place. -/

namespace Reckon

namespace Span

/-- The range a number of bytes further on. -/
def shift (span : Span) (distance : Nat) : Span := ⟨span.offset + distance, span.length⟩

/-- A range that is moved by nothing stays where it is. -/
@[simp] theorem shift_zero (span : Span) : span.shift 0 = span := rfl

/-- A range that is moved twice is moved by both distances. -/
@[simp] theorem shift_shift (span : Span) (first second : Nat) :
    (span.shift first).shift second = span.shift (first + second) := by
  simp [shift, Nat.add_assoc]

/-- A range is moved with its start. -/
@[simp] theorem offset_shift (span : Span) (distance : Nat) :
    (span.shift distance).offset = span.offset + distance := rfl

/-- A range is moved as a whole. -/
@[simp] theorem length_shift (span : Span) (distance : Nat) :
    (span.shift distance).length = span.length := rfl

/-- A range is moved with its end. -/
@[simp] theorem stop_shift (span : Span) (distance : Nat) :
    (span.shift distance).stop = span.stop + distance := by
  simp only [stop, shift]
  omega

end Span

namespace Expr

/-- The tree with every range in it a number of bytes further on. -/
def shift (distance : Nat) : Expr → Expr
  | .literal kind text value span => .literal kind text value (span.shift distance)
  | .reference name span => .reference name (span.shift distance)
  | .assignment target value span =>
    .assignment ⟨target.name, target.span.shift distance⟩ (value.shift distance)
      (span.shift distance)
  | .operation left operator right span =>
    .operation (left.shift distance) operator (right.shift distance) (span.shift distance)
  | .call function argument span =>
    .call function (argument.shift distance) (span.shift distance)
  | .parenthesized inner span => .parenthesized (inner.shift distance) (span.shift distance)
  | .header text span => .header text (span.shift distance)

/-- The tree with every range in it forgotten. -/
def shape : Expr → Expr
  | .literal kind text value _ => .literal kind text value ⟨0, 0⟩
  | .reference name _ => .reference name ⟨0, 0⟩
  | .assignment target value _ => .assignment ⟨target.name, ⟨0, 0⟩⟩ value.shape ⟨0, 0⟩
  | .operation left operator right _ => .operation left.shape operator right.shape ⟨0, 0⟩
  | .call function argument _ => .call function argument.shape ⟨0, 0⟩
  | .parenthesized inner _ => .parenthesized inner.shape ⟨0, 0⟩
  | .header text _ => .header text ⟨0, 0⟩

/-- Whether a tree is that of a header. -/
def isHeader : Expr → Bool
  | .header .. => true
  | _ => false

/-- The trees right below a node, from left to right. -/
def children : Expr → List Expr
  | .literal .. => []
  | .reference .. => []
  | .assignment _ value _ => [value]
  | .operation left _ right _ => [left, right]
  | .call _ argument _ => [argument]
  | .parenthesized inner _ => [inner]
  | .header .. => []

/-- The ranges of the children of a node, from left to right, with that of the name assigned to. -/
def childSpans : Expr → List Span
  | .literal .. => []
  | .reference .. => []
  | .assignment target value _ => [target.span, value.span]
  | .operation left _ right _ => [left.span, right.span]
  | .call _ argument _ => [argument.span]
  | .parenthesized inner _ => [inner.span]
  | .header .. => []

/-- A tree that is moved by nothing stays where it is. -/
@[simp] theorem shift_zero (tree : Expr) : tree.shift 0 = tree := by
  induction tree with
  | literal => rfl
  | reference => rfl
  | assignment target value span ih => simp [shift, ih]
  | operation left operator right span leftIh rightIh => simp [shift, leftIh, rightIh]
  | call function argument span ih => simp [shift, ih]
  | parenthesized inner span ih => simp [shift, ih]
  | header => rfl

/-- A tree that is moved twice is moved by both distances. -/
@[simp] theorem shift_shift (tree : Expr) (first second : Nat) :
    (tree.shift first).shift second = tree.shift (first + second) := by
  induction tree with
  | literal => simp [shift]
  | reference => simp [shift]
  | assignment target value span ih => simp [shift, ih]
  | operation left operator right span leftIh rightIh => simp [shift, leftIh, rightIh]
  | call function argument span ih => simp [shift, ih]
  | parenthesized inner span ih => simp [shift, ih]
  | header => simp [shift]

/-- A tree is moved with its range. -/
@[simp] theorem span_shift (tree : Expr) (distance : Nat) :
    (tree.shift distance).span = tree.span.shift distance := by
  cases tree <;> rfl

/-- A tree is moved with its children. -/
@[simp] theorem childSpans_shift (tree : Expr) (distance : Nat) :
    (tree.shift distance).childSpans = tree.childSpans.map (·.shift distance) := by
  cases tree <;> simp [shift, childSpans]

/-- The trees right below a node are moved with it. -/
@[simp] theorem children_shift (tree : Expr) (distance : Nat) :
    (tree.shift distance).children = tree.children.map (·.shift distance) := by
  cases tree <;> rfl

/-- A tree is moved with its nodes. -/
@[simp] theorem nodes_shift (tree : Expr) (distance : Nat) :
    (tree.shift distance).nodes = tree.nodes.map (·.shift distance) := by
  -- A node comes first of its own nodes, and those of its children follow from left to right.
  induction tree with
  | literal => rfl
  | reference => rfl
  | assignment target value span ih => simp [shift, nodes, ih]
  | operation left operator right span leftIh rightIh => simp [shift, nodes, leftIh, rightIh]
  | call function argument span ih => simp [shift, nodes, ih]
  | parenthesized inner span ih => simp [shift, nodes, ih]
  | header => rfl

/-- What passes from a tree to the trees right below holds of every node if it does of the tree. -/
theorem forall_mem_nodes {motive : Expr → Prop}
    (closed : ∀ tree, motive tree → ∀ child ∈ tree.children, motive child) {tree : Expr}
    (own : motive tree) : ∀ node ∈ tree.nodes, motive node := by
  -- Each child has the property by the step, and then all nodes below it by induction.
  induction tree with
  | literal | reference | header => simpa [nodes] using own
  | assignment target value span ih | call function value span ih | parenthesized value span ih =>
    exact List.forall_mem_cons.mpr ⟨own, ih (closed _ own _ List.mem_cons_self)⟩
  | operation left operator right span leftIh rightIh =>
    have inLeft := leftIh (closed _ own _ List.mem_cons_self)
    have inRight := rightIh (closed _ own _ (List.mem_cons_of_mem _ List.mem_cons_self))
    exact List.forall_mem_cons.mpr ⟨own, List.forall_mem_append.mpr ⟨inLeft, inRight⟩⟩

/-- A tree right below a node opens no more levels than the node does. -/
theorem nest_le_of_mem_children {child tree : Expr} (member : child ∈ tree.children) :
    child.nest ≤ tree.nest := by
  cases tree with
  | literal | reference | header => simp [children] at member
  | assignment target value span =>
    obtain rfl := List.mem_singleton.mp member
    exact Nat.le_refl _
  | operation left operator right span =>
    simp only [children, List.mem_cons, List.not_mem_nil, or_false] at member
    simp only [nest]
    -- The right operand of a power opens one level less than is counted for it.
    rcases member with rfl | rfl <;> split <;> omega
  | call function argument span =>
    obtain rfl := List.mem_singleton.mp member
    exact Nat.le_refl _
  | parenthesized inner span =>
    obtain rfl := List.mem_singleton.mp member
    exact Nat.le_succ _

/-- A node of a tree opens no more levels than the tree does. -/
theorem nest_le_of_mem_nodes {node tree : Expr} (member : node ∈ tree.nodes) :
    node.nest ≤ tree.nest := by
  refine forall_mem_nodes (motive := fun node => node.nest ≤ tree.nest) ?_ (Nat.le_refl _) node member
  intro inner bound child member
  exact Nat.le_trans (nest_le_of_mem_children member) bound

/-- The place of a tree does not matter to its shape. -/
@[simp] theorem shape_shift (tree : Expr) (distance : Nat) :
    (tree.shift distance).shape = tree.shape := by
  -- A shape has no ranges, and a shift changes nothing else.
  induction tree with
  | literal => rfl
  | reference => rfl
  | assignment target value span ih => simp [shift, shape, ih]
  | operation left operator right span leftIh rightIh => simp [shift, shape, leftIh, rightIh]
  | call function argument span ih => simp [shift, shape, ih]
  | parenthesized inner span ih => simp [shift, shape, ih]
  | header => rfl

/-- The levels that a tree opens are a matter of its shape. -/
@[simp] theorem nest_shape (tree : Expr) : tree.shape.nest = tree.nest := by
  -- Parentheses and powers are counted, and no range is looked at.
  induction tree with
  | literal => rfl
  | reference => rfl
  | assignment target value span ih => simp [shape, nest, ih]
  | operation left operator right span leftIh rightIh => simp [shape, nest, leftIh, rightIh]
  | call function argument span ih => simp [shape, nest, ih]
  | parenthesized inner span ih => simp [shape, nest, ih]
  | header => rfl

/-- The place of a tree does not matter to the levels that it opens. -/
@[simp] theorem nest_shift (tree : Expr) (distance : Nat) :
    (tree.shift distance).nest = tree.nest := by
  -- Both trees have the same shape.
  rw [← nest_shape, shape_shift, nest_shape]

end Expr

end Reckon
