import Reckon.Proofs.Evaluation.Outcome
import Reckon.Proofs.Tree.Replacement

/-! Parentheses put around a node, in the text and in the tree. -/

namespace Reckon

/-- A text with a parenthesis put in at each end of a range of it. -/
def enclose? (text : List Char) (span : Span) : Option (List Char) :=
  (replace? [')'] text ⟨span.stop, 0⟩).bind fun closed => replace? ['('] closed ⟨span.offset, 0⟩

/-- Ranges that are moved by the same distance are the same if they were before. -/
@[simp] theorem Span.shift_inj {first second : Span} {distance : Nat} :
    first.shift distance = second.shift distance ↔ first = second := by
  cases first
  cases second
  simp [Span.shift]

namespace Expr

/-- The tree with the node of a range between parentheses. -/
def enclose (place : Span) (tree : Expr) : Expr :=
  if tree.span = place then .parenthesized tree place
  else match tree with
    | .literal kind text value span => .literal kind text value span
    | .reference name span => .reference name span
    | .assignment target value span => .assignment target (value.enclose place) span
    | .operation left operator right span =>
      .operation (left.enclose place) operator (right.enclose place) span
    | .call function argument span => .call function (argument.enclose place) span
    | .parenthesized inner span => .parenthesized (inner.enclose place) span
    | .header text span => .header text span

end Expr

section Text

variable {text enclosed : List Char} {span : Span}

/-- What stands in a range stands between the parentheses, and all else around them. -/
theorem enclose?_between (front middle back : List Char) :
    enclose? (front ++ (middle ++ back)) ⟨byteLength front, byteLength middle⟩ =
      some (front ++ ('(' :: middle ++ ')' :: back)) := by
  -- The right parenthesis is put in first, so the left one has the same place as before.
  have right := replace?_between [')'] (front ++ middle) [] back
  have left := replace?_between ['('] front [] (middle ++ ')' :: back)
  simp only [List.append_assoc, byteLength_append, byteLength_nil, List.nil_append] at right left
  simp only [enclose?, Span.stop, right, Option.bind_some, List.singleton_append]
  simpa using left

/-- A range in a part of a text is enclosed as it is in the part by itself. -/
theorem enclose?_within (front back : List Char) (done : enclose? text span = some enclosed) :
    enclose? (front ++ (text ++ back)) (span.shift (byteLength front)) =
      some (front ++ (enclosed ++ back)) := by
  -- Each of the two replacements is made in the part as it is in the whole.
  obtain ⟨closed, right, left⟩ := Option.bind_eq_some_iff.mp done
  have rightWithin := replace?_within front back right
  have leftWithin := replace?_within front back left
  rw [enclose?, Span.stop_shift]
  exact Option.bind_eq_some_iff.mpr ⟨_, rightWithin, leftWithin⟩

/-- A range that is enclosed ends within the text. -/
theorem stop_le_of_enclose? (done : enclose? text span = some enclosed) :
    span.stop ≤ byteLength text := by
  obtain ⟨closed, right, _⟩ := Option.bind_eq_some_iff.mp done
  -- Where the right parenthesis is put in, that many bytes of the text stand in front of it.
  obtain ⟨before, middle, after, rfl, place, _⟩ := exists_between_of_replace? right
  have stop := congrArg Span.offset place
  rw [byteLength_append]
  simp only at stop
  omega

end Text

namespace Expr

variable {place : Span}

/-- A node of the range is put between parentheses as it is. -/
theorem enclose_of_eq {tree : Expr} (same : tree.span = place) :
    tree.enclose place = .parenthesized tree place := by
  unfold enclose
  exact if_pos same

section Elsewhere

variable {span : Span} (elsewhere : span ≠ place)
include elsewhere

/-- In an assignment of another range the node is enclosed in the value. -/
theorem enclose_assignment (target : Identifier) (value : Expr) :
    (assignment target value span).enclose place =
      .assignment target (value.enclose place) span := by
  rw [enclose]
  exact if_neg elsewhere

/-- In an operation of another range the node is enclosed in the operands. -/
theorem enclose_operation (left right : Expr) (operator : Operator) :
    (operation left operator right span).enclose place =
      .operation (left.enclose place) operator (right.enclose place) span := by
  rw [enclose]
  exact if_neg elsewhere

/-- In a call of another range the node is enclosed in the argument. -/
theorem enclose_call (function : NamedFunction) (argument : Expr) :
    (call function argument span).enclose place =
      .call function (argument.enclose place) span := by
  rw [enclose]
  exact if_neg elsewhere

/-- Between parentheses of another range the node is enclosed in what stands there. -/
theorem enclose_parenthesized (inner : Expr) :
    (parenthesized inner span).enclose place = .parenthesized (inner.enclose place) span := by
  rw [enclose]
  exact if_neg elsewhere

end Elsewhere

/-- A tree without a node of the range stays as it is. -/
theorem enclose_of_forall_ne {tree : Expr} (elsewhere : ∀ node ∈ tree.nodes, node.span ≠ place) :
    tree.enclose place = tree := by
  -- The node itself is of another range, and so are all nodes below it.
  induction tree with
  | literal kind text value span | reference name span | header text span =>
    have own : span ≠ place := elsewhere _ List.mem_cons_self
    rw [enclose]
    exact if_neg own
  | assignment target value span ih =>
    obtain ⟨own, below⟩ := List.forall_mem_cons.mp elsewhere
    rw [enclose_assignment (show span ≠ place from own), ih below]
  | operation left operator right span leftIh rightIh =>
    obtain ⟨own, below⟩ := List.forall_mem_cons.mp elsewhere
    -- The nodes below an operation are those of its two operands.
    obtain ⟨inLeft, inRight⟩ := List.forall_mem_append.mp below
    rw [enclose_operation (show span ≠ place from own), leftIh inLeft, rightIh inRight]
  | call function argument span ih =>
    obtain ⟨own, below⟩ := List.forall_mem_cons.mp elsewhere
    rw [enclose_call (show span ≠ place from own), ih below]
  | parenthesized inner span ih =>
    obtain ⟨own, below⟩ := List.forall_mem_cons.mp elsewhere
    rw [enclose_parenthesized (show span ≠ place from own), ih below]

/-- No node of a tree that is moved starts before the distance. -/
theorem le_offset_of_mem_shift {tree node : Expr} {distance : Nat}
    (member : node ∈ (tree.shift distance).nodes) : distance ≤ node.span.offset := by
  rw [nodes_shift] at member
  -- The node has been moved with the tree, and so has started at zero at the least.
  obtain ⟨unmoved, _, rfl⟩ := List.mem_map.mp member
  rw [span_shift, Span.offset_shift]
  exact Nat.le_add_left _ _

/-- A node is enclosed in a tree that is moved as in the tree where it was. -/
@[simp] theorem enclose_shift (tree : Expr) (distance : Nat) :
    (tree.shift distance).enclose (place.shift distance) =
      (tree.enclose place).shift distance := by
  -- A node that is moved is of the range that is moved exactly when it was before.
  induction tree with
  | literal kind text value span | reference name span | header text span =>
    by_cases same : span = place <;> simp [shift, enclose, Expr.span, same]
  | assignment target value span ih | call target value span ih | parenthesized value span ih =>
    by_cases same : span = place <;> simp [shift, enclose, Expr.span, same, ih]
  | operation left operator right span leftIh rightIh =>
    by_cases same : span = place <;> simp [shift, enclose, Expr.span, same, leftIh, rightIh]

/-- Parentheses around a node do not matter to what a tree comes to. -/
@[simp] theorem outcome_enclose (tree : Expr) (bindings : Bindings) :
    (tree.enclose place).outcome bindings = tree.outcome bindings := by
  -- What is between parentheses comes to what it is by itself, also where it changes bindings.
  induction tree generalizing bindings with
  | literal kind text value span | reference name span | header text span =>
    by_cases same : span = place <;> simp [enclose, Expr.span, same]
  | assignment target value span ih | call target value span ih | parenthesized value span ih =>
    by_cases same : span = place <;> simp [enclose, Expr.span, same, ih]
  | operation left operator right span leftIh rightIh =>
    by_cases same : span = place <;> simp [enclose, Expr.span, same, leftIh, rightIh]

end Expr

end Reckon
