import Reckon.Proofs.Evaluation.Computation

/-! What the trace of an evaluation says: one value for each node, which follows from others. -/

namespace Reckon

/--
What a name is worth behind some changes to bindings.

It is the last value that the name got since all was dropped. Without one it is what the name was
bound to at first, unless all was dropped, and zero if it was not bound.
-/
def Bindings.worth (bindings : Bindings) (changes : List Change) (name : String) : Binary64 :=
  match Change.latest? changes name with
  | some value => value
  | none => if .clear ∈ changes then .zero false else bindings.lookup name

/-- A name is worth what it is bound to when the changes have been made. -/
theorem Bindings.lookup_changeAll (bindings : Bindings) (changes : List Change) (name : String) :
    (bindings.changeAll changes).lookup name = bindings.worth changes name := by
  rw [lookup, get?_changeAll, worth]
  -- Without a value of its own the name is worth what it was, or zero behind a header.
  cases Change.latest? changes name with
  | some value => rfl
  | none => by_cases dropped : Change.clear ∈ changes <;> simp [dropped, lookup]

/-- Whether the value of a node follows from what was computed before it, over some bindings. -/
def Computation.Follows (bindings : Bindings) (earlier : List Computation)
    (computation : Computation) : Prop :=
  match computation.node with
  | .literal _ _ value _ => computation.value = value
  | .reference name _ =>
    computation.value = bindings.worth (earlier.filterMap Computation.change?) name
  | .assignment _ inner _ => earlier.getLast? = some ⟨inner, computation.value⟩
  | .operation left operator right _ =>
    -- The right operand comes last, and the left one in front of the nodes of the right one.
    ∃ front leftValue between rightValue,
      earlier = front ++ ⟨left, leftValue⟩ :: (between ++ [⟨right, rightValue⟩]) ∧
      between.map Computation.node ++ [right] = right.postorder ∧
      computation.value = operator.apply leftValue rightValue
  | .call function argument _ =>
    ∃ value, earlier.getLast? = some ⟨argument, value⟩ ∧ computation.value = function.apply value
  | .parenthesized inner _ => earlier.getLast? = some ⟨inner, computation.value⟩
  | .header _ _ => computation.value = .zero false

/-- Whether every value follows from those before it. -/
def Consistent (bindings : Bindings) (computations : List Computation) : Prop :=
  ∀ earlier computation later, computations = earlier ++ computation :: later →
    computation.Follows bindings earlier

/-- Values that follow from each other are followed by one more that does from them. -/
theorem Consistent.concat {bindings : Bindings} {computations : List Computation}
    (consistent : Consistent bindings computations) {last : Computation}
    (follows : last.Follows bindings computations) :
    Consistent bindings (computations ++ [last]) := by
  intro earlier computation later cut
  -- The value in question is the last one or one of those before it.
  rcases List.eq_nil_or_concat later with rfl | ⟨front, final, rfl⟩
  · obtain ⟨rfl, same⟩ := List.append_inj' cut rfl
    exact (List.cons.inj same).1 ▸ follows
  · rw [List.concat_eq_append, ← List.cons_append, ← List.append_assoc] at cut
    obtain ⟨whole, _⟩ := List.append_inj' cut rfl
    exact consistent earlier computation front whole

/-- What a tree computes follows from itself and from what was computed before, in this order. -/
theorem Consistent.append_computations {bindings : Bindings} {earlier : List Computation}
    (consistent : Consistent bindings earlier) (tree : Expr) {current : Bindings}
    (reached : bindings.changeAll (earlier.filterMap Computation.change?) = current) :
    Consistent bindings (earlier ++ tree.computations current) := by
  -- Behind a child the bindings are those that the changes so far have led to.
  induction tree generalizing earlier current with
  | literal | header => exact consistent.concat rfl
  | reference name span =>
    refine consistent.concat ?_
    show current.lookup name = bindings.worth (earlier.filterMap Computation.change?) name
    rw [← Bindings.lookup_changeAll, reached]
  | assignment target value span ih =>
    have below := ih consistent reached
    rw [Expr.computations, ← List.append_assoc]
    exact below.concat (by simp [Computation.Follows])
  | operation left operator right span leftIh rightIh =>
    have leftBelow := leftIh consistent reached
    -- Behind the left operand the changes have led to the bindings that it leaves.
    have between : bindings.changeAll
        ((earlier ++ left.computations current).filterMap Computation.change?) =
          (left.outcome current).2 := by
      rw [List.filterMap_append, Bindings.changeAll_append, reached, left.changeAll_computations]
    have below := rightIh leftBelow between
    obtain ⟨leftFront, leftEq⟩ := left.exists_computations_eq current
    obtain ⟨rightFront, rightEq⟩ := right.exists_computations_eq (left.outcome current).2
    -- The values between the two operands are those of the nodes of the right one.
    have ordered := right.map_node_computations (left.outcome current).2
    rw [Expr.computations, ← List.append_assoc, ← List.append_assoc]
    refine below.concat ⟨earlier ++ leftFront, (left.outcome current).1, rightFront,
      (right.outcome (left.outcome current).2).1, ?_, ?_, rfl⟩
    · simp [leftEq, rightEq]
    · simpa [rightEq] using ordered
  | call function value span ih =>
    have below := ih consistent reached
    rw [Expr.computations, ← List.append_assoc]
    exact below.concat ⟨(value.outcome current).1, by simp, rfl⟩
  | parenthesized value span ih =>
    have below := ih consistent reached
    rw [Expr.computations, ← List.append_assoc]
    exact below.concat (by simp [Computation.Follows])

/-- What the trace of an evaluation says about the values that the nodes of a tree get. -/
structure Traced (tree : Expr) (bindings : Bindings) (computations : List Computation) : Prop
    extends Traces tree bindings computations where
  /-- Every node gets one value and no more. -/
  complete : (computations.map Computation.node).Perm tree.nodes
  /-- Every value follows from those that were computed before it. -/
  consistent : Consistent bindings computations
  /-- The value that comes last is that of the whole tree. -/
  last : computations.getLast? = some ⟨tree, (tree.evaluate bindings).value⟩

/--
Evaluation traces every node of a tree once, in the order of the values, which are consistent.

The value of a variable is the one last computed for an assignment to its name. The others follow
from the values of the children, each of which is computed once.
-/
theorem exists_traced (tree : Expr) (bindings : Bindings) :
    ∃ computations, Traced tree bindings computations := by
  have traces := tree.traces_computations bindings
  -- Before the first node there is no value that could fail to follow.
  have nothing : Consistent bindings [] := by simp [Consistent]
  refine ⟨tree.computations bindings, traces, ?_, ?_, ?_⟩
  · exact traces.ordered ▸ tree.postorder_perm
  · exact nothing.append_computations tree rfl
  · exact tree.getLast?_computations bindings

end Reckon
