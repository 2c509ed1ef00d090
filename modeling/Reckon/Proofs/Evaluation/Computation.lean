import Reckon.Proofs.Evaluation.Change
import Reckon.Proofs.Evaluation.Outcome
import Reckon.Proofs.Tree.Replacement

/-! The values that a tree computes on the way, one for each of its nodes. -/

namespace Reckon

/-- Every node of a tree, each behind its children and those from left to right. -/
def Expr.postorder : Expr → List Expr
  | tree@(.literal ..) => [tree]
  | tree@(.reference ..) => [tree]
  | tree@(.assignment _ value _) => value.postorder ++ [tree]
  | tree@(.operation left _ right _) => left.postorder ++ right.postorder ++ [tree]
  | tree@(.call _ argument _) => argument.postorder ++ [tree]
  | tree@(.parenthesized inner _) => inner.postorder ++ [tree]
  | tree@(.header ..) => [tree]

/-- The same nodes stand in front of their children and behind them. -/
theorem Expr.postorder_perm (tree : Expr) : tree.postorder.Perm tree.nodes := by
  -- A node moves from one end to the other, and its children stay in their order.
  induction tree with
  | literal | reference | header => exact .refl _
  | assignment target value span ih | call function value span ih | parenthesized value span ih =>
    exact (List.perm_append_singleton _ _).trans (ih.cons _)
  | operation left operator right span leftIh rightIh =>
    exact (List.perm_append_singleton _ _).trans ((leftIh.append rightIh).cons _)

/-- A node with the value that it has got. -/
structure Computation where
  /-- The node. -/
  node : Expr
  /-- The value of the node. -/
  value : Binary64

namespace Computation

/-- The report that a node has got its value. -/
def event (computation : Computation) : Event :=
  .computed computation.node.kindName computation.node.span computation.value

/-- What the bindings go through when a node gets its value. -/
def change? (computation : Computation) : Option Change :=
  match computation.node with
  | .assignment target _ _ => some (.bind target.name computation.value)
  | .header _ _ => some .clear
  | _ => none

/--
What a node reports in front of its value.

It depends on what is known of the names, which have values where they are bound, and on how many
names are bound.
-/
def remarks (computation : Computation) (known? : String → Option Binary64) (bound : Nat) :
    List Event :=
  match computation.node with
  | .reference name _ => if (known? name).isNone then [.unbound name] else []
  | .assignment target _ _ =>
    [match known? target.name with
    | some previous => .rebound target.name previous computation.value
    | none => .bound target.name computation.value]
  | .header _ _ => [.cleared bound]
  | _ => []

/-- What nodes report when they get their values one after another, the first over some bindings. -/
def reports (bindings : Bindings) : List Computation → List Event
  | [] => []
  | computation :: later =>
    computation.remarks bindings.get? bindings.size ++ computation.event ::
      reports (bindings.changeAll computation.change?.toList) later

end Computation

/-- Whether a report is on something that happens to the bindings. -/
def Event.isRemark : Event → Bool
  | .unbound _ => true
  | .bound .. => true
  | .rebound .. => true
  | .cleared _ => true
  | _ => false

/-- What the bindings go through in a report. -/
def Event.change? : Event → Option Change
  | .bound name value => some (.bind name value)
  | .rebound name _ value => some (.bind name value)
  | .cleared _ => some .clear
  | _ => none

namespace Computation

/-- A first node makes its change in front of those that the others make. -/
theorem filterMap_change?_cons (first : Computation) (others : List Computation) :
    (first :: others).filterMap change? = first.change?.toList ++ others.filterMap change? := by
  -- A node makes one change or none.
  cases change : first.change? <;> simp [change]

/-- Later nodes report over the bindings that the earlier ones leave. -/
theorem reports_append (bindings : Bindings) (earlier later : List Computation) :
    reports bindings (earlier ++ later) =
      reports bindings earlier ++
        reports (bindings.changeAll (earlier.filterMap change?)) later := by
  -- Each node in front hands on the bindings that its change has made.
  induction earlier generalizing bindings with
  | nil => rfl
  | cons first others ih =>
    rw [filterMap_change?_cons, Bindings.changeAll_append]
    simp [reports, ih]

section Remarks

variable (computation : Computation) (known? : String → Option Binary64) (bound : Nat)

/-- What a node reports in front of its value is a remark. -/
theorem isRemark_of_mem {event : Event} (member : event ∈ computation.remarks known? bound) :
    event.isRemark = true := by
  obtain ⟨node, value⟩ := computation
  -- Only references, assignments and headers have something to remark.
  cases node with
  | literal | operation | call | parenthesized => simp [remarks] at member
  | reference name span =>
    cases found : known? name <;> simp_all [remarks, Event.isRemark]
  | assignment target inner span =>
    -- The remark on an assignment tells apart whether the name was bound.
    cases found : known? target.name <;> simp_all [remarks, Event.isRemark]
  | header text span => simp_all [remarks, Event.isRemark]

/-- The bindings go through the same in the remarks of a node as in its change. -/
theorem filterMap_change?_remarks :
    (computation.remarks known? bound).filterMap Event.change? = computation.change?.toList := by
  obtain ⟨node, value⟩ := computation
  cases node with
  | literal | operation | call | parenthesized | header => rfl
  | reference name span =>
    -- That a name is not bound changes nothing.
    cases found : known? name <;> simp [remarks, change?, found, Event.change?]
  | assignment target inner span =>
    -- A name gets the value in either case, bound before or not.
    cases found : known? target.name <;> simp [remarks, change?, found, Event.change?]

end Remarks

/-- Of what nodes report, their values count for a test that no remark passes. -/
theorem filter_reports {test : Event → Bool}
    (remarkless : ∀ event, event.isRemark = true → test event = false) (bindings : Bindings)
    (computations : List Computation) :
    (reports bindings computations).filter test = (computations.map event).filter test := by
  induction computations generalizing bindings with
  | nil => rfl
  | cons first others ih =>
    -- In front of each value there are only remarks, and the test passes none.
    have remarks : (first.remarks bindings.get? bindings.size).filter test = [] := by
      refine List.filter_eq_nil_iff.mpr fun event member => ?_
      simp [remarkless event (isRemark_of_mem _ _ _ member)]
    rw [reports, List.filter_append, remarks, List.nil_append, List.map_cons, List.filter_cons,
      List.filter_cons, ih]

/-- Of what nodes report, the details of the finer kind are their values. -/
theorem filter_trace_reports (bindings : Bindings) (computations : List Computation) :
    (reports bindings computations).filter (fun event => event.level = .trace) =
      computations.map event := by
  -- Remarks are of the coarser kind.
  have remarkless (event : Event) (remark : event.isRemark = true) :
      decide (event.level = .trace) = false := by
    cases event <;> simp_all [Event.isRemark, Event.level]
  rw [filter_reports remarkless]
  refine List.filter_eq_self.mpr fun event member => ?_
  -- Every value is a detail of the finer kind.
  obtain ⟨computation, _, rfl⟩ := List.mem_map.mp member
  rfl

/-- The bindings go through the same in what nodes report as in their changes. -/
theorem filterMap_change?_reports (bindings : Bindings) (computations : List Computation) :
    (reports bindings computations).filterMap Event.change? =
      computations.filterMap change? := by
  induction computations generalizing bindings with
  | nil => rfl
  | cons first others ih =>
    -- The value itself is no change, so the remarks in front of it tell all.
    have own : first.event.change? = none := rfl
    simp [filterMap_change?_cons, reports, filterMap_change?_remarks, own, ih]

end Computation

namespace Expr

/-- The nodes of a tree with the values that they get over some bindings, in the order of that. -/
def computations (tree : Expr) (bindings : Bindings) : List Computation :=
  let below := match tree with
    | .literal .. => []
    | .reference .. => []
    | .assignment _ value _ => value.computations bindings
    | .operation left _ right _ =>
      left.computations bindings ++ right.computations (left.outcome bindings).2
    | .call _ argument _ => argument.computations bindings
    | .parenthesized inner _ => inner.computations bindings
    | .header .. => []
  below ++ [⟨tree, (tree.outcome bindings).1⟩]

/-- A tree gets its own value behind the values of what is below it. -/
theorem exists_computations_eq (tree : Expr) (bindings : Bindings) :
    ∃ below, tree.computations bindings = below ++ [⟨tree, (tree.outcome bindings).1⟩] := by
  cases tree <;> exact ⟨_, rfl⟩

/-- A tree gets its own value last. -/
@[simp] theorem getLast?_computations (tree : Expr) (bindings : Bindings) :
    (tree.computations bindings).getLast? = some ⟨tree, (tree.outcome bindings).1⟩ := by
  obtain ⟨below, whole⟩ := tree.exists_computations_eq bindings
  rw [whole, List.getLast?_concat]

/-- Every node gets one value, behind its children. -/
@[simp] theorem map_node_computations (tree : Expr) (bindings : Bindings) :
    (tree.computations bindings).map Computation.node = tree.postorder := by
  -- The right operand is computed over other bindings, which changes no node.
  induction tree generalizing bindings with
  | literal | reference | header => rfl
  | assignment target value span ih | call function value span ih | parenthesized value span ih =>
    simp [computations, postorder, ih]
  | operation left operator right span leftIh rightIh =>
    simp [computations, postorder, leftIh, rightIh]

/-- The bindings go through the changes that nodes make when they get their values. -/
theorem changeAll_computations (tree : Expr) (bindings : Bindings) :
    bindings.changeAll ((tree.computations bindings).filterMap Computation.change?) =
      (tree.outcome bindings).2 := by
  -- A node makes its own change behind those of the nodes below it.
  induction tree generalizing bindings with
  | literal | reference | header => rfl
  | assignment target value span ih | call function value span ih | parenthesized value span ih =>
    simp [computations, List.filterMap_cons, Computation.change?, ih, Bindings.change]
  | operation left operator right span leftIh rightIh =>
    simp [computations, List.filterMap_cons, Computation.change?, leftIh, rightIh]

/-- Evaluation reports the nodes of a tree one after another, as they get their values. -/
theorem events_evaluate (tree : Expr) (bindings : Bindings) :
    (tree.evaluate bindings).events =
      Computation.reports bindings (tree.computations bindings) := by
  -- Behind its children a node finds the bindings that their changes leave.
  induction tree generalizing bindings with
  | literal | header => rfl
  | reference name span => rfl
  | assignment target value span ih =>
    rw [computations, Computation.reports_append, changeAll_computations, ← ih]
    exact List.append_assoc _ _ _
  | operation left operator right span leftIh rightIh =>
    -- The right operand reports behind the left one, and the operation behind both.
    rw [computations, Computation.reports_append, Computation.reports_append, List.filterMap_append,
      Bindings.changeAll_append, changeAll_computations, changeAll_computations, ← leftIh,
      ← rightIh]
    rfl
  | call function value span ih | parenthesized value span ih =>
    rw [computations, Computation.reports_append, changeAll_computations, ← ih]
    rfl

end Expr

/-- What an evaluation traces: the nodes of a tree, in order, with the values that they get. -/
structure Traces (tree : Expr) (bindings : Bindings) (computations : List Computation) : Prop where
  /-- Nodes get their values behind their children, and those from left to right. -/
  ordered : computations.map Computation.node = tree.postorder
  /-- The details of the finer kind are the values with the kinds and the places of their nodes. -/
  reported : (tree.evaluate bindings).events.filter (fun event => event.level = .trace) =
    computations.map Computation.event

/-- An evaluation traces what the tree computes. -/
theorem Expr.traces_computations (tree : Expr) (bindings : Bindings) :
    Traces tree bindings (tree.computations bindings) := by
  refine ⟨tree.map_node_computations bindings, ?_⟩
  -- What the nodes report is what the evaluation reports, and the finer kind of it is their values.
  rw [tree.events_evaluate bindings, Computation.filter_trace_reports]

end Reckon
