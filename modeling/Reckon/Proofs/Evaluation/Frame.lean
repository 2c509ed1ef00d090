import Reckon.Proofs.Evaluation.Computation

/-! What an evaluation leaves of the bindings, and which of several assignments to a name counts. -/

namespace Reckon

namespace Computation

variable {computation : Computation} {name : String}

/-- A node that assigns to a name binds it to the value of the node. -/
theorem change?_of_target? (assigns : computation.node.target? = some name) :
    computation.change? = some (.bind name computation.value) := by
  obtain ⟨node, value⟩ := computation
  -- Only an assignment names a target, and the change that it makes is to that name.
  cases node with
  | assignment target inner span =>
    obtain rfl := Option.some.inj assigns
    rfl
  | _ => contradiction

/-- Apart from headers, only a node that assigns to a name makes a difference to it. -/
theorem target?_of_concerns (plain : computation.node.isHeader = false) {change : Change}
    (made : computation.change? = some change) (concerns : change.Concerns name) :
    computation.node.target? = some name := by
  obtain ⟨node, value⟩ := computation
  -- An assignment concerns its own target and nothing else, and a header has been excluded.
  cases node with
  | assignment target inner span =>
    obtain rfl := Option.some.inj made
    exact congrArg some concerns
  | _ => contradiction

/-- Nodes that do not assign to a name make no difference to it, if none is a header. -/
theorem not_concerns_of_mem {computations : List Computation}
    (plain : ∀ computation ∈ computations, computation.node.isHeader = false)
    (others : ∀ computation ∈ computations, computation.node.target? ≠ some name) :
    ∀ change ∈ computations.filterMap change?, ¬ change.Concerns name := by
  intro change member concerns
  obtain ⟨computation, among, made⟩ := List.mem_filterMap.mp member
  exact others computation among (target?_of_concerns (plain computation among) made concerns)

/-- Among some nodes of which one assigns to a name, there is a last one that does. -/
theorem exists_last_target {computations : List Computation}
    (found : ∃ computation ∈ computations, computation.node.target? = some name) :
    ∃ earlier last later, computations = earlier ++ last :: later ∧
      last.node.target? = some name ∧ ∀ other ∈ later, other.node.target? ≠ some name := by
  -- The nodes are gone through from the end, where the last assignment is met first.
  induction computations using List.reverseRecOn with
  | nil => simp at found
  | append_singleton computations final ih =>
    by_cases own : final.node.target? = some name
    · exact ⟨computations, final, [], rfl, own, by simp⟩
    · obtain ⟨computation, member, assigns⟩ := found
      -- Since the one at the end does not assign to the name, one in front of it does.
      rcases List.mem_append.mp member with among | last
      · obtain ⟨earlier, last, later, rfl, assigns, others⟩ := ih ⟨computation, among, assigns⟩
        refine ⟨earlier, last, later ++ [final], by simp, assigns, ?_⟩
        exact List.forall_mem_append.mpr ⟨others, by simpa using own⟩
      · exact absurd (List.mem_singleton.mp last ▸ assigns) own

/-- A name is bound to the value of the last node that assigns to it. -/
theorem get?_changeAll_of_last {earlier later : List Computation}
    (assigns : computation.node.target? = some name)
    (plain : ∀ other ∈ later, other.node.isHeader = false)
    (others : ∀ other ∈ later, other.node.target? ≠ some name) (bindings : Bindings) :
    (bindings.changeAll ((earlier ++ computation :: later).filterMap change?)).get? name =
      some computation.value := by
  -- Of the changes that concern the name, this node makes the last one.
  rw [List.filterMap_append, filterMap_change?_cons, change?_of_target? assigns,
    Bindings.changeAll_append, Bindings.changeAll_append,
    Bindings.get?_changeAll_of_forall _ (not_concerns_of_mem plain others)]
  simp [Bindings.change, Bindings.get?_bind]

end Computation

namespace Traces

variable {tree : Expr} {bindings : Bindings} {computations : List Computation}

/-- The nodes that get their values are those of the tree. -/
theorem exists_mem_iff (traces : Traces tree bindings computations) {node : Expr} :
    (∃ computation ∈ computations, computation.node = node) ↔ node ∈ tree.nodes := by
  rw [← tree.postorder_perm.mem_iff, ← traces.ordered, List.mem_map]

/-- The names that are assigned to are the targets of the tree. -/
theorem mem_targets_iff (traces : Traces tree bindings computations) {name : String} :
    name ∈ tree.targets ↔
      ∃ computation ∈ computations, computation.node.target? = some name := by
  -- Targets are collected over the tree, values over its nodes in order: the nodes are the same.
  rw [Expr.targets, List.mem_filterMap]
  constructor
  · intro found
    obtain ⟨node, member, assigns⟩ := found
    obtain ⟨computation, among, rfl⟩ := traces.exists_mem_iff.mpr member
    exact ⟨computation, among, assigns⟩
  · intro found
    obtain ⟨computation, among, assigns⟩ := found
    exact ⟨_, traces.exists_mem_iff.mp ⟨computation, among, rfl⟩, assigns⟩

section Plain

variable (traces : Traces tree bindings computations)
  (plain : ∀ node ∈ tree.nodes, node.isHeader = false)
include traces plain

/-- In a tree without a header no header gets a value. -/
theorem isHeader_eq_false : ∀ computation ∈ computations, computation.node.isHeader = false :=
  fun computation member => plain _ (traces.exists_mem_iff.mp ⟨computation, member, rfl⟩)

/-- A name that a tree does not assign to stays bound to what it was. -/
theorem get?_of_notMem_targets {name : String} (unassigned : name ∉ tree.targets) :
    (bindings.changeAll (computations.filterMap Computation.change?)).get? name =
      bindings.get? name := by
  -- A change to the name would be that of an assignment, whose target it would be.
  refine bindings.get?_changeAll_of_forall
    (Computation.not_concerns_of_mem (traces.isHeader_eq_false plain) ?_)
  intro computation member assigns
  exact unassigned (traces.mem_targets_iff.mpr ⟨computation, member, assigns⟩)

/-- A name that a tree assigns to is bound to the value of the last assignment to it. -/
theorem exists_last_of_mem_targets {name : String} (assigned : name ∈ tree.targets) :
    ∃ earlier last later, computations = earlier ++ last :: later ∧
      last.node.target? = some name ∧ (∀ other ∈ later, other.node.target? ≠ some name) ∧
      (bindings.changeAll (computations.filterMap Computation.change?)).get? name =
        some last.value := by
  have found := traces.mem_targets_iff.mp assigned
  obtain ⟨earlier, last, later, cut, assigns, others⟩ := Computation.exists_last_target found
  have nodes := traces.isHeader_eq_false plain
  rw [cut] at nodes ⊢
  -- Behind the last assignment there is no header either, which would clear the name.
  have behind := (List.forall_mem_cons.mp (List.forall_mem_append.mp nodes).2).2
  exact ⟨earlier, last, later, rfl, assigns, others,
    Computation.get?_changeAll_of_last assigns behind others bindings⟩

/-- A tree without an assignment makes no change. -/
theorem filterMap_change?_eq_nil (unassigned : tree.targets = []) :
    computations.filterMap Computation.change? = [] := by
  refine List.filterMap_eq_nil_iff.mpr fun computation member => ?_
  have header := traces.isHeader_eq_false plain computation member
  -- A node with a target would put the target on the list of the tree.
  have target : computation.node.target? = none := by
    cases found : computation.node.target? with
    | none => rfl
    | some name => simpa [unassigned] using traces.mem_targets_iff.mpr ⟨_, member, found⟩
  -- Only assignments and headers make changes, and the node is neither.
  obtain ⟨node, value⟩ := computation
  cases node <;> simp_all [Computation.change?, Expr.target?, Expr.isHeader]

end Plain

end Traces

/-- What evaluating a tree does to the bindings, of which it traces the values on the way. -/
structure Framed (tree : Expr) (bindings after : Bindings) (computations : List Computation) : Prop
    extends Traces tree bindings computations where
  /-- The names that are bound are those that were and those that the tree assigns to. -/
  bound : ∀ name, name ∈ after.names ↔ name ∈ bindings.names ∨ name ∈ tree.targets
  /-- A name that the tree does not assign to is bound to what it was, or not bound as before. -/
  kept : ∀ name, name ∉ tree.targets → after.get? name = bindings.get? name
  /-- A name that the tree assigns to is bound to the value of the last assignment to it. -/
  written : ∀ name ∈ tree.targets, ∃ earlier last later,
    computations = earlier ++ last :: later ∧ last.node.target? = some name ∧
      (∀ other ∈ later, other.node.target? ≠ some name) ∧ after.get? name = some last.value
  /-- A tree without an assignment changes nothing. -/
  unchanged : tree.targets = [] → after = bindings

/--
A tree without a header changes what the names are bound to that it assigns to, and nothing else.

Each of them is bound to the value of its last assignment, in the order in which the tree computes.
-/
theorem exists_framed {tree : Expr} (plain : ∀ node ∈ tree.nodes, node.isHeader = false)
    (bindings : Bindings) :
    ∃ computations, Framed tree bindings (tree.evaluate bindings).bindings computations := by
  have traces := tree.traces_computations bindings
  -- The bindings are followed through the changes of the nodes, one after the other.
  have reached : (tree.evaluate bindings).bindings =
      bindings.changeAll ((tree.computations bindings).filterMap Computation.change?) :=
    (tree.changeAll_computations bindings).symm
  rw [reached]
  refine ⟨tree.computations bindings, traces, ?_, ?_, ?_, ?_⟩
  · intro name
    -- A name that is assigned to is bound behind its last assignment, any other one as before.
    rw [Bindings.mem_names_iff, Bindings.mem_names_iff]
    by_cases assigned : name ∈ tree.targets
    · obtain ⟨_, _, _, _, _, _, value⟩ := traces.exists_last_of_mem_targets plain assigned
      simp [assigned, value]
    · simp [assigned, traces.get?_of_notMem_targets plain assigned]
  · intro name unassigned
    exact traces.get?_of_notMem_targets plain unassigned
  · intro name assigned
    exact traces.exists_last_of_mem_targets plain assigned
  · intro unassigned
    -- Without targets there is no change to go through.
    rw [traces.filterMap_change?_eq_nil plain unassigned, Bindings.changeAll_nil]

/-- A name is assigned to twice in a line, the second time to a value that depends on the first. -/
theorem framed_rebinding :
    ∃ tree bindings, parse "(x = 2) * (y = x) + (x = x + z)" = .ok tree ∧
      (∀ node ∈ tree.nodes, node.isHeader = false) ∧ tree.targets = ["x", "y", "x"] ∧
      bindings = (Bindings.empty.bind "x" .one).bind "z" (.ofNat 5) ∧
      (tree.evaluate bindings).bindings.entries =
        [("x", .ofNat 7), ("y", .ofNat 2), ("z", .ofNat 5)] ∧
      ∃ computations, Framed tree bindings (tree.evaluate bindings).bindings computations := by
  let tree : Expr :=
    .operation
      (.operation
        (.parenthesized
          (.assignment ⟨"x", ⟨1, 1⟩⟩ (.literal .decimal "2" (.ofNat 2) ⟨5, 1⟩) ⟨1, 5⟩) ⟨0, 7⟩)
        .multiply
        (.parenthesized (.assignment ⟨"y", ⟨11, 1⟩⟩ (.reference "x" ⟨15, 1⟩) ⟨11, 5⟩) ⟨10, 7⟩)
        ⟨0, 17⟩)
      .add
      (.parenthesized
        (.assignment ⟨"x", ⟨21, 1⟩⟩
          (.operation (.reference "x" ⟨25, 1⟩) .add (.reference "z" ⟨29, 1⟩) ⟨25, 5⟩) ⟨21, 9⟩)
        ⟨20, 11⟩)
      ⟨0, 31⟩
  -- The tree is small enough for its nodes to be looked at one by one.
  have plain : ∀ node ∈ tree.nodes, node.isHeader = false := by decide +kernel
  exact ⟨tree, _, by decide +kernel, plain, by decide +kernel, rfl, by decide +kernel,
    exists_framed plain _⟩

end Reckon
