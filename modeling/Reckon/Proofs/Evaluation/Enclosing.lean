import Reckon.Proofs.Evaluation.Composition
import Reckon.Proofs.Tree.Enclosure

/-! Parentheses around any node of a line, which change neither its value nor what it binds. -/

namespace Reckon

/-- The rules by which every part of a longer text is written, all of which take parentheses. -/
def Rule.enclosing : List Rule :=
  [.expression, .parenthesized, .signedAtom, .powerExpression, .multiplyingExpression,
    .algebraicExpression]

/-- Where what stands in parentheses may stand, it is written by the rule of that place. -/
theorem Writes.of_parenthesized {rule : Rule} {text : List Char} {tree : Expr}
    (written : Writes rule text tree ∨ Writes .parenthesized text tree)
    (takes : rule ∈ Rule.enclosing) : Writes rule text tree := by
  rcases written with written | written
  · exact written
  · simp only [Rule.enclosing, List.mem_cons, List.not_mem_nil, or_false] at takes
    -- A parenthesized text is an operand, and an operand is written by every rule above.
    rcases takes with rfl | rfl | operand
    · exact written.expression
    · exact written
    · exact written.operand rule (by simpa using operand)

/-- The rules of a layer take parentheses, for what is folded and for the operands. -/
theorem Rule.takes_of_layer? {rule operand : Rule} {accepted : List Operator}
    (layer : rule.layer? = some (accepted, operand)) :
    rule ∈ enclosing ∧ operand ∈ enclosing := by
  -- There are two layers.
  cases rule <;> cases layer <;> decide

/-- A joint is not empty. -/
theorem Joint.ne_nil {c : Char} {joint : List Char} (joins : Joint c joint) : joint ≠ [] := by
  obtain ⟨leading, trailing⟩ := joins
  simp

/-- What ends in front of a joint is not of the same range as what starts behind it. -/
theorem span_ne_of_joint {first second : Span} {former joint : List Char} (occupied : joint ≠ [])
    (stop : first.stop ≤ byteLength former) (start : byteLength (former ++ joint) ≤ second.offset) :
    first ≠ second := by
  rintro rfl
  -- The joint takes a byte at least.
  have positive := mt byteLength_eq_zero.mp occupied
  rw [byteLength_append] at start
  simp only [Span.stop] at stop
  omega

/--
A text with parentheses around a range of it, and a tree for that.

Wherever its nodes stand, it is the tree of the text with the node of the range in parentheses.
-/
structure Encloses (place : Span) (text : List Char) (tree : Expr) (enclosed : List Char)
    (other : Expr) : Prop where
  inserted : enclose? text place = some enclosed
  shape_eq : other.shape = (tree.enclose place).shape

namespace Encloses

variable {place : Span} {text enclosed : List Char} {tree other : Expr}

/-- A text is enclosed as a whole in the place of its own tree. -/
theorem whole {rule : Rule} (written : Writes rule text tree) (distance : Nat) (span : Span) :
    Encloses tree.span text tree ('(' :: text ++ [')'])
      (.parenthesized (tree.shift distance) span) := by
  constructor
  · -- With nothing around the range the parentheses are put at both ends of the text.
    have around := enclose?_between [] text []
    rw [written.span_eq]
    simpa using around
  · rw [Expr.enclose_of_eq rfl]
    simp [Expr.shape]

/-- What is enclosed in a part of a text is not the longer text as a whole. -/
theorem ne_span (encloses : Encloses place text tree enclosed other) (front back : List Char)
    (longer : front ++ back ≠ []) :
    (⟨0, byteLength (front ++ (text ++ back))⟩ : Span) ≠ place.shift (byteLength front) := by
  intro same
  have bound := stop_le_of_enclose? encloses.inserted
  have stop := congrArg Span.stop same
  have start := congrArg Span.offset same
  simp only [Span.stop_shift, Span.offset_shift] at stop start
  simp only [Span.stop, byteLength_append] at stop bound
  -- If both started in one place, neither text around the part would take a byte.
  refine longer (byteLength_eq_zero.mp ?_)
  rw [byteLength_append]
  omega

/-- Between parentheses a node is enclosed as in what stands there by itself. -/
theorem parenthesized (encloses : Encloses place text tree enclosed other)
    (front back : List Char) (longer : front ++ back ≠ []) (span : Span) :
    Encloses (place.shift (byteLength front)) (front ++ (text ++ back))
      (.parenthesized (tree.shift (byteLength front)) ⟨0, byteLength (front ++ (text ++ back))⟩)
      (front ++ (enclosed ++ back)) (.parenthesized (other.shift (byteLength front)) span) := by
  refine ⟨enclose?_within front back encloses.inserted, ?_⟩
  -- The range is not that of the whole, so the node is to be found inside.
  rw [Expr.enclose_parenthesized (encloses.ne_span front back longer), Expr.enclose_shift]
  simp [Expr.shape, encloses.shape_eq]

/-- At the end of a longer text the range is enclosed, and it is not that of the longer text. -/
theorem behind (encloses : Encloses place text tree enclosed other) (front : List Char)
    (longer : front ≠ []) :
    enclose? (front ++ text) (place.shift (byteLength front)) = some (front ++ enclosed) ∧
      (⟨0, byteLength (front ++ text)⟩ : Span) ≠ place.shift (byteLength front) := by
  -- This is what holds of a part between two texts, of which the one behind is empty.
  have inserted := enclose?_within front [] encloses.inserted
  have other := encloses.ne_span front [] (by simpa using longer)
  rw [List.append_nil] at inserted other
  exact ⟨by rw [inserted, List.append_nil], other⟩

/-- In a call a node is enclosed as in the argument by itself. -/
theorem call (encloses : Encloses place text tree enclosed other) (front : List Char)
    (longer : front ≠ []) (function : NamedFunction) (span : Span) :
    Encloses (place.shift (byteLength front)) (front ++ text)
      (.call function (tree.shift (byteLength front)) ⟨0, byteLength (front ++ text)⟩)
      (front ++ enclosed) (.call function (other.shift (byteLength front)) span) := by
  -- The node itself starts earlier, so the place is one within its argument.
  obtain ⟨inserted, elsewhere⟩ := encloses.behind front longer
  refine ⟨inserted, ?_⟩
  rw [Expr.enclose_call elsewhere, Expr.enclose_shift]
  simp [Expr.shape, encloses.shape_eq]

/-- In an assignment a node is enclosed as in the value by itself. -/
theorem assignment (encloses : Encloses place text tree enclosed other) (front : List Char)
    (longer : front ≠ []) (target : Identifier) (span : Span) :
    Encloses (place.shift (byteLength front)) (front ++ text)
      (.assignment target (tree.shift (byteLength front)) ⟨0, byteLength (front ++ text)⟩)
      (front ++ enclosed) (.assignment target (other.shift (byteLength front)) span) := by
  -- The node itself starts earlier, so the place is one within its value.
  obtain ⟨inserted, elsewhere⟩ := encloses.behind front longer
  refine ⟨inserted, ?_⟩
  rw [Expr.enclose_assignment elsewhere, Expr.enclose_shift]
  simp [Expr.shape, encloses.shape_eq]

/-- In an operation a node of the left operand is enclosed as in that operand by itself. -/
theorem left (encloses : Encloses place text tree enclosed other) {joint : List Char}
    (occupied : joint ≠ []) (latter : List Char) (operator : Operator) (right : Expr)
    (distance : Nat) (span : Span) :
    Encloses place (text ++ (joint ++ latter))
      (.operation tree operator (right.shift (byteLength (text ++ joint)))
        ⟨0, byteLength (text ++ (joint ++ latter))⟩)
      (enclosed ++ (joint ++ latter)) (.operation other operator (right.shift distance) span) := by
  have inserted := enclose?_within [] (joint ++ latter) encloses.inserted
  have elsewhere := encloses.ne_span [] (joint ++ latter) (by simp [occupied])
  simp only [List.nil_append, byteLength_nil, Span.shift_zero] at inserted elsewhere
  refine ⟨inserted, ?_⟩
  -- The right operand starts behind the joint, where the left one has ended.
  have stop := stop_le_of_enclose? encloses.inserted
  have untouched : (right.shift (byteLength (text ++ joint))).enclose place =
      right.shift (byteLength (text ++ joint)) := by
    apply Expr.enclose_of_forall_ne
    intro node member
    exact (span_ne_of_joint occupied stop (Expr.le_offset_of_mem_shift member)).symm
  rw [Expr.enclose_operation elsewhere, untouched]
  simp [Expr.shape, encloses.shape_eq]

/-- In an operation a node of the right operand is enclosed as in that operand by itself. -/
theorem right {former : List Char} {first : Expr}
    (encloses : Encloses place text tree enclosed other)
    (inside : ∀ node ∈ first.nodes, node.span.stop ≤ byteLength former) {joint : List Char}
    (occupied : joint ≠ []) (operator : Operator) (span : Span) :
    Encloses (place.shift (byteLength (former ++ joint))) (former ++ (joint ++ text))
      (.operation first operator (tree.shift (byteLength (former ++ joint)))
        ⟨0, byteLength (former ++ (joint ++ text))⟩)
      (former ++ (joint ++ enclosed))
      (.operation first operator (other.shift (byteLength (former ++ joint))) span) := by
  obtain ⟨inserted, elsewhere⟩ := encloses.behind (former ++ joint) (by simp [occupied])
  rw [List.append_assoc, List.append_assoc] at inserted
  rw [List.append_assoc] at elsewhere
  refine ⟨inserted, ?_⟩
  -- The left operand ends in front of the joint, behind which the right one starts.
  have untouched : first.enclose (place.shift (byteLength (former ++ joint))) = first := by
    apply Expr.enclose_of_forall_ne
    intro node member
    refine span_ne_of_joint occupied (inside node member) ?_
    rw [Span.offset_shift]
    exact Nat.le_add_left _ _
  rw [Expr.enclose_operation elsewhere, untouched, Expr.enclose_shift]
  simp [Expr.shape, encloses.shape_eq]

end Encloses

/-- With parentheses around any node a text is written by the same rule, or is all in them. -/
def Enclosable (rule : Rule) (text : List Char) (tree : Expr) : Prop :=
  ∀ node ∈ tree.nodes, ∃ enclosed other,
    (Writes rule enclosed other ∨ Writes .parenthesized enclosed other) ∧
      Encloses node.span text tree enclosed other

/-- What is written may stand in parentheses as a whole, so only the nodes below are of concern. -/
theorem Writes.enclosable_of_below {rule : Rule} {text : List Char} {tree : Expr}
    (written : Writes rule text tree) (below : ∀ node ∈ tree.nodes.tail, ∃ enclosed other,
      Writes rule enclosed other ∧ Encloses node.span text tree enclosed other) :
    Enclosable rule text tree := by
  have operand := Writes.parenthesized Gaps.nil written.expression Gaps.nil
  intro node member
  -- The first node is the tree itself, and the others are below it.
  have cut : tree.nodes = tree :: tree.nodes.tail := by cases tree <;> rfl
  rw [cut] at member
  rcases List.mem_cons.mp member with rfl | member
  · exact ⟨_, _, .inr operand, .whole written _ _⟩
  · obtain ⟨enclosed, other, again, encloses⟩ := below node member
    exact ⟨enclosed, other, .inl again, encloses⟩

/-- Around the nodes of both operands of an operation parentheses may be put as by themselves. -/
theorem enclosable_of_operands {rule first second : Rule} {former joint latter : List Char}
    {left right : Expr} {operator : Operator} (occupied : joint ≠ [])
    (leftWritten : Writes first former left) (rightWritten : Writes second latter right)
    (leftEnclosable : Enclosable first former left)
    (rightEnclosable : Enclosable second latter right)
    (leftTakes : first ∈ Rule.enclosing) (rightTakes : second ∈ Rule.enclosing)
    (join : ∀ {former latter : List Char} {left right : Expr}, Writes first former left →
      Writes second latter right → Writes rule (former ++ (joint ++ latter))
        (.operation left operator (right.shift (byteLength (former ++ joint)))
          ⟨0, byteLength (former ++ (joint ++ latter))⟩)) :
    Enclosable rule (former ++ (joint ++ latter))
      (.operation left operator (right.shift (byteLength (former ++ joint)))
        ⟨0, byteLength (former ++ (joint ++ latter))⟩) := by
  refine (join leftWritten rightWritten).enclosable_of_below ?_
  rw [Expr.nodes, List.tail_cons, List.forall_mem_append]
  constructor
  · intro node member
    -- The operand is written anew, with or without parentheses around it as a whole.
    obtain ⟨enclosed, other, again, encloses⟩ := leftEnclosable node member
    exact ⟨_, _, join (.of_parenthesized again leftTakes) rightWritten,
      encloses.left occupied latter operator right _ _⟩
  · rw [Expr.nodes_shift, List.forall_mem_map]
    intro node member
    obtain ⟨enclosed, other, again, encloses⟩ := rightEnclosable node member
    -- Each node of the left operand is in the range of its text.
    have inside : ∀ node ∈ left.nodes, node.span.stop ≤ byteLength former := by
      intro node member
      obtain ⟨_, _, _, encloses⟩ := leftEnclosable node member
      exact stop_le_of_enclose? encloses.inserted
    rw [Expr.span_shift]
    exact ⟨_, _, join leftWritten (.of_parenthesized again rightTakes),
      encloses.right inside occupied operator _⟩

/-- What a rule writes it writes with parentheses around any node too. -/
theorem Writes.enclosable {rule : Rule} {text : List Char} {tree : Expr}
    (written : Writes rule text tree) : Enclosable rule text tree := by
  -- A node is the whole tree, or one of the nodes of a part, which are moved with that.
  induction written with
  | alternative listed written ih =>
    intro node member
    obtain ⟨enclosed, other, again, encloses⟩ := ih node member
    -- An alternative takes what its part is written as, and adds no node.
    exact ⟨enclosed, other, again.imp_left (.alternative listed), encloses⟩
  | literal named matched valued =>
    exact (Writes.literal named matched valued).enclosable_of_below (by simp [Expr.nodes])
  | signed matched valued =>
    exact (Writes.signed matched valued).enclosable_of_below (by simp [Expr.nodes])
  | reference matched =>
    exact (Writes.reference matched).enclosable_of_below (by simp [Expr.nodes])
  | @parenthesized before inner after tree leading written trailing ih =>
    refine (Writes.parenthesized leading written trailing).enclosable_of_below ?_
    rw [Expr.nodes, List.tail_cons, Expr.nodes_shift, List.forall_mem_map]
    intro node member
    obtain ⟨enclosed, other, again, encloses⟩ := ih node member
    rw [Expr.span_shift]
    exact ⟨_, _, .parenthesized leading (.of_parenthesized again (by decide)) trailing,
      encloses.parenthesized ('(' :: before) (after ++ [')']) (by simp) _⟩
  | @call function gap argument tree gaps written ih =>
    refine (Writes.call gaps written).enclosable_of_below ?_
    rw [Expr.nodes, List.tail_cons, Expr.nodes_shift, List.forall_mem_map]
    intro node member
    obtain ⟨enclosed, other, again, encloses⟩ := ih node member
    -- The keyword is in front of the argument, so a node of that is not the whole call.
    have longer : function.keyword.toList ++ gap ≠ [] := by
      simp [function.matches_keyword.ne_nil]
    have whole := encloses.call (function.keyword.toList ++ gap) longer function
    simp only [List.append_assoc] at whole
    rw [Expr.span_shift]
    exact ⟨_, _, .call gaps (.of_parenthesized again (by decide)), whole _⟩
  | power leftWritten joins rightWritten leftIh rightIh =>
    exact enclosable_of_operands joins.ne_nil leftWritten rightWritten leftIh rightIh (by decide)
      (by decide) (fun left right => .power left joins right)
  | fold layer leftWritten joins among rightWritten leftIh rightIh =>
    obtain ⟨leftTakes, rightTakes⟩ := Rule.takes_of_layer? layer
    exact enclosable_of_operands joins.ne_nil leftWritten rightWritten leftIh rightIh leftTakes
      rightTakes (fun left right => .fold layer left joins among right)
  | @assignment name joint text tree target joins written ih =>
    refine (Writes.assignment target joins written).enclosable_of_below ?_
    rw [Expr.nodes, List.tail_cons, Expr.nodes_shift, List.forall_mem_map]
    intro node member
    obtain ⟨enclosed, other, again, encloses⟩ := ih node member
    have whole := encloses.assignment (name ++ joint) (by simp [joins.ne_nil])
      ⟨String.ofList name, ⟨0, byteLength name⟩⟩
    simp only [List.append_assoc] at whole
    rw [Expr.span_shift]
    exact ⟨_, _, .assignment target joins (.of_parenthesized again (by decide)), whole _⟩

section Spans

variable {text : List Char} {tree : Expr}

/-- The range of a longer text is not that of any node of a part. -/
theorem Writes.span_not_mem {rule : Rule} (written : Writes rule text tree)
    (front back : List Char) (longer : front ++ back ≠ []) :
    ⟨0, byteLength (front ++ (text ++ back))⟩ ∉
      (tree.shift (byteLength front)).nodes.map Expr.span := by
  rw [Expr.nodes_shift, List.map_map, List.mem_map]
  rintro ⟨node, member, same⟩
  -- A node can be enclosed in its part, which the whole of the longer text cannot.
  obtain ⟨enclosed, other, _, encloses⟩ := written.enclosable node member
  exact encloses.ne_span front back longer (by simpa using same.symm)

/-- The nodes of a tree that is moved are of different ranges if they were before. -/
theorem nodup_spans_shift {distance : Nat} (distinct : (tree.nodes.map Expr.span).Nodup) :
    ((tree.shift distance).nodes.map Expr.span).Nodup := by
  have moved : (tree.shift distance).nodes.map Expr.span =
      (tree.nodes.map Expr.span).map (·.shift distance) := by
    simp [Function.comp_def]
  rw [moved]
  -- Two ranges that are moved by as much are the same only if they were.
  exact distinct.map fun first second => Span.shift_inj.mp

/-- The nodes of operands on both sides of a joint are of different ranges. -/
theorem nodup_spans_operands {first second : Rule} {former joint latter : List Char}
    {left right : Expr} (occupied : joint ≠ []) (leftWritten : Writes first former left)
    (rightWritten : Writes second latter right) (leftDistinct : (left.nodes.map Expr.span).Nodup)
    (rightDistinct : (right.nodes.map Expr.span).Nodup) (operator : Operator) :
    ((Expr.operation left operator (right.shift (byteLength (former ++ joint)))
      ⟨0, byteLength (former ++ (joint ++ latter))⟩).nodes.map Expr.span).Nodup := by
  -- The range of the operation is that of neither operand, each of which is a part of it.
  have inLeft := leftWritten.span_not_mem [] (joint ++ latter) (by simp [occupied])
  have inRight := rightWritten.span_not_mem (former ++ joint) [] (by simp [occupied])
  simp only [List.nil_append, List.append_nil, List.append_assoc, byteLength_nil,
    Expr.shift_zero] at inLeft inRight
  rw [Expr.nodes, List.map_cons, List.map_append, List.nodup_cons, List.mem_append, not_or,
    List.nodup_append]
  refine ⟨⟨inLeft, inRight⟩, leftDistinct, nodup_spans_shift rightDistinct, ?_⟩
  -- The nodes of the left operand end in front of the joint, and the others start behind it.
  simp only [List.forall_mem_map]
  intro node member other behind
  obtain ⟨_, _, _, encloses⟩ := leftWritten.enclosable node member
  have stop := stop_le_of_enclose? encloses.inserted
  exact span_ne_of_joint occupied stop (Expr.le_offset_of_mem_shift behind)

/-- No two nodes of what a rule writes are of the same range. -/
theorem Writes.nodup_spans {rule : Rule} (written : Writes rule text tree) :
    (tree.nodes.map Expr.span).Nodup := by
  -- A node of a longer text comes on top of the nodes of its parts, which are distinct.
  induction written with
  | alternative listed written ih => exact ih
  | literal | signed | reference => exact List.nodup_singleton _
  | @parenthesized before inner after tree leading written trailing ih =>
    exact List.nodup_cons.mpr
      ⟨written.span_not_mem ('(' :: before) (after ++ [')']) (by simp), nodup_spans_shift ih⟩
  | @call function gap argument tree gaps written ih =>
    have own := written.span_not_mem (function.keyword.toList ++ gap) []
      (by simp [function.matches_keyword.ne_nil])
    rw [List.append_nil, List.append_assoc] at own
    exact List.nodup_cons.mpr ⟨own, nodup_spans_shift ih⟩
  | power leftWritten joins rightWritten leftIh rightIh
  | fold layer leftWritten joins among rightWritten leftIh rightIh =>
    exact nodup_spans_operands joins.ne_nil leftWritten rightWritten leftIh rightIh _
  | @assignment name joint text tree target joins written ih =>
    have own := written.span_not_mem (name ++ joint) [] (by simp [joins.ne_nil])
    rw [List.append_nil, List.append_assoc] at own
    exact List.nodup_cons.mpr ⟨own, nodup_spans_shift ih⟩

end Spans

/--
Parentheses around any node of an accepted line do not matter.

No two nodes are of the same range. With a parenthesis at each end of the range of one, and with
enough levels for it, the line is accepted as the same tree with the node between parentheses, and
it has the same value and leaves the same bindings behind.
-/
theorem yields_enclosed {line : String} {tree node : Expr} (parsed : parse line = .ok tree)
    (plain : tree.isHeader = false) (member : node ∈ tree.nodes) :
    (tree.nodes.map Expr.span).Nodup ∧
    ∃ enclosed, enclose? line.toList node.span = some enclosed ∧
      (WithinLevels (String.ofList enclosed) →
        (∃ other, parse (String.ofList enclosed) = .ok other ∧
          other.shape = (tree.enclose node.span).shape) ∧
        ∀ session : Session, ∃ value next, session.Yields line value next ∧
          session.Yields (String.ofList enclosed) value next) := by
  obtain ⟨before, text, after, base, cut, leading, trailing, written, rfl, _⟩ :=
    parse_eq_ok_iff_exists_written.mp parsed
  cases written with
  | header trimmed signs => contradiction
  | expression written =>
    refine ⟨nodup_spans_shift written.nodup_spans, ?_⟩
    rw [Expr.nodes_shift] at member
    obtain ⟨unmoved, below, rfl⟩ := List.mem_map.mp member
    obtain ⟨enclosed, other, again, encloses⟩ := written.enclosable unmoved below
    -- The gaps around the line stay as they are.
    have inserted := enclose?_within before after encloses.inserted
    rw [← cut, ← Expr.span_shift] at inserted
    refine ⟨_, inserted, fun within => ?_⟩
    have rewritten := LineWrites.expression (Writes.of_parenthesized again (by decide))
    have derived : LineDerives (String.ofList (before ++ (enclosed ++ after)))
        (other.shift (byteLength before)) := rewritten.derives (by simp) leading trailing
    have accepted := parse_eq_ok derived (within _ derived)
    -- The nodes have been moved behind the gap, and so has the place of the parentheses.
    have shape : (other.shift (byteLength before)).shape = ((base.shift (byteLength before)).enclose
        (unmoved.shift (byteLength before)).span).shape := by
      rw [Expr.span_shift, Expr.enclose_shift, Expr.shape_shift, Expr.shape_shift,
        encloses.shape_eq]
    refine ⟨⟨_, accepted, shape⟩, fun session => ?_⟩
    -- Evaluation sees the shape only, and passes through parentheses.
    have outcome := congrArg (·.outcome session.bindings) shape
    simp only [Expr.outcome_shape, Expr.outcome_enclose] at outcome
    exact ⟨_, ⟨_⟩, Session.yields_iff.mpr ⟨_, parsed, rfl⟩,
      Session.yields_iff.mpr ⟨_, accepted, outcome⟩⟩

/-- Parentheses around an exponent with a sign leave the value of the line as it is. -/
theorem yields_enclosed_exponent : ∃ value next,
    Session.new.Yields " y= 2-x ^-3*sin ( x )" value next ∧
      Session.new.Yields " y= 2-x ^(-3)*sin ( x )" value next := by
  have parsed : parse " y= 2-x ^-3*sin ( x )" = .ok (.assignment ⟨"y", ⟨1, 1⟩⟩
      (.operation (.literal .decimal "2" (.ofNat 2) ⟨4, 1⟩) .subtract
        (.operation
          (.operation (.reference "x" ⟨6, 1⟩) .power
            (.literal .decimal "-3" (.negate (.ofNat 3)) ⟨9, 2⟩) ⟨6, 5⟩) .multiply
          (.call .sine (.parenthesized (.reference "x" ⟨18, 1⟩) ⟨16, 5⟩) ⟨12, 9⟩) ⟨6, 15⟩)
        ⟨4, 17⟩) ⟨1, 20⟩) := by decide +kernel
  obtain ⟨_, enclosed, inserted, accepts⟩ := @yields_enclosed _ _
    (.literal .decimal "-3" (.negate (.ofNat 3)) ⟨9, 2⟩) parsed rfl (by decide +kernel)
  -- The line with the parentheses is the one that is written out.
  have computed : enclose? " y= 2-x ^-3*sin ( x )".toList ⟨9, 2⟩ =
      some " y= 2-x ^(-3)*sin ( x )".toList := by decide +kernel
  obtain rfl := Option.some.inj (computed.symm.trans inserted)
  rw [String.ofList_toList] at accepts
  exact (accepts (withinLevels_of_isOk (by decide +kernel))).2 Session.new

end Reckon
