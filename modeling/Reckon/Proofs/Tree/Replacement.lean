import Reckon.Proofs.Tree.Placement
import Reckon.Text.ByteLaws

/-! The variables of a name in a tree, and the ranges of them replaced in the text. -/

namespace Reckon

/-- A text with another one in place of a range of it. -/
def replace? (inserted text : List Char) (span : Span) : Option (List Char) :=
  (takeBytes? span.offset text).bind fun front =>
    (dropBytes? span.stop text).map fun back => front ++ (inserted ++ back)

/--
A text with another one in place of each of some ranges.

The last range is replaced first, so that those in front of it still stand where they did.
-/
def replaceAll? (inserted text : List Char) (spans : List Span) : Option (List Char) :=
  spans.foldrM (fun span text => replace? inserted text span) text

namespace Expr

/-- The range of a node that is the variable of a name. -/
def mention? (name : String) : Expr → Option Span
  | .reference other span => if other = name then some span else none
  | _ => none

/-- The ranges of the variables of a name, from left to right. -/
def mentions (name : String) (tree : Expr) : List Span := tree.nodes.filterMap (mention? name)

/-- The name that a node assigns to. -/
def target? : Expr → Option String
  | .assignment target _ _ => some target.name
  | _ => none

/-- The names that a tree assigns to. -/
def targets (tree : Expr) : List String := tree.nodes.filterMap target?

end Expr

section Replace

variable {inserted text replaced : List Char} {span : Span}

/-- What stands in a range is replaced, and nothing else. -/
theorem replace?_between (inserted before middle after : List Char) :
    replace? inserted (before ++ (middle ++ after)) ⟨byteLength before, byteLength middle⟩ =
      some (before ++ (inserted ++ after)) := by
  -- The text behind the range is what is left without the text up to its end.
  have behind := dropBytes?_append (before ++ middle) after
  rw [byteLength_append, List.append_assoc] at behind
  simp [replace?, Span.stop, takeBytes?_append, behind]

/-- A range that is replaced stands between two parts of the text, which stay. -/
theorem exists_between_of_replace? (done : replace? inserted text span = some replaced) :
    ∃ before middle after, text = before ++ (middle ++ after) ∧
      span = ⟨byteLength before, byteLength middle⟩ ∧ replaced = before ++ (inserted ++ after) := by
  obtain ⟨before, front, done⟩ := Option.bind_eq_some_iff.mp done
  obtain ⟨after, back, rfl⟩ := Option.map_eq_some_iff.mp done
  obtain ⟨⟨rest, cut⟩, start⟩ := takeBytes?_eq_some front
  -- What is taken up to the start of the range is shorter than what is dropped up to its end.
  obtain ⟨upTo, rfl, stop⟩ := dropBytes?_eq_some back
  obtain ⟨middle, rfl, _⟩ := append_eq_append_of_byteLength_le cut.symm
    (by rw [start, stop]; exact Nat.le_add_right _ _)
  refine ⟨before, middle, after, List.append_assoc .., ?_, rfl⟩
  obtain ⟨offset, length⟩ := span
  simp only [Span.stop, byteLength_append] at start stop
  simp only [Span.mk.injEq]
  omega

/-- A range is replaced in a part of a text as it is in the part by itself. -/
theorem replace?_within (front back : List Char)
    (done : replace? inserted text span = some replaced) :
    replace? inserted (front ++ (text ++ back)) (span.shift (byteLength front)) =
      some (front ++ (replaced ++ back)) := by
  obtain ⟨before, middle, after, rfl, rfl, rfl⟩ := exists_between_of_replace? done
  have outer := replace?_between inserted (front ++ before) middle (after ++ back)
  simpa [Span.shift, Nat.add_comm] using outer

variable {spans : List Span}

/-- Some ranges are replaced in a part of a text as they are in the part by itself. -/
theorem replaceAll?_within (front back : List Char)
    (done : replaceAll? inserted text spans = some replaced) :
    replaceAll? inserted (front ++ (text ++ back)) (spans.map (·.shift (byteLength front))) =
      some (front ++ (replaced ++ back)) := by
  induction spans generalizing replaced with
  | nil =>
    obtain rfl := Option.some.inj done
    rfl
  | cons span spans ih =>
    -- The ranges behind the first one are replaced before it.
    simp only [replaceAll?, List.foldrM_cons] at done
    obtain ⟨between, later, first⟩ := Option.bind_eq_some_iff.mp done
    simp only [replaceAll?, List.map_cons, List.foldrM_cons]
    exact Option.bind_eq_some_iff.mpr ⟨_, ih later, replace?_within front back first⟩

/-- Ranges in two parts of a text are replaced in each of the parts. -/
theorem replaceAll?_append {former latter formerReplaced latterReplaced : List Char}
    {laterSpans : List Span} (between : List Char)
    (first : replaceAll? inserted former spans = some formerReplaced)
    (second : replaceAll? inserted latter laterSpans = some latterReplaced) :
    replaceAll? inserted (former ++ (between ++ latter))
        (spans ++ laterSpans.map (·.shift (byteLength (former ++ between)))) =
      some (formerReplaced ++ (between ++ latterReplaced)) := by
  -- The ranges of the latter part are replaced first, and the former one stands as it did.
  have behind := replaceAll?_within (former ++ between) [] second
  have inFront := replaceAll?_within [] (between ++ latterReplaced) first
  simp only [List.append_nil, List.append_assoc] at behind
  simp only [byteLength_nil, Span.shift_zero, List.map_id', List.nil_append] at inFront
  unfold replaceAll? at behind inFront ⊢
  rw [List.foldrM_append, behind]
  exact inFront

end Replace

namespace Expr

/-- The variables of a name are moved with the tree. -/
@[simp] theorem mentions_shift (name : String) (tree : Expr) (distance : Nat) :
    (tree.shift distance).mentions name = (tree.mentions name).map (·.shift distance) := by
  rw [mentions, mentions, nodes_shift, List.filterMap_map, List.map_filterMap]
  congr 1
  funext node
  -- Only a variable is looked at, and what counts of it is its name.
  cases node with
  | reference other span =>
    by_cases same : other = name
    · simp [mention?, shift, same]
    · simp [mention?, shift, same]
  | _ => rfl

section Equations

variable (name : String) (span : Span)

/-- A literal mentions no name. -/
@[simp] theorem mentions_literal (kind : LiteralKind) (text : String) (value : Binary64) :
    (literal kind text value span).mentions name = [] := rfl

/-- A variable mentions its own name. -/
@[simp] theorem mentions_reference (other : String) :
    (reference other span).mentions name = if other = name then [span] else [] := by
  by_cases same : other = name <;> simp [mentions, nodes, mention?, same]

/-- An assignment mentions what its value does. -/
@[simp] theorem mentions_assignment (target : Identifier) (value : Expr) :
    (assignment target value span).mentions name = value.mentions name := rfl

/-- An operation mentions what its operands do. -/
@[simp] theorem mentions_operation (left : Expr) (operator : Operator) (right : Expr) :
    (operation left operator right span).mentions name =
      left.mentions name ++ right.mentions name := List.filterMap_append

/-- A call mentions what its argument does. -/
@[simp] theorem mentions_call (function : NamedFunction) (argument : Expr) :
    (call function argument span).mentions name = argument.mentions name := rfl

/-- Parentheses mention what is between them. -/
@[simp] theorem mentions_parenthesized (inner : Expr) :
    (parenthesized inner span).mentions name = inner.mentions name := rfl

/-- A header mentions no name. -/
@[simp] theorem mentions_header (text : String) : (header text span).mentions name = [] := rfl

/-- An assignment assigns to its name besides what its value does. -/
@[simp] theorem targets_assignment (target : Identifier) (value : Expr) :
    (assignment target value span).targets = target.name :: value.targets := rfl

/-- An operation assigns to what its operands do. -/
@[simp] theorem targets_operation (left : Expr) (operator : Operator) (right : Expr) :
    (operation left operator right span).targets = left.targets ++ right.targets :=
  List.filterMap_append

/-- A call assigns to what its argument does. -/
@[simp] theorem targets_call (function : NamedFunction) (argument : Expr) :
    (call function argument span).targets = argument.targets := rfl

/-- Parentheses assign to what is between them. -/
@[simp] theorem targets_parenthesized (inner : Expr) :
    (parenthesized inner span).targets = inner.targets := rfl

end Equations

/-- The place of a tree does not matter to what it assigns to. -/
@[simp] theorem targets_shift (tree : Expr) (distance : Nat) :
    (tree.shift distance).targets = tree.targets := by
  -- The names that are assigned to are read off each node apart from its range.
  rw [targets, targets, nodes_shift, List.filterMap_map]
  congr 1
  funext node
  cases node <;> rfl

end Expr

end Reckon
