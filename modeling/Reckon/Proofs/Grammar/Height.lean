import Reckon.Proofs.Grammar.Completeness
import Reckon.Proofs.Grammar.WrittenLine

/-! How deep the trees of accepted lines are, which is how deep evaluation nests. -/

namespace Reckon

namespace Expr

/-- How many nodes are on the longest path to a leaf, one for each evaluation within another. -/
def height : Expr → Nat
  | .literal .. => 1
  | .reference .. => 1
  | .assignment _ value _ => value.height + 1
  | .operation left _ right _ => max left.height right.height + 1
  | .call _ argument _ => argument.height + 1
  | .parenthesized inner _ => inner.height + 1
  | .header .. => 1

/-- How many operators have been folded onto the leftmost operand of a tree. -/
def folds : Expr → Nat
  | .operation left operator _ _ => if operator = .power then 0 else left.folds + 1
  | _ => 0

/-- In no part of a tree are more operators than so many folded onto one operand. -/
def FoldsWithin (chain : Nat) (tree : Expr) : Prop := ∀ node ∈ tree.nodes, node.folds ≤ chain

end Expr

/-- How far a tree of a rule may be higher than the levels in it account for. -/
def Rule.slack (chain folds : Nat) : Rule → Nat
  | .atom | .number | .hexLiteral | .binaryLiteral | .decimalLiteral | .reference
  | .parenthesized => 1
  | .signedAtom | .functionExpression => 2
  | .powerExpression => 3
  | .multiplyingExpression => 3 + folds
  | .algebraicExpression => 3 + chain + folds
  | _ => 2 * chain + 4

/-- What an alternative has to spare is no more than what the rule itself has. -/
theorem Rule.slack_le {chain folds : Nat} (within : folds ≤ chain) {rule part : Rule}
    (listed : part ∈ rule.alternatives) : part.slack chain folds ≤ rule.slack chain folds := by
  revert part
  cases rule <;> simp [alternatives, slack]
  -- Only a sum has to be compared with an expression by the operators in it.
  omega

namespace Expr

/-- No more operators than so many are folded at the root of the tree itself. -/
theorem FoldsWithin.folds_le {chain : Nat} {tree : Expr} (within : tree.FoldsWithin chain) :
    tree.folds ≤ chain := within tree (by cases tree <;> simp [nodes])

/-- What holds of the folds of a tree holds of those of its parts. -/
theorem FoldsWithin.of_mem {chain : Nat} {tree part : Expr} (within : tree.FoldsWithin chain)
    (child : part ∈ tree.children) : part.FoldsWithin chain := by
  intro node member
  refine within node ?_
  cases tree <;> simp only [children, List.mem_cons, List.not_mem_nil, or_false] at child
  case operation left operator right span =>
    -- The nodes of either operand are nodes of the operation.
    rcases child with rfl | rfl <;> simp [nodes, member]
  all_goals
    subst child
    simp [nodes, member]

/-- Every operator that is folded onto an operand is a node above it. -/
theorem folds_lt_height (tree : Expr) : tree.folds < tree.height := by
  induction tree with
  -- A power starts anew, and any other operator adds one to both sides at least.
  | operation left operator right span leftIh rightIh =>
    simp only [folds, height]
    split <;> omega
  | _ => exact Nat.succ_pos _

/-- A tree right below a node is lower than the node. -/
theorem height_lt_of_mem_children {child tree : Expr} (member : child ∈ tree.children) :
    child.height < tree.height := by
  -- A tree is one higher than the highest of its children.
  cases tree with
  | literal | reference | header => simp [children] at member
  | assignment target value span | call function value span | parenthesized value span =>
    obtain rfl := List.mem_singleton.mp member
    exact Nat.lt_succ_self _
  | operation left operator right span =>
    simp only [children, List.mem_cons, List.not_mem_nil, or_false] at member
    simp only [height]
    rcases member with rfl | rfl <;> omega

/-- In a tree no more operators are folded onto one operand than it is high. -/
theorem FoldsWithin.of_height_le {bound : Nat} {tree : Expr} (low : tree.height ≤ bound) :
    tree.FoldsWithin bound := by
  intro node member
  -- No node is higher than the tree, since each step down loses one.
  have nodes : node.height ≤ bound := by
    refine forall_mem_nodes (motive := fun node => node.height ≤ bound) ?_ low node member
    intro inner bounded child member
    exact (height_lt_of_mem_children member).le.trans bounded
  exact (folds_lt_height node).le.trans nodes

end Expr

/--
A tree is as high as the levels in it and the operators folded in each of them allow.

Every level adds the same at most: an assignment, a sum of products and a call.
-/
theorem Derives.height_le {rule : Rule} {lexemes : List Lexeme} {tree : Expr} {chain : Nat}
    (derived : Derives rule lexemes tree) (within : tree.FoldsWithin chain) :
    tree.height ≤ (2 * chain + 4) * tree.nest + rule.slack chain tree.folds := by
  -- The product of the levels with what each may add is a number like any other.
  induction derived with
  | alternative listed derived ih =>
    exact (ih within).trans (Nat.add_le_add_left (Rule.slack_le within.folds_le listed) _)
  | @literal kind rule lexeme value named token read =>
    subst named
    cases kind <;> simp [Expr.height, LiteralKind.rule, Rule.slack]
  | signed => simp [Expr.height, Rule.slack]
  | reference => simp [Expr.height, Rule.slack]
  | parenthesized left derived right ih =>
    -- The level that parentheses open pays for what is in them, and they are one node more.
    have inner := ih (within.of_mem (by simp [Expr.children]))
    simp only [Expr.height, Expr.nest, Rule.slack, Nat.mul_succ] at inner ⊢
    omega
  | call token keyword derived ih =>
    have argument := ih (within.of_mem (by simp [Expr.children]))
    simp only [Expr.height, Expr.nest, Rule.slack] at argument ⊢
    omega
  | @power caret base exponent left right leftDerived token rightDerived leftIh rightIh =>
    -- The exponent has a level of its own, which pays for what it adds.
    have bases := leftIh (within.of_mem (by simp [Expr.children]))
    have exponents := rightIh (within.of_mem (by simp [Expr.children]))
    have lower := Nat.mul_le_mul_left (2 * chain + 4) (Nat.le_max_left left.nest (right.nest + 1))
    have upper := Nat.mul_le_mul_left (2 * chain + 4) (Nat.le_max_right left.nest (right.nest + 1))
    rw [Nat.mul_succ] at upper
    simp only [Expr.height, Expr.nest, Rule.slack, if_true] at bases exponents ⊢
    omega
  | @fold rule operand accepted operator sign former latter left right layer leftDerived token among
      rightDerived leftIh rightIh =>
    have other := ((Rule.folds_of_layer? layer).loose operator among).2
    have leftWithin : left.FoldsWithin chain := within.of_mem (by simp [Expr.children])
    have rightWithin : right.FoldsWithin chain := within.of_mem (by simp [Expr.children])
    have lefts := leftIh leftWithin
    have rights := rightIh rightWithin
    -- The right operand may itself be folded as often as any node.
    have folds := rightWithin.folds_le
    have lower := Nat.mul_le_mul_left (2 * chain + 4) (Nat.le_max_left left.nest right.nest)
    have upper := Nat.mul_le_mul_left (2 * chain + 4) (Nat.le_max_right left.nest right.nest)
    simp only [Expr.height, Expr.nest, Expr.folds, other, if_false]
    -- One operator more is folded onto the left operand, and the right one is of the next layer.
    cases rule <;> simp only [Rule.layer?, Option.some.injEq, Prod.mk.injEq, reduceCtorEq] at layer
    all_goals
      obtain ⟨_, rfl⟩ := layer
      simp only [Rule.slack] at lefts rights ⊢
      omega
  | @assignment name equals lexemes tree target token derived ih =>
    have inner : tree.FoldsWithin chain := within.of_mem (by simp [Expr.children])
    have folds := inner.folds_le
    have value := ih inner
    simp only [Expr.height, Expr.nest, Rule.slack] at value ⊢
    omega

/-- The trees of lines are as high as the levels in them and the operators folded allow. -/
theorem height_le_of_parse {line : String} {tree : Expr} {chain : Nat}
    (parsed : parse line = .ok tree) (within : tree.FoldsWithin chain) :
    tree.height ≤ (levelLimit + 1) * (2 * chain + 4) := by
  obtain ⟨derived, bound⟩ := derived_of_parse parsed
  cases derived with
  -- A header is a single node, for which any room is enough.
  | header =>
    simp only [Expr.height]
    exact Nat.mul_pos (Nat.succ_pos _) (Nat.succ_pos _)
  | expression derived =>
    have height := derived.height_le within
    have levels := Nat.mul_le_mul_left (2 * chain + 4) bound
    calc tree.height ≤ (2 * chain + 4) * tree.nest + (2 * chain + 4) := height
      _ ≤ (2 * chain + 4) * levelLimit + (2 * chain + 4) := Nat.add_le_add_right levels _
      _ = (levelLimit + 1) * (2 * chain + 4) := by rw [← Nat.mul_succ, Nat.mul_comm]

/-- A sum of ones, with so many further ones added to the first. -/
def onesText : Nat → List Char
  | 0 => ['1']
  | count + 1 => onesText count ++ (['+'] ++ ['1'])

/-- A digit is written as a product. -/
theorem exists_writes_one : ∃ tree, Writes .multiplyingExpression ['1'] tree ∧ tree.nest = 0 := by
  have digit : LiteralKind.decimal.token.Matches ['1'] :=
    Token.matches_decimal.mpr ⟨['1'], [], by simp, by simp, by simp, rfl⟩
  obtain ⟨value, valued⟩ := Option.isSome_iff_exists.mp (LiteralKind.isSome_value?_of_matches digit)
  -- The digit is a number, that an atom, and that a product of one factor.
  have number : Writes .decimalLiteral ['1'] _ := .literal rfl digit valued
  have number : Writes .number ['1'] _ := .alternative (by decide) number
  have atom : Writes .atom ['1'] _ := .alternative (by decide) number
  exact ⟨_, atom.of_atom .multiplyingExpression (by decide), rfl⟩

/-- A sum of ones is written without any levels, and each further one makes its tree higher. -/
theorem exists_writes_onesText (count : Nat) : ∃ tree,
    Writes .algebraicExpression (onesText count) tree ∧ tree.nest = 0 ∧ count < tree.height := by
  obtain ⟨one, term, level⟩ := exists_writes_one
  induction count with
  | zero =>
    refine ⟨one, .alternative (by decide) term, level, ?_⟩
    cases one <;> exact Nat.succ_pos _
  | succ count ih =>
    -- One term more is folded onto the sum before, so the sum is one node deeper.
    obtain ⟨tree, written, flat, high⟩ := ih
    have joint : Joint Operator.add.symbol ['+'] := .around .nil .nil
    refine ⟨_, .fold rfl written joint (by decide) term, ?_, ?_⟩
    · simp [Expr.nest, flat, level]
    · simp only [Expr.height]
      omega

/-- There are lines that open no level and whose trees are higher than any number. -/
theorem exists_height_gt (bound : Nat) :
    ∃ line tree, parse line = .ok tree ∧ tree.nest = 0 ∧ bound < tree.height := by
  obtain ⟨tree, written, flat, high⟩ := exists_writes_onesText bound
  exact ⟨_, tree, LineWrites.parse_eq_ok (.expression written.expression) (by omega), flat, high⟩

/-- The limit on levels bounds the height of no tree by itself. -/
theorem not_exists_height_bound :
    ¬ ∃ bound, ∀ line tree, parse line = .ok tree → tree.height ≤ bound := by
  rintro ⟨bound, least⟩
  -- Whatever the bound, some line that opens no level has a tree above it.
  obtain ⟨line, tree, parsed, _, high⟩ := exists_height_gt bound
  exact absurd (least line tree parsed) (Nat.not_le.mpr high)

/--
The trees of some lines are bounded in height exactly if they are in the operators folded onto one
operand.

The limit on levels bounds all that there is to a tree besides.
-/
theorem exists_height_bound_iff (lines : String → Prop) :
    (∃ bound, ∀ line tree, lines line → parse line = .ok tree → tree.height ≤ bound) ↔
      ∃ chain, ∀ line tree, lines line → parse line = .ok tree → tree.FoldsWithin chain := by
  constructor
  · -- A tree that is low has few operators on each operand, since each of them is a node.
    rintro ⟨bound, low⟩
    exact ⟨bound, fun line tree among parsed => .of_height_le (low line tree among parsed)⟩
  · -- Conversely the levels are limited, and each one adds what its operators allow.
    rintro ⟨chain, within⟩
    refine ⟨(levelLimit + 1) * (2 * chain + 4), ?_⟩
    intro line tree among parsed
    exact height_le_of_parse parsed (within line tree among parsed)

end Reckon
