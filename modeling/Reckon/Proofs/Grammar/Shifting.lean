import Reckon.Proofs.Grammar.Completeness
import Reckon.Proofs.Tree.Placement

/-! Lexemes that are moved as a whole are matched the same, with what comes of it moved too. -/

namespace Reckon

/-- What covers two ranges is moved with them. -/
@[simp] theorem Span.cover_shift (left right : Span) (distance : Nat) :
    (left.shift distance).cover (right.shift distance) = (left.cover right).shift distance := by
  simp only [cover, between, stop, shift, Span.mk.injEq]
  -- What is added to both starts and to both ends comes out of their minimum and maximum.
  omega

namespace Lexeme

/-- The lexeme a number of bytes further on. -/
def shift (distance : Nat) (lexeme : Lexeme) : Lexeme :=
  { lexeme with span := lexeme.span.shift distance }

variable (distance : Nat) (lexeme : Lexeme)

@[simp] theorem token_shift : (lexeme.shift distance).token = lexeme.token := rfl

@[simp] theorem text_shift : (lexeme.shift distance).text = lexeme.text := rfl

@[simp] theorem span_shift : (lexeme.shift distance).span = lexeme.span.shift distance := rfl

end Lexeme

namespace Outcome

/-- What comes of a match a number of bytes further on. -/
def shift (distance : Nat) : Outcome → Outcome
  | matched tree rest => matched (tree.shift distance) (rest.map (Lexeme.shift distance))
  | failed rule rest opened => failed rule (rest.map (Lexeme.shift distance)) opened

variable {distance : Nat}

/-- What goes on behind a match is moved if both are. -/
theorem shift_andThen (outcome : Outcome) {next following : Expr → Matcher}
    (onwards : ∀ tree rest, following (tree.shift distance) (rest.map (Lexeme.shift distance)) =
      (next tree rest).shift distance) :
    (outcome.shift distance).andThen following = (outcome.andThen next).shift distance := by
  -- Only a match goes on, while a failure is moved by itself.
  cases outcome with
  | matched tree rest => exact onwards tree rest
  | failed rule rest opened => rfl

/-- A level that is counted around a match is not moved. -/
theorem shift_inLevel (outcome : Outcome) :
    (outcome.shift distance).inLevel = outcome.inLevel.shift distance := by
  -- A level counts how far a failure had opened, which is no place in the line.
  cases outcome <;> rfl

end Outcome

/-- A matcher that only tells how lexemes stand to one another. -/
def Moves (distance : Nat) (matcher : Matcher) : Prop :=
  ∀ lexemes, matcher (lexemes.map (Lexeme.shift distance)) = (matcher lexemes).shift distance

namespace Grammar

variable {distance : Nat}

/-- What is taken is moved. -/
theorem take?_shift (token : Token) (lexemes : List Lexeme) :
    take? token (lexemes.map (Lexeme.shift distance)) =
      (take? token lexemes).map
        (Prod.map (Lexeme.shift distance) (List.map (Lexeme.shift distance))) := by
  cases lexemes with
  | nil => rfl
  | cons first rest =>
    -- The kind of a lexeme does not depend on where it stands.
    by_cases isKind : first.token = some token <;> simp [take?, Lexeme.isToken, isKind]

/-- A decimal literal that belongs to a minus is moved with it. -/
theorem gluedDecimal?_shift (minus : Lexeme) (lexemes : List Lexeme) :
    gluedDecimal? (minus.shift distance) (lexemes.map (Lexeme.shift distance)) =
      (gluedDecimal? minus lexemes).map
        (Prod.map (Lexeme.shift distance) (List.map (Lexeme.shift distance))) := by
  simp only [gluedDecimal?, take?_shift]
  -- Where nothing is in between before the move, nothing is behind it.
  cases take? .decimal lexemes with
  | none => rfl
  | some found =>
    obtain ⟨digits, rest⟩ := found
    -- The end of the minus and the start of the digits are moved by one distance.
    by_cases glued : digits.span.offset = minus.span.stop <;> simp [Option.filter, glued]

/-- The function that is called does not depend on where its name stands. -/
theorem called?_shift (lexemes : List Lexeme) :
    called? (lexemes.map (Lexeme.shift distance)) =
      (called? lexemes).map
        (Prod.map id (Prod.map (Lexeme.shift distance) (List.map (Lexeme.shift distance)))) := by
  match lexemes with
  | [] => rfl
  | [only] => rfl
  | name :: opening :: rest =>
    -- A call is told by two kinds and a text, none of which is moved.
    by_cases calls : name.token = some .name ∧ opening.token = some .leftParen
    · cases named : NamedFunction.called? name.text <;>
        simp [called?, Lexeme.isToken, calls, named]
    · simp [called?, Lexeme.isToken, calls]

/-- The operator that comes first does not depend on where it stands. -/
theorem operator?_shift (accepted : List Operator) (lexemes : List Lexeme) :
    operator? accepted (lexemes.map (Lexeme.shift distance)) =
      (operator? accepted lexemes).map (Prod.map id (List.map (Lexeme.shift distance))) := by
  cases lexemes with
  | nil => rfl
  | cons sign rest =>
    -- Only the kind of the sign is asked for, and the lexemes behind it are moved.
    simp only [List.map_cons, Grammar.operator?, Lexeme.token_shift, Option.map_map]
    rfl

/-- An operation is moved with its operands. -/
theorem operation_shift (left : Expr) (operator : Operator) (right : Expr) :
    operation (left.shift distance) operator (right.shift distance) =
      (operation left operator right).shift distance := by
  -- The range of an operation covers those of its operands.
  simp [operation, Expr.shift]

section Atoms

variable {inner : Option Matcher} (moves : ∀ matcher ∈ inner, Moves distance matcher)

include moves

/-- What is matched one level deeper is moved. -/
theorem moves_deeper (rule : Rule) : Moves distance (deeper rule inner) := by
  intro lexemes
  -- Where no level is free the rule fails without a look at the lexemes.
  cases inner with
  | none => rfl
  | some matcher =>
    -- Otherwise the level is counted around what is matched inside.
    show (matcher _).inLevel = (matcher lexemes).inLevel.shift distance
    rw [moves matcher rfl, Outcome.shift_inLevel]

/-- What is matched between parentheses is moved with them. -/
theorem moves_parenthesized : Moves distance (parenthesized inner) := by
  intro lexemes
  simp only [parenthesized, take?_shift]
  cases take? .leftParen lexemes with
  | none => rfl
  | some found =>
    obtain ⟨opening, rest⟩ := found
    -- Behind the opening parenthesis the match goes on one level deeper.
    show (deeper _ _ (rest.map _)).andThen _ = _
    rw [moves_deeper moves .parenthesized]
    refine Outcome.shift_andThen _ fun tree rest => ?_
    simp only [take?_shift]
    -- Where the closing one is missing, nothing is built that could be moved.
    cases take? .rightParen rest with
    | none => rfl
    | some found => simp [Outcome.shift, Expr.shift]

/-- An atom is moved with its lexemes. -/
theorem moves_atom : Moves distance (atom inner) := by
  intro lexemes
  cases lexemes with
  | nil => rfl
  | cons first rest =>
    have inside := moves_parenthesized moves (first :: rest)
    -- The kind of the first lexeme decides what is matched.
    simp only [List.map_cons, atom, Lexeme.token_shift]
    cases first.token with
    | none => rfl
    | some kind =>
      cases kind with
      | hexadecimal | binary | decimal | name => rfl
      | minus =>
        simp only [gluedDecimal?_shift]
        -- A sign and its digits are one literal, whose range covers both of them.
        cases gluedDecimal? first rest with
        | none => rfl
        | some found => simp [Outcome.shift, literal, Expr.shift]
      | leftParen => exact inside
      | plus | star | slash | caret | equals | rightParen => rfl

/-- A call is moved with its lexemes, and so is an atom. -/
theorem moves_signedAtom : Moves distance (signedAtom inner) := by
  intro lexemes
  simp only [signedAtom, called?_shift]
  cases called? lexemes with
  | none => exact moves_atom moves lexemes
  | some found =>
    obtain ⟨function, name, rest⟩ := found
    -- The name of the function has been taken, and its argument is parenthesized.
    show (parenthesized inner (rest.map _)).andThen _ = _
    rw [moves_parenthesized moves]
    refine Outcome.shift_andThen _ fun argument rest => ?_
    -- A call covers its name and its argument.
    simp [Outcome.shift, Expr.shift]

end Atoms

/-- Operands that are folded are moved. -/
theorem chainFrom_shift (accepted : List Operator) {operand : Matcher}
    (moves : Moves distance operand) (rounds : Nat) (left : Expr) (lexemes : List Lexeme) :
    chainFrom accepted operand rounds (left.shift distance)
        (lexemes.map (Lexeme.shift distance)) =
      (chainFrom accepted operand rounds left lexemes).shift distance := by
  -- The induction is on the rounds, each of which folds one operand onto all before it.
  induction rounds generalizing left lexemes with
  | zero => rfl
  | succ rounds ih =>
    simp only [chainFrom, operator?_shift]
    cases operator? accepted lexemes with
    | none => rfl
    | some found =>
      obtain ⟨operator, rest⟩ := found
      show (operand (rest.map _)).andThen _ = _
      rw [moves]
      refine Outcome.shift_andThen _ fun right rest => ?_
      -- What has been folded so far has been moved, so the next round starts from it.
      show chainFrom _ _ _ (operation (left.shift distance) operator (right.shift distance)) _ = _
      rw [operation_shift, ih]

/-- Operands in a row are moved. -/
theorem moves_chain (accepted : List Operator) {operand : Matcher}
    (moves : Moves distance operand) : Moves distance (chain accepted operand) := by
  intro lexemes
  rw [chain, chain, moves]
  refine Outcome.shift_andThen _ fun left rest => ?_
  -- There is a round for each lexeme behind the first operand, and none is lost in the move.
  rw [List.length_map]
  exact chainFrom_shift accepted moves rest.length left rest

/-- A sum is moved with its powers. -/
theorem moves_additiveOver {power : Matcher} (moves : Moves distance power) :
    Moves distance (additiveOver power) :=
  moves_chain _ (moves_chain _ moves)

/-- An assignment is moved, where one starts. -/
theorem assignmentOver?_shift {power : Matcher} (moves : Moves distance power)
    (lexemes : List Lexeme) :
    assignmentOver? power (lexemes.map (Lexeme.shift distance)) =
      (assignmentOver? power lexemes).map (Outcome.shift distance) := by
  match lexemes with
  | [] => rfl
  | [only] => rfl
  | name :: equals :: rest =>
    -- Whether an assignment starts is told by the kinds of two lexemes.
    by_cases assigns : name.token = some .name ∧ equals.token = some .equals
    · simp only [List.map_cons, assignmentOver?, Lexeme.isToken, Lexeme.token_shift, assigns,
        BEq.rfl, Bool.and_self, if_true, moves_additiveOver moves rest, Option.map_some]
      refine congrArg some (Outcome.shift_andThen _ fun value rest => ?_)
      -- The target is moved as a part of the tree that it belongs to.
      simp [Outcome.shift, Expr.shift]
    · simp [assignmentOver?, Lexeme.isToken, assigns]

/-- An expression is moved with its powers. -/
theorem moves_expressionOver {power : Matcher} (moves : Moves distance power) :
    Moves distance (expressionOver power) := by
  intro lexemes
  simp only [expressionOver, assignmentOver?_shift moves]
  -- A sum is tried only where no assignment starts.
  cases assignmentOver? power lexemes with
  | none => exact moves_additiveOver moves lexemes
  | some outcome => rfl

/-- A power is moved with its base and its exponent. -/
theorem moves_powerOver {deeperPower : Option Matcher}
    (moves : ∀ matcher ∈ deeperPower, Moves distance matcher) :
    Moves distance (powerOver deeperPower) := by
  -- What stands between parentheses is an expression over the powers one level deeper.
  have inner : ∀ matcher ∈ deeperPower.map expressionOver, Moves distance matcher := by
    intro matcher member
    obtain ⟨power, isPower, rfl⟩ := Option.map_eq_some_iff.mp member
    exact moves_expressionOver (moves power isPower)
  intro lexemes
  rw [powerOver, powerOver, moves_signedAtom inner]
  refine Outcome.shift_andThen _ fun base rest => ?_
  simp only [take?_shift]
  -- Without a caret the base stands for itself.
  cases take? .caret rest with
  | none => rfl
  | some found =>
    obtain ⟨caret, rest⟩ := found
    show (deeper _ _ (rest.map _)).andThen _ = _
    rw [moves_deeper moves .powerExpression]
    refine Outcome.shift_andThen _ fun exponent rest => ?_
    -- The exponent is matched where the base was matched up to, so both are moved alike.
    rw [operation_shift, Outcome.shift]

/-- A power is moved with its lexemes, whatever levels are free. -/
theorem moves_power (distance free : Nat) : Moves distance (power free) := by
  -- With one level more free the powers inside are those of the step before.
  induction free with
  | zero => exact moves_powerOver (by simp)
  | succ free ih => exact moves_powerOver (by simpa using ih)

/-- The range of a header is moved with its signs. -/
theorem headerSpan?_shift (lexemes : List Lexeme) :
    headerSpan? (lexemes.map (Lexeme.shift distance)) =
      (headerSpan? lexemes).map (·.shift distance) := by
  simp only [headerSpan?, List.head?_map, List.getLast?_map, List.all_map]
  cases lexemes.head? with
  | none => rfl
  | some first =>
    cases lexemes.getLast? with
    | none => rfl
    | some last =>
      -- Whether all are minus signs is told by their kinds.
      have same : ((fun lexeme : Lexeme => lexeme.isToken .minus) ∘ Lexeme.shift distance) =
          fun lexeme => lexeme.isToken .minus := rfl
      simp only [Option.map_some, same]
      -- The first and the last sign are moved, and with them the range that covers both.
      split_ifs <;> simp

end Grammar

end Reckon
