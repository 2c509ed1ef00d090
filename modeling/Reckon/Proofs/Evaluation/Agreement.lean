import Reckon.BindingLaws
import Reckon.Proofs.Evaluation.Outcome
import Reckon.Proofs.Grammar.Leaves
import Reckon.Proofs.Session.Replay
import Reckon.Proofs.Tree.Replacement

/-! Bindings over which names have the same values, where an unbound name has the value zero. -/

namespace Reckon

namespace Expr

/-- The name that a node reads. -/
def read? : Expr → Option String
  | .reference name _ => some name
  | _ => none

/-- The names that a tree reads. -/
def reads (tree : Expr) : List String := tree.nodes.filterMap read?

section Equations

variable {span : Span}

/-- An assignment reads what its value does. -/
@[simp] theorem reads_assignment (target : Identifier) (value : Expr) :
    (assignment target value span).reads = value.reads := rfl

/-- An operation reads what its operands do. -/
@[simp] theorem reads_operation (left : Expr) (operator : Operator) (right : Expr) :
    (operation left operator right span).reads = left.reads ++ right.reads :=
  List.filterMap_append

/-- A call reads what its argument does. -/
@[simp] theorem reads_call (function : NamedFunction) (argument : Expr) :
    (call function argument span).reads = argument.reads := rfl

/-- Parentheses read what is between them. -/
@[simp] theorem reads_parenthesized (inner : Expr) :
    (parenthesized inner span).reads = inner.reads := rfl

end Equations

end Expr

namespace Bindings

/-- The bindings with each of some names bound to zero. -/
def bindZeros (bindings : Bindings) (names : List String) : Bindings :=
  names.foldl (fun bindings name => bindings.bind name (.zero false)) bindings

/-- A name that is not bound has the value that it has when it is bound to zero. -/
theorem lookup_bindZeros {bindings : Bindings} {names : List String}
    (unbound : ∀ name ∈ names, bindings.lookup name = .zero false) (other : String) :
    (bindings.bindZeros names).lookup other = bindings.lookup other := by
  induction names generalizing bindings with
  | nil => rfl
  | cons name names ih =>
    obtain ⟨own, others⟩ := List.forall_mem_cons.mp unbound
    -- No value is another one when the first of the names has been bound.
    have same (other : String) :
        (bindings.bind name (.zero false)).lookup other = bindings.lookup other := by
      rw [lookup_bind]
      split
      · next here => rw [here, own]
      · rfl
    have zeros : ∀ other ∈ names, (bindings.bind name (.zero false)).lookup other = .zero false := by
      intro other member
      rw [same, others other member]
    exact (ih zeros).trans (same other)

end Bindings

/--
A tree comes to the same over bindings that agree on what it reads.

They also agree afterwards on what it assigns to, and on what they agreed on before.
-/
theorem Expr.outcome_eq_of_agree (tree : Expr) {left right : Bindings}
    (agree : ∀ name ∈ tree.reads, left.lookup name = right.lookup name) :
    (tree.outcome left).1 = (tree.outcome right).1 ∧
      ∀ name, name ∈ tree.targets ∨ left.lookup name = right.lookup name →
        (tree.outcome left).2.lookup name = (tree.outcome right).2.lookup name := by
  -- The two sets of bindings are different ones behind every child that assigns.
  induction tree generalizing left right with
  | literal kind text value span =>
    exact ⟨rfl, fun name known => known.resolve_left (List.not_mem_nil)⟩
  | reference name span =>
    exact ⟨agree name List.mem_cons_self, fun other known => known.resolve_left List.not_mem_nil⟩
  | header text span => exact ⟨rfl, fun name known => rfl⟩
  -- The target is bound to the same value in both, and any other name is left.
  | assignment target value span ih =>
    rw [reads_assignment] at agree
    obtain ⟨valueEq, after⟩ := ih agree
    refine ⟨valueEq, fun name known => ?_⟩
    simp only [outcome_assignment, Bindings.lookup_bind, valueEq]
    split
    · rfl
    · next other =>
      refine after name (known.imp_left fun assigned => ?_)
      exact (List.mem_cons.mp assigned).resolve_left other
  | operation left operator right span leftIh rightIh =>
    simp only [reads_operation, List.mem_append] at agree
    obtain ⟨leftEq, between⟩ := leftIh fun name member => agree name (.inl member)
    -- The names that the right operand reads still agree, even where the left one assigns to them.
    obtain ⟨rightEq, after⟩ := rightIh fun name member =>
      between name (.inr (agree name (.inr member)))
    refine ⟨by simp [leftEq, rightEq], fun name known => after name ?_⟩
    simp only [targets_operation, List.mem_append] at known
    -- A name that only the left operand assigns to agrees between the two, and stays so.
    rcases known with (inLeft | inRight) | before
    · exact .inr (between name (.inl inLeft))
    · exact .inl inRight
    · exact .inr (between name (.inr before))
  | call function argument span ih =>
    rw [reads_call] at agree
    obtain ⟨valueEq, after⟩ := ih agree
    exact ⟨by simp [valueEq], after⟩
  | parenthesized inner span ih =>
    rw [reads_parenthesized] at agree
    exact ih agree

namespace Session

/-- Whether every name has the same value in two sessions, zero where it is not bound. -/
def Agree (left right : Session) : Prop :=
  ∀ name, left.bindings.lookup name = right.bindings.lookup name

/-- Where every name has the same value a line is answered the same, and that stays so. -/
theorem Agree.evaluate {left right : Session} (agree : left.Agree right) (line : String) :
    (left.evaluate line).answer = (right.evaluate line).answer ∧
      (left.evaluate line).session.Agree (right.evaluate line).session := by
  cases read : parse line with
  -- A line that is rejected is answered without the bindings, and keeps them.
  | error error => simpa [Session.evaluate, read] using agree
  | ok tree =>
    obtain ⟨valueEq, after⟩ := tree.outcome_eq_of_agree fun name member => agree name
    simp only [Session.evaluate, read, run]
    exact ⟨congrArg Except.ok valueEq, fun name => after name (.inr (agree name))⟩

/-- Where every name has the same value all lines are answered the same. -/
theorem Agree.evaluateAll {left right : Session} (agree : left.Agree right) (lines : List String) :
    (left.evaluateAll lines).map Turn.answer = (right.evaluateAll lines).map Turn.answer := by
  -- Sessions that agree before a line agree behind it.
  induction lines generalizing left right with
  | nil => rfl
  | cons line lines ih =>
    obtain ⟨answer, after⟩ := agree.evaluate line
    simp [Session.evaluateAll, answer, ih after]

end Session

/-- The line that binds a name to zero. -/
def zeroLine (name : String) : String := name ++ " = 0"

/-- The line is read as an assignment of zero to its name. -/
theorem exists_parse_zeroLine {name : String} (named : isName name = true) :
    ∃ place inner span, parse (zeroLine name) =
      .ok (.assignment ⟨name, place⟩ (.literal .decimal "0" (.zero false) inner) span) := by
  -- The zero is written as an operand, and the name and the spaces are put in front of it.
  have read : LiteralKind.decimal.read "0" = .ok (.zero false) := by decide +kernel
  have digit : Writes .decimalLiteral "0".toList _ := LiteralKind.writes_of_read read
  have number : Writes .number "0".toList _ := .alternative (by decide) digit
  have atom : Writes .atom "0".toList _ := .alternative (by decide) number
  have side := atom.of_atom .algebraicExpression (by decide)
  have space : Gaps [' '] := by simp [Gaps, isGap]
  have written := Writes.assignment (isName_iff.mp named) (.around space space) side
  have text : (zeroLine name).toList = name.toList ++ ([' '] ++ '=' :: [' '] ++ "0".toList) := by
    simp [zeroLine]
  rw [← text, String.ofList_toList] at written
  exact ⟨_, _, _, written.parse_eq_ok rfl⟩

namespace Session

/-- The line that binds a name to zero does so. -/
theorem session_evaluate_zeroLine (session : Session) {name : String}
    (named : isName name = true) :
    (session.evaluate (zeroLine name)).session = ⟨session.bindings.bind name (.zero false)⟩ := by
  obtain ⟨place, inner, span, parsed⟩ := exists_parse_zeroLine named
  simp [evaluate, run, parsed, Expr.evaluate, Evaluation.assign, Evaluation.report]

/-- Lines that bind some names to zero do so for each of them. -/
theorem following_zeroLines (session : Session) {names : List String}
    (named : ∀ name ∈ names, isName name = true) :
    session.following (session.evaluateAll (names.map zeroLine)) =
      ⟨session.bindings.bindZeros names⟩ := by
  induction names generalizing session with
  | nil => rfl
  | cons name names ih =>
    obtain ⟨own, others⟩ := List.forall_mem_cons.mp named
    -- Each line binds its own name, in the session that the earlier ones leave.
    rw [List.map_cons, evaluateAll, following_cons, session.session_evaluate_zeroLine own,
      ih _ others]
    rfl

end Session

/--
The value of a tree depends on what the names are worth that it reads, and on nothing else.

Over bindings that agree on those, the tree has the same value. Afterwards they agree on these names
and on those that the tree assigns to, and still on all others that they agreed on. So lines are
answered the same whether some names that are not bound are bound to zero first or not.
-/
theorem agreement :
    (∀ (tree : Expr) (left right : Bindings),
      (∀ name ∈ tree.reads, left.lookup name = right.lookup name) →
      (tree.evaluate left).value = (tree.evaluate right).value ∧
        ∀ name, name ∈ tree.reads ∨ name ∈ tree.targets ∨ left.lookup name = right.lookup name →
          (tree.evaluate left).bindings.lookup name =
            (tree.evaluate right).bindings.lookup name) ∧
    ∀ (session : Session) (names : List String),
      (∀ name ∈ names, session.bindings.get? name = none) → ∀ lines,
      (Session.evaluateAll ⟨session.bindings.bindZeros names⟩ lines).map Turn.answer =
          (session.evaluateAll lines).map Turn.answer ∧
        ((∀ name ∈ names, isName name = true) →
          ((session.evaluateAll (names.map zeroLine ++ lines)).drop names.length).map Turn.answer =
            (session.evaluateAll lines).map Turn.answer) := by
  refine ⟨?_, ?_⟩
  · intro tree left right agree
    obtain ⟨value, after⟩ := tree.outcome_eq_of_agree agree
    refine ⟨value, fun name known => after name ?_⟩
    -- A name that is read is worth the same before, so it is one of the last kind.
    rcases known with read | assigned | before
    · exact .inr (agree name read)
    · exact .inl assigned
    · exact .inr before
  · intro session names unbound lines
    have zeros : ∀ name ∈ names, session.bindings.lookup name = .zero false := by
      intro name member
      rw [Bindings.lookup, unbound name member, Option.getD_none]
    -- The two sessions have different names bound, but every name has the same value in both.
    have agree : Session.Agree ⟨session.bindings.bindZeros names⟩ session :=
      Bindings.lookup_bindZeros zeros
    refine ⟨agree.evaluateAll lines, fun named => ?_⟩
    -- The turns of the lines that bind are dropped, and those behind them are compared.
    have turns : (session.evaluateAll (names.map zeroLine)).length = names.length := by simp
    rw [Session.evaluateAll_append, session.following_zeroLines named, ← turns,
      List.drop_left, agree.evaluateAll lines]

/-- Two sessions differ in a name that is not read, and in whether one that is read is bound. -/
theorem agreement_unbound :
    ∃ tree left right, parse "(y = 1 / x) * y + (x = 2)" = .ok tree ∧
      left = Bindings.empty.bind "z" .one ∧
      right = (Bindings.empty.bind "x" (.zero false)).bind "z" (.ofNat 7) ∧
      (∀ name ∈ tree.reads, left.lookup name = right.lookup name) ∧
      (tree.evaluate left).value = (tree.evaluate right).value ∧
      (tree.evaluate left).bindings.lookup "y" = (tree.evaluate right).bindings.lookup "y" ∧
      ((Session.new.evaluateAll (["x", "y"].map zeroLine ++ ["z = 1 / x", "y = y + z"])).drop 2).map
          Turn.answer =
        (Session.new.evaluateAll ["z = 1 / x", "y = y + z"]).map Turn.answer := by
  let tree : Expr :=
    .operation
      (.operation
        (.parenthesized
          (.assignment ⟨"y", ⟨1, 1⟩⟩
            (.operation (.literal .decimal "1" (.ofNat 1) ⟨5, 1⟩) .divide (.reference "x" ⟨9, 1⟩)
              ⟨5, 5⟩) ⟨1, 9⟩) ⟨0, 11⟩)
        .multiply (.reference "y" ⟨14, 1⟩) ⟨0, 15⟩)
      .add
      (.parenthesized
        (.assignment ⟨"x", ⟨19, 1⟩⟩ (.literal .decimal "2" (.ofNat 2) ⟨23, 1⟩) ⟨19, 5⟩) ⟨18, 7⟩)
      ⟨0, 25⟩
  let left := Bindings.empty.bind "z" .one
  let right := (Bindings.empty.bind "x" (.zero false)).bind "z" (.ofNat 7)
  have agree : ∀ name ∈ tree.reads, left.lookup name = right.lookup name := by decide +kernel
  obtain ⟨values, lines⟩ := agreement
  obtain ⟨value, after⟩ := values tree left right agree
  have unbound : ∀ name ∈ ["x", "y"], Session.new.bindings.get? name = none := by simp [Session.new]
  have named : ∀ name ∈ ["x", "y"], isName name = true := by decide +kernel
  exact ⟨tree, left, right, by decide +kernel, rfl, rfl, agree, value,
    after "y" (.inl (by decide +kernel)), (lines Session.new _ unbound _).2 named⟩

end Reckon
