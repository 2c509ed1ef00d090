import Reckon.Proofs.Evaluation.Outcome
import Reckon.Proofs.Grammar.WrittenLine

/-! Lines put together to longer ones, which evaluate to what their parts do. -/

namespace Reckon

/-- A line between parentheses. -/
def enclosed (line : String) : String := "(" ++ line ++ ")"

/-- The characters of a line between parentheses are those of the line with one on each side. -/
@[simp] theorem toList_enclosed (line : String) :
    (enclosed line).toList = '(' :: (line.toList ++ [')']) := by
  simp [enclosed]

/-- A line that is accepted and is no header. -/
def IsExpression (line : String) : Prop :=
  ∃ tree, parse line = .ok tree ∧ tree.isHeader = false

/-- What a line derives opens no more levels than there are. -/
def WithinLevels (line : String) : Prop := ∀ tree, LineDerives line tree → tree.nest ≤ levelLimit

/-- An accepted line is within the levels that there are. -/
theorem withinLevels_of_isOk {line : String} (accepted : (parse line).isOk = true) :
    WithinLevels line := by
  cases parsed : parse line with
  | error error => simp [parsed, Except.isOk, Except.toBool] at accepted
  | ok tree =>
    obtain ⟨derived, bound⟩ := derived_of_parse parsed
    -- A line derives one tree only, which is the one that was accepted.
    intro other otherDerived
    rwa [otherDerived.unique derived]

/-- Between parentheses an accepted line is written as an operand that comes to the same. -/
theorem IsExpression.writes_enclosed {line : String} (expression : IsExpression line)
    {session next : Session} {value : Binary64} (yields : session.Yields line value next) :
    ∃ operand, Writes .parenthesized (enclosed line).toList operand ∧
      operand.outcome session.bindings = (value, next.bindings) := by
  obtain ⟨tree, parsed, plain⟩ := expression
  obtain ⟨same, parsedSame, outcome⟩ := Session.yields_iff.mp yields
  obtain rfl : tree = same := Except.ok.inj (parsed.symm.trans parsedSame)
  obtain ⟨before, text, after, base, cut, leading, trailing, written, rfl, _⟩ :=
    parse_eq_ok_iff_exists_written.mp parsed
  cases written with
  -- A header would not be accepted between parentheses, and it is left out.
  | header trimmed signs => contradiction
  | expression written =>
    have operand := Writes.parenthesized leading written trailing
    -- The gaps around the line are those inside the parentheses.
    have whole : '(' :: before ++ (text ++ (after ++ [')'])) = (enclosed line).toList := by
      simp [cut]
    rw [whole] at operand
    refine ⟨_, operand, ?_⟩
    simpa using outcome

/-- What is written and opens no more levels than there are yields what it comes to. -/
theorem Writes.yields {rule : Rule} {line : String} {tree : Expr}
    (written : Writes rule line.toList tree) (within : WithinLevels line) {session next : Session}
    {value : Binary64} (outcome : tree.outcome session.bindings = (value, next.bindings)) :
    session.Yields line value next := by
  -- The line is its own text, with no gap in front or behind.
  have alone : line.toList = [] ++ (line.toList ++ []) := by simp
  have derived := (LineWrites.expression written.expression).derives alone Gaps.nil Gaps.nil
  rw [byteLength_nil, Expr.shift_zero] at derived
  exact Session.yields_iff.mpr ⟨tree, parse_eq_ok derived (within tree derived), outcome⟩

/-- What stands in parentheses is an operand of every operator, however tightly that binds. -/
theorem Writes.operand {text : List Char} {tree : Expr} (written : Writes .parenthesized text tree) :
    ∀ rule ∈ [Rule.signedAtom, .powerExpression, .multiplyingExpression, .algebraicExpression],
      Writes rule text tree := by
  have atom : Writes .atom text tree := .alternative (by decide) written
  exact atom.of_atom

/-- An operator joins two operands in parentheses to an expression. -/
theorem Writes.operate {former latter : List Char} {left right : Expr}
    (leftWritten : Writes .parenthesized former left)
    (rightWritten : Writes .parenthesized latter right) (operator : Operator) :
    Writes .expression (former ++ ([operator.symbol] ++ latter))
      (.operation left operator (right.shift (byteLength (former ++ [operator.symbol])))
        ⟨0, byteLength (former ++ ([operator.symbol] ++ latter))⟩) := by
  have joins : Joint operator.symbol [operator.symbol] := .around Gaps.nil Gaps.nil
  -- The operators are those of three rules, which take their operands by different rules.
  cases operator with
  | add | subtract =>
    have leftOperand := leftWritten.operand .algebraicExpression (by decide)
    have rightOperand := rightWritten.operand .multiplyingExpression (by decide)
    exact (Writes.fold rfl leftOperand joins (by decide) rightOperand).expression
  | multiply | divide =>
    have leftOperand := leftWritten.operand .multiplyingExpression (by decide)
    have rightOperand := rightWritten.operand .powerExpression (by decide)
    exact (Writes.fold rfl leftOperand joins (by decide) rightOperand).expression
  | power =>
    have leftOperand := leftWritten.operand .signedAtom (by decide)
    have rightOperand := rightWritten.operand .powerExpression (by decide)
    exact (Writes.power leftOperand joins rightOperand).expression

/--
Lines put together evaluate to what their parts do, one after the other.

An operator between two lines in parentheses is applied to the values of both, of which the second
is evaluated in the session that the first one leaves. A function in front of a line is applied to
its value, and a name with an equals sign in front of it is bound to that.
-/
theorem yields_composed {first : String} (firstExpression : IsExpression first)
    {start middle : Session} {value : Binary64} (firstYields : start.Yields first value middle) :
    (∀ second, IsExpression second → ∀ other final, middle.Yields second other final →
      ∀ operator : Operator,
        WithinLevels (enclosed first ++ String.singleton operator.symbol ++ enclosed second) →
        start.Yields (enclosed first ++ String.singleton operator.symbol ++ enclosed second)
          (operator.apply value other) final) ∧
    (∀ function : NamedFunction, WithinLevels (function.keyword ++ enclosed first) →
      start.Yields (function.keyword ++ enclosed first) (function.apply value) middle) ∧
    ∀ name, isName name = true → WithinLevels (name ++ " = " ++ enclosed first) →
      start.Yields (name ++ " = " ++ enclosed first) value ⟨middle.bindings.bind name value⟩ := by
  obtain ⟨left, leftWritten, leftOutcome⟩ := firstExpression.writes_enclosed firstYields
  -- The first line is the same operand in all three, with the same outcome.
  refine ⟨?_, ?_, ?_⟩
  · intro second secondExpression other final secondYields operator within
    obtain ⟨right, rightWritten, rightOutcome⟩ := secondExpression.writes_enclosed secondYields
    have written := leftWritten.operate rightWritten operator
    have text : (enclosed first ++ String.singleton operator.symbol ++ enclosed second).toList =
        (enclosed first).toList ++ ([operator.symbol] ++ (enclosed second).toList) := by simp
    rw [← text] at written
    refine written.yields within ?_
    simp [leftOutcome, rightOutcome]
  · intro function within
    have written : Writes .functionExpression
        (function.keyword.toList ++ ([] ++ (enclosed first).toList)) _ :=
      .call Gaps.nil leftWritten
    have text : (function.keyword ++ enclosed first).toList =
        function.keyword.toList ++ ([] ++ (enclosed first).toList) := by simp
    rw [← text] at written
    refine written.yields within ?_
    simp [leftOutcome]
  · intro name named within
    have space : Gaps [' '] := by simp [Gaps, isGap]
    -- The spaces around the equals sign are gaps of its joint.
    have sum := leftWritten.operand .algebraicExpression (by decide)
    have written := Writes.assignment (isName_iff.mp named) (.around space space) sum
    have text : (name ++ " = " ++ enclosed first).toList =
        name.toList ++ ([' '] ++ '=' :: [' '] ++ (enclosed first).toList) := by simp
    rw [← text] at written
    refine written.yields within ?_
    simp [leftOutcome]

/-- The second of two lines that are put together sees what the first one binds. -/
theorem yields_composed_assignment :
    IsExpression "x = 2" ∧ IsExpression "x-5" ∧
      Session.new.Yields "(x = 2)*(x-5)" (.negate (.ofNat 6))
        ⟨Bindings.empty.bind "x" (.ofNat 2)⟩ ∧
      Session.new.Yields "sin(x = 2)" (.sine (.ofNat 2)) ⟨Bindings.empty.bind "x" (.ofNat 2)⟩ ∧
      Session.new.Yields "y = (x = 2)" (.ofNat 2)
        ⟨(Bindings.empty.bind "x" (.ofNat 2)).bind "y" (.ofNat 2)⟩ := by
  have first : IsExpression "x = 2" :=
    ⟨.assignment ⟨"x", ⟨0, 1⟩⟩ (.literal .decimal "2" (.ofNat 2) ⟨4, 1⟩) ⟨0, 5⟩,
      by decide +kernel, rfl⟩
  have second : IsExpression "x-5" :=
    ⟨.operation (.reference "x" ⟨0, 1⟩) .subtract (.literal .decimal "5" (.ofNat 5) ⟨2, 1⟩) ⟨0, 3⟩,
      by decide +kernel, rfl⟩
  have firstYields : Session.new.Yields "x = 2" (.ofNat 2) ⟨Bindings.empty.bind "x" (.ofNat 2)⟩ :=
    ⟨by decide +kernel, by decide +kernel⟩
  -- The second line sees what the first has bound.
  have secondYields : Session.Yields ⟨Bindings.empty.bind "x" (.ofNat 2)⟩ "x-5"
      (.negate (.ofNat 3)) ⟨Bindings.empty.bind "x" (.ofNat 2)⟩ :=
    ⟨by decide +kernel, by decide +kernel⟩
  obtain ⟨operation, call, assignment⟩ := yields_composed first firstYields
  have product := operation "x-5" second _ _ secondYields .multiply
    (withinLevels_of_isOk (by decide +kernel))
  have value : Operator.multiply.apply (.ofNat 2) (.negate (.ofNat 3)) = .negate (.ofNat 6) := by
    decide +kernel
  rw [value] at product
  exact ⟨first, second, product, call .sine (withinLevels_of_isOk (by decide +kernel)),
    assignment "y" (by decide +kernel) (withinLevels_of_isOk (by decide +kernel))⟩

end Reckon
