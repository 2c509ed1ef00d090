import Reckon.BindingLaws
import Reckon.Proofs.Binary64.ReadBack
import Reckon.Proofs.Evaluation.Outcome
import Reckon.Proofs.Grammar.Leaves
import Reckon.Proofs.Tree.Replacement

/-! The text of a value in place of a variable that has the value. -/

namespace Reckon

/-- The text of a finite value is read as a decimal literal of that value. -/
theorem Binary64.read_text {value : Binary64} (finite : value.isFinite = true) :
    LiteralKind.decimal.read value.text = .ok value := by
  -- Only finite values are written with digits.
  cases value with
  | nan signaling => contradiction
  | infinity negative => contradiction
  | finite negative rank => exact LiteralKind.read_eq_ok.mpr (value?_text negative rank)

/-- The text of a finite value yields that value. -/
theorem Session.yields_text {value : Binary64} (finite : value.isFinite = true)
    (session : Session) : session.Yields value.text value session := by
  -- By itself the text is a line of one literal, which opens no level.
  have parsed := (LiteralKind.writes_of_read (Binary64.read_text finite)).parse_eq_ok rfl
  exact Session.yields_iff.mpr ⟨_, parsed, rfl⟩

/-- What a tree does not assign to is bound afterwards to what it was before. -/
theorem Writes.get?_outcome {rule : Rule} {text : List Char} {tree : Expr} {name : String}
    (written : Writes rule text tree) (unassigned : name ∉ tree.targets) (bindings : Bindings) :
    (tree.outcome bindings).2.get? name = bindings.get? name := by
  -- Only an assignment binds anything, and a header, which drops all bindings, is not written.
  induction written generalizing bindings with
  | alternative listed written ih => exact ih unassigned bindings
  | literal | signed | reference => rfl
  | parenthesized leading written trailing ih | call gaps written ih =>
    simpa using ih (by simpa using unassigned) bindings
  | power leftWritten joins rightWritten leftIh rightIh
  | fold layer leftWritten joins among rightWritten leftIh rightIh =>
    simp only [Expr.targets_operation, Expr.targets_shift, List.mem_append, not_or] at unassigned
    simp [rightIh unassigned.2, leftIh unassigned.1]
  | assignment target joins written ih =>
    simp only [Expr.targets_assignment, Expr.targets_shift, List.mem_cons, not_or] at unassigned
    -- The name that is bound is another one.
    simp [Bindings.get?_bind, unassigned.1, ih unassigned.2]

/-- A rule whose texts stand where those of another do: the rule itself, or numbers for names. -/
def Rule.StandsFor (part rule : Rule) : Prop := part = rule ∨ rule = .reference ∧ part = .number

/-- What stands for an alternative is one too. -/
theorem Rule.StandsFor.listed {part other rule : Rule} (stands : part.StandsFor other)
    (listed : other ∈ rule.alternatives) : part ∈ rule.alternatives := by
  rcases stands with rfl | ⟨rfl, rfl⟩
  · exact listed
  · -- Variables are an alternative of atoms only, and so are numbers.
    cases rule <;> simp_all [alternatives]

/-- Only a number stands for another rule than its own. -/
theorem Rule.StandsFor.eq {part rule : Rule} (stands : part.StandsFor rule)
    (other : rule ≠ .reference) : part = rule := by
  -- The other way to stand for a rule is to stand for variables.
  rcases stands with same | ⟨reference, _⟩
  · exact same
  · contradiction

/-- The operands of a layer are not variables by rule, and neither is what the layer folds. -/
theorem Rule.ne_reference_of_layer? {rule operand : Rule} {accepted : List Operator}
    (layer : rule.layer? = some (accepted, operand)) :
    rule ≠ .reference ∧ operand ≠ .reference := by
  cases rule <;> simp_all [layer?] <;> simp [← layer.2]

/--
A text with that of a value in place of each variable of a name, as a tree.

Over bindings of the name to the value, that tree comes to the same as the tree of the text.
-/
structure Pastes (name : String) (value : Binary64) (text : List Char) (tree : Expr)
    (pasted : List Char) (other : Expr) : Prop where
  replaced : replaceAll? value.text.toList text (tree.mentions name) = some pasted
  nest_eq : other.nest = tree.nest
  outcome_eq : ∀ bindings, bindings.get? name = some value →
    other.outcome bindings = tree.outcome bindings

namespace Pastes

variable {name : String} {value : Binary64}

/-- A text without a variable of the name stays as it is. -/
theorem unchanged {tree : Expr} (unmentioned : tree.mentions name = []) (text : List Char) :
    Pastes name value text tree text tree :=
  ⟨by rw [unmentioned]; rfl, rfl, fun _ _ => rfl⟩

/-- The variable of the name is replaced by the literal of the value. -/
theorem reference (value : Binary64) (text : List Char) (span : Span) :
    Pastes name value text (.reference name ⟨0, byteLength text⟩) value.text.toList
      (.literal .decimal value.text value span) := by
  refine ⟨?_, rfl, ?_⟩
  · -- The whole text is the variable.
    have whole := replace?_between value.text.toList [] text []
    simp only [List.append_nil, List.nil_append, byteLength_nil] at whole
    simp [replaceAll?, whole]
  · intro bindings bound
    simp [Bindings.lookup, bound]

section Composed

variable {text pasted : List Char} {tree other : Expr}

/-- In a longer text the variables of a part are replaced as they are in the part by itself. -/
theorem replaced_within (pastes : Pastes name value text tree pasted other)
    (front back : List Char) :
    replaceAll? value.text.toList (front ++ (text ++ back))
        ((tree.shift (byteLength front)).mentions name) =
      some (front ++ (pasted ++ back)) := by
  -- The mentions are moved with the part, and so are the places to replace.
  rw [Expr.mentions_shift]
  exact replaceAll?_within front back pastes.replaced

/-- In a text that ends with a part the variables are replaced in the part. -/
theorem replaced_behind (pastes : Pastes name value text tree pasted other) (front : List Char) :
    replaceAll? value.text.toList (front ++ text)
        ((tree.shift (byteLength front)).mentions name) =
      some (front ++ pasted) := by
  simpa using pastes.replaced_within front []

/-- Between parentheses the variables are replaced in what stands there. -/
theorem parenthesized (pastes : Pastes name value text tree pasted other)
    (front back : List Char) (span otherSpan : Span) :
    Pastes name value (front ++ (text ++ back))
      (.parenthesized (tree.shift (byteLength front)) span) (front ++ (pasted ++ back))
      (.parenthesized (other.shift (byteLength front)) otherSpan) := by
  refine ⟨pastes.replaced_within front back, ?_, ?_⟩
  · simp [Expr.nest, pastes.nest_eq]
  · -- A node evaluates alike when its part does.
    intro bindings bound
    simp [pastes.outcome_eq bindings bound]

/-- In a call the variables are replaced in its argument. -/
theorem call (pastes : Pastes name value text tree pasted other) (front : List Char)
    (function : NamedFunction) (span otherSpan : Span) :
    Pastes name value (front ++ text) (.call function (tree.shift (byteLength front)) span)
      (front ++ pasted) (.call function (other.shift (byteLength front)) otherSpan) := by
  refine ⟨pastes.replaced_behind front, ?_, ?_⟩
  · simp [Expr.nest, pastes.nest_eq]
  · intro bindings bound
    simp [pastes.outcome_eq bindings bound]

/-- In an assignment the variables are replaced in its value. -/
theorem assignment (pastes : Pastes name value text tree pasted other) (front : List Char)
    (target : Identifier) (span otherSpan : Span) :
    Pastes name value (front ++ text) (.assignment target (tree.shift (byteLength front)) span)
      (front ++ pasted) (.assignment target (other.shift (byteLength front)) otherSpan) := by
  refine ⟨pastes.replaced_behind front, ?_, ?_⟩
  · simp [Expr.nest, pastes.nest_eq]
  · intro bindings bound
    simp [pastes.outcome_eq bindings bound]

/-- In an operation the variables are replaced in both of its operands. -/
theorem operation {latter latterPasted : List Char} {right otherRight : Expr}
    (leftPastes : Pastes name value text tree pasted other)
    (rightPastes : Pastes name value latter right latterPasted otherRight)
    (kept : ∀ bindings, (tree.outcome bindings).2.get? name = bindings.get? name)
    (joint : List Char) (operator : Operator) (span otherSpan : Span) :
    Pastes name value (text ++ (joint ++ latter))
      (.operation tree operator (right.shift (byteLength (text ++ joint))) span)
      (pasted ++ (joint ++ latterPasted))
      (.operation other operator (otherRight.shift (byteLength (pasted ++ joint))) otherSpan) := by
  refine ⟨?_, ?_, ?_⟩
  · -- The variables of both operands are those of the two texts, around the joint.
    rw [Expr.mentions_operation, Expr.mentions_shift]
    exact replaceAll?_append joint leftPastes.replaced rightPastes.replaced
  · simp [Expr.nest, leftPastes.nest_eq, rightPastes.nest_eq]
  · -- The right operand is evaluated over bindings that still have the name bound to the value.
    intro bindings bound
    have leftSame := leftPastes.outcome_eq bindings bound
    have rightSame := rightPastes.outcome_eq _ ((kept bindings).trans bound)
    simp [leftSame, rightSame]

end Composed

end Pastes

/-- What a rule writes it writes with the text of a value in place of a variable. -/
theorem Writes.exists_pasted {name : String} {value : Binary64} (finite : value.isFinite = true)
    {rule : Rule} {text : List Char} {tree : Expr} (written : Writes rule text tree)
    (unassigned : name ∉ tree.targets) :
    ∃ part pasted other, part.StandsFor rule ∧ Writes part pasted other ∧
      Pastes name value text tree pasted other := by
  -- A literal in place of a name is written by another rule, so the alternative that led to the
  -- name is left for one that leads to numbers, and every rule above takes either.
  induction written with
  | alternative listed written ih =>
    obtain ⟨part, pasted, other, stands, pastedWritten, pastes⟩ := ih unassigned
    exact ⟨_, pasted, other, .inl rfl, .alternative (stands.listed listed) pastedWritten, pastes⟩
  | literal named matched valued =>
    exact ⟨_, _, _, .inl rfl, .literal named matched valued, .unchanged rfl _⟩
  | signed matched valued =>
    exact ⟨_, _, _, .inl rfl, .signed matched valued, .unchanged rfl _⟩
  | @reference text matched =>
    by_cases same : String.ofList text = name
    · -- The text of the value is a number, which is an alternative of the same atom.
      have number := LiteralKind.writes_of_read (Binary64.read_text finite)
      subst same
      exact ⟨.number, _, _, .inr ⟨rfl, rfl⟩, .alternative (by decide) number,
        .reference value text _⟩
    · exact ⟨_, _, _, .inl rfl, .reference matched, .unchanged (by simp [same]) _⟩
  | @parenthesized before text after tree leading written trailing ih =>
    obtain ⟨part, pasted, other, stands, pastedWritten, pastes⟩ := ih (by simpa using unassigned)
    obtain rfl := stands.eq (by decide)
    exact ⟨_, _, _, .inl rfl, .parenthesized leading pastedWritten trailing,
      pastes.parenthesized ('(' :: before) (after ++ [')']) _ _⟩
  | @call function gap argument tree gaps written ih =>
    obtain ⟨part, pasted, other, stands, pastedWritten, pastes⟩ := ih (by simpa using unassigned)
    obtain rfl := stands.eq (by decide)
    have whole := pastes.call (function.keyword.toList ++ gap) function
    simp only [List.append_assoc] at whole
    exact ⟨_, _, _, .inl rfl, .call gaps pastedWritten, whole _ _⟩
  | @power base joint exponent left right leftWritten joins rightWritten leftIh rightIh =>
    simp only [Expr.targets_operation, Expr.targets_shift, List.mem_append, not_or] at unassigned
    obtain ⟨_, _, _, stands, leftPasted, leftPastes⟩ := leftIh unassigned.1
    obtain rfl := stands.eq (by decide)
    obtain ⟨_, _, _, stands, rightPasted, rightPastes⟩ := rightIh unassigned.2
    obtain rfl := stands.eq (by decide)
    exact ⟨_, _, _, .inl rfl, .power leftPasted joins rightPasted,
      leftPastes.operation rightPastes (leftWritten.get?_outcome unassigned.1) joint _ _ _⟩
  | @fold rule operand accepted operator former joint latter left right layer leftWritten joins
      among rightWritten leftIh rightIh =>
    simp only [Expr.targets_operation, Expr.targets_shift, List.mem_append, not_or] at unassigned
    -- Neither operand is written by the rule of variables alone, so both keep their rules.
    obtain ⟨ruleOther, operandOther⟩ := Rule.ne_reference_of_layer? layer
    obtain ⟨_, _, _, stands, leftPasted, leftPastes⟩ := leftIh unassigned.1
    obtain rfl := stands.eq ruleOther
    obtain ⟨_, _, _, stands, rightPasted, rightPastes⟩ := rightIh unassigned.2
    obtain rfl := stands.eq operandOther
    exact ⟨_, _, _, .inl rfl, .fold layer leftPasted joins among rightPasted,
      leftPastes.operation rightPastes (leftWritten.get?_outcome unassigned.1) joint _ _ _⟩
  | @assignment target joint text tree matched joins written ih =>
    simp only [Expr.targets_assignment, Expr.targets_shift, List.mem_cons, not_or] at unassigned
    obtain ⟨part, pasted, other, stands, pastedWritten, pastes⟩ := ih unassigned.2
    obtain rfl := stands.eq (by decide)
    have whole := pastes.assignment (target ++ joint) ⟨String.ofList target, ⟨0, byteLength target⟩⟩
    simp only [List.append_assoc] at whole
    exact ⟨_, _, _, .inl rfl, .assignment matched joins pastedWritten, whole _ _⟩

/-- What a line writes it writes with the text of a value in place of a variable. -/
theorem LineWrites.exists_pasted {name : String} {value : Binary64}
    (finite : value.isFinite = true) {text : List Char} {tree : Expr}
    (written : LineWrites text tree) (unassigned : name ∉ tree.targets) :
    ∃ pasted other, LineWrites pasted other ∧ Pastes name value text tree pasted other := by
  cases written with
  -- A header has no variables in it.
  | header trimmed signs => exact ⟨_, _, .header trimmed signs, .unchanged rfl _⟩
  | expression written =>
    obtain ⟨part, pasted, other, _, pastedWritten, pastes⟩ :=
      written.exists_pasted finite unassigned
    -- A line takes what any of the rules writes.
    exact ⟨pasted, other, .expression pastedWritten.expression, pastes⟩

/--
The text of a finite value stands for the value wherever a variable with that value does.

By itself it yields the value. In an accepted line that does not assign to a name which is bound
to the value, it takes the place of each variable of that name, and the line is accepted as
before, with the same value and the same session afterwards.
-/
theorem yields_pasted {value : Binary64} (finite : value.isFinite = true) :
    (∀ session : Session, session.Yields value.text value session) ∧
    ∀ line tree name (bindings : Bindings), parse line = .ok tree → name ∉ tree.targets →
      bindings.get? name = some value →
      ∃ pasted result final,
        replaceAll? value.text.toList line.toList (tree.mentions name) = some pasted ∧
        Session.Yields ⟨bindings⟩ line result final ∧
        Session.Yields ⟨bindings⟩ (String.ofList pasted) result final := by
  refine ⟨Session.yields_text finite, ?_⟩
  intro line tree name bindings parsed unassigned bound
  obtain ⟨before, text, after, base, cut, leading, trailing, written, rfl, levels⟩ :=
    parse_eq_ok_iff_exists_written.mp parsed
  rw [Expr.targets_shift] at unassigned
  obtain ⟨pasted, other, pastedWritten, pastes⟩ := written.exists_pasted finite unassigned
  -- The gaps around the line stay as they are.
  have replaced := pastes.replaced_within before after
  -- With no more levels than before the new text is accepted too.
  have pastedParsed : parse (String.ofList (before ++ (pasted ++ after))) =
      .ok (other.shift (byteLength before)) :=
    parse_eq_ok_iff_exists_written.mpr ⟨before, pasted, after, other, by simp, leading, trailing,
      pastedWritten, rfl, pastes.nest_eq ▸ levels⟩
  refine ⟨_, (base.outcome bindings).1, ⟨(base.outcome bindings).2⟩, cut ▸ replaced, ?_, ?_⟩
  · exact Session.yields_iff.mpr ⟨_, parsed, by simp⟩
  · exact Session.yields_iff.mpr ⟨_, pastedParsed, by simp [pastes.outcome_eq bindings bound]⟩

/-- A negative value is pasted at the start of a line, behind an operator and in parentheses. -/
theorem yields_pasted_negative :
    ∃ value : Binary64, value.isFinite = true ∧ value.text = "-0.5" ∧ ∃ result final,
      Session.Yields ⟨Bindings.empty.bind "x" value⟩ " x-x ^ (x*2)\t" result final ∧
      Session.Yields ⟨Bindings.empty.bind "x" value⟩ " -0.5--0.5 ^ (-0.5*2)\t" result final := by
  let value : Binary64 := .finite true ⟨1022 * blockSize, by decide⟩
  have parsed : parse " x-x ^ (x*2)\t" = .ok
      (.operation (.reference "x" ⟨1, 1⟩) .subtract
        (.operation (.reference "x" ⟨3, 1⟩) .power
          (.parenthesized
            (.operation (.reference "x" ⟨8, 1⟩) .multiply
              (.literal .decimal "2" (.ofNat 2) ⟨10, 1⟩) ⟨8, 3⟩) ⟨7, 5⟩) ⟨3, 9⟩) ⟨1, 11⟩) := by
    decide +kernel
  have written : value.text = "-0.5" := by decide +kernel
  have bound : (Bindings.empty.bind "x" value).get? "x" = some value := by
    simp [Bindings.get?_bind]
  have finite : value.isFinite = true := rfl
  obtain ⟨pasted, result, final, replaced, before, after⟩ :=
    (yields_pasted finite).2 _ _ "x" _ parsed (by decide) bound
  -- The three places are replaced by the text, of which one is behind a minus.
  have computed : replaceAll? "-0.5".toList " x-x ^ (x*2)\t".toList [⟨1, 1⟩, ⟨3, 1⟩, ⟨8, 1⟩] =
      some " -0.5--0.5 ^ (-0.5*2)\t".toList := by decide +kernel
  rw [written] at replaced
  obtain rfl := Option.some.inj (computed.symm.trans replaced)
  rw [String.ofList_toList] at after
  exact ⟨value, finite, written, result, final, before, after⟩

end Reckon
