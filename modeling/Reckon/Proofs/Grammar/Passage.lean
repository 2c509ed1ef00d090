import Mathlib.Data.List.Basic
import Reckon.Proofs.Grammar.Scan

/-! A scan passes what the grammar derives, where enough levels are free. -/

namespace Reckon

/-- The name of a function calls it. -/
theorem NamedFunction.called?_keyword (function : NamedFunction) :
    called? function.keyword = some function := by
  cases function with
  | sine => rfl
  | cosine => rfl

namespace Place

/-- Whether what a rule derives may start at the place. -/
def Ready (place : Place) : Rule → Prop
  | .expression | .assignment => place.expectation = .beginning ∧ place.exponents = 0
  | .algebraicExpression | .multiplyingExpression =>
    place.wantsOperand = true ∧ place.exponents = 0
  | .parenthesized => place.wantsOperand = true ∨ place.isCallable = true
  | _ => place.wantsOperand = true

/-- What is known of the place behind what a rule derives, from the place in front of it. -/
structure Passes (rule : Rule) (lexemes : List Lexeme) (place next : Place) : Prop where
  complete : next.isComplete = true
  outer_eq : next.outer = place.outer
  /-- An operand leaves the exponents that are open in front of it as they are. -/
  exponents_eq : rule ∈ [.signedAtom, .functionExpression, .atom, .parenthesized, .number,
    .hexLiteral, .binaryLiteral, .decimalLiteral, .reference] → next.exponents = place.exponents
  /-- Only a name by itself at the beginning can be assigned to. -/
  assignable : next.isAssignable = true →
    place.expectation = .beginning ∧ ∃ name, lexemes = [name] ∧ name.token = some .name

/-- A place that is ready for a rule is ready for its alternatives. -/
theorem Ready.alternative {rule part : Rule} {place : Place} (ready : place.Ready rule)
    (listed : part ∈ rule.alternatives) : place.Ready part := by
  -- At the beginning of an expression an operand comes next as well.
  have wants : place.expectation = .beginning → place.wantsOperand = true := by
    intro beginning
    simp [wantsOperand, beginning]
  cases rule <;> simp [Rule.alternatives] at listed
  case expression =>
    rcases listed with rfl | rfl
    · exact ready
    · exact ⟨wants ready.1, ready.2⟩
  case algebraicExpression => exact listed ▸ ready
  case multiplyingExpression => exact listed ▸ ready.1
  case powerExpression => exact listed ▸ ready
  case signedAtom => rcases listed with rfl | rfl <;> exact ready
  case atom =>
    rcases listed with rfl | rfl | rfl
    · exact ready
    · exact ready
    · exact .inl ready
  case number => rcases listed with rfl | rfl | rfl <;> exact ready

/-- What is known behind a part of a rule is known behind the rule. -/
theorem Passes.alternative {rule part : Rule} {lexemes : List Lexeme} {place next : Place}
    (passes : Passes part lexemes place next) (listed : part ∈ rule.alternatives) :
    Passes rule lexemes place next := by
  refine ⟨passes.complete, passes.outer_eq, ?_, passes.assignable⟩
  intro isOperand
  apply passes.exponents_eq
  -- The parts of an operand are operands.
  cases rule <;> simp [Rule.alternatives] at listed isOperand ⊢
  case signedAtom => rcases listed with rfl | rfl <;> simp
  case atom => rcases listed with rfl | rfl | rfl <;> simp
  case number => rcases listed with rfl | rfl | rfl <;> simp

/-- Behind an operand that is no name everything but the expectation is as in front of it. -/
theorem passes_afterOperand (rule : Rule) (lexemes : List Lexeme) (place : Place) :
    Passes rule lexemes place { place with expectation := .afterOperand } :=
  ⟨rfl, rfl, fun _ => rfl, fun assignable => nomatch assignable⟩

/-- Behind an operand the same levels are open as in front of it. -/
theorem Passes.levels_eq {rule : Rule} {lexemes : List Lexeme} {place next : Place}
    (passes : Passes rule lexemes place next)
    (isOperand : rule ∈ [.signedAtom, .functionExpression, .atom, .parenthesized, .number,
      .hexLiteral, .binaryLiteral, .decimalLiteral, .reference]) : next.levels = place.levels := by
  simp only [levels, passes.exponents_eq isOperand, passes.outer_eq]

/-- A place that is ready for operands in a row has no exponent open and wants one of them. -/
theorem ready_layer {rule operand : Rule} {accepted : List Operator} {place : Place}
    (layer : rule.layer? = some (accepted, operand)) (ready : place.Ready rule) :
    place.wantsOperand = true ∧ place.exponents = 0 ∧ Operator.power ∉ accepted ∧
      ∀ outer, Ready ⟨.operand, 0, outer⟩ operand := by
  -- There are two such layers, and neither of them is that of powers.
  cases rule <;> simp [Rule.layer?] at layer
  · obtain ⟨rfl, rfl⟩ := layer
    exact ⟨ready.1, ready.2, by decide, fun _ => ⟨rfl, rfl⟩⟩
  · obtain ⟨rfl, rfl⟩ := layer
    exact ⟨ready.1, ready.2, by decide, fun _ => rfl⟩

/-- The name of a function leads to where its argument is. -/
theorem step_keyword (limit : Nat) {place : Place} {name : Lexeme} {function : NamedFunction}
    (token : name.token = some .name) (keyword : name.text = function.keyword)
    (wants : place.wantsOperand = true) :
    place.Step limit name ⟨.afterName (place.expectation == .beginning) true, place.exponents,
      place.outer⟩ := by
  -- The keyword of a function is what a name is compared with.
  have called : (NamedFunction.called? name.text).isSome = true := by
    rw [keyword, NamedFunction.called?_keyword]
    rfl
  exact called ▸ .name token wants

/-- The target of an assignment and its equals sign lead to the value. -/
theorem reaches_target (limit : Nat) {place : Place} {name equals : Lexeme}
    (target : name.token = some .name) (token : equals.token = some .equals)
    (beginning : place.expectation = .beginning) :
    place.Reaches limit [name, equals] ⟨.operand, place.exponents, place.outer⟩ := by
  -- A name at the beginning may be assigned to.
  have wants : place.wantsOperand = true := by simp [wantsOperand, beginning]
  refine reaches_cons.mpr ⟨_, .name target wants, reaches_singleton.mpr (.equals token ?_)⟩
  simp [isAssignable, beginning]

end Place

/-- What a rule derives is scanned from every place that is ready for it and has levels free. -/
theorem Derives.scan {rule : Rule} {lexemes : List Lexeme} {tree : Expr}
    (derived : Derives rule lexemes tree) (limit : Nat) :
    ∀ place : Place, place.Ready rule → place.levels + tree.nest ≤ limit →
      ∃ next, place.Reaches limit lexemes next ∧ Place.Passes rule lexemes place next := by
  -- Each part of a derivation starts where the scan of the parts in front of it has led.
  induction derived with
  | alternative listed derived ih =>
    intro place ready bound
    obtain ⟨next, scanned, passes⟩ := ih place (ready.alternative listed) bound
    exact ⟨next, scanned, passes.alternative listed⟩
  | @literal kind rule lexeme value named token read =>
    intro place ready bound
    -- The rules of literals are ready where an operand comes next.
    have wants : place.wantsOperand = true := by
      cases kind <;> cases named <;> exact ready
    refine ⟨_, ?_, Place.passes_afterOperand rule [lexeme] place⟩
    exact Place.reaches_singleton.mpr (.literal kind token (.inl wants))
  | @signed minus digits value sign token glued read =>
    intro place ready bound
    -- The minus is taken as a sign, and only the digits may follow it.
    have signed : place.Step limit minus ⟨.digits, place.exponents, place.outer⟩ :=
      .sign sign ready
    refine ⟨_, ?_, Place.passes_afterOperand .decimalLiteral [minus, digits] place⟩
    refine Place.reaches_cons.mpr ⟨_, signed, Place.reaches_singleton.mpr ?_⟩
    exact .literal .decimal token (.inr ⟨rfl, rfl⟩)
  | @reference name token =>
    intro place ready bound
    refine ⟨_, Place.reaches_singleton.mpr (.name token ready), rfl, rfl, fun _ => rfl, ?_⟩
    intro assignable
    exact ⟨by simpa [Place.isAssignable] using assignable, name, rfl, token⟩
  | @parenthesized opening closing inner tree left derived right ih =>
    intro place ready bound
    simp only [Expr.nest] at bound
    -- The parenthesis counts one level, and the exponents around it stay open.
    have deeper := Place.levels_opening .beginning place
    have opened : place.Step limit opening ⟨.beginning, 0, place.exponents :: place.outer⟩ :=
      .opening left ready (by omega)
    obtain ⟨next, scanned, passes⟩ := ih ⟨.beginning, 0, place.exponents :: place.outer⟩
      ⟨rfl, rfl⟩ (by omega)
    have closed : next.Step limit closing ⟨.afterOperand, place.exponents, place.outer⟩ :=
      .closing right passes.complete passes.outer_eq
    refine ⟨_, ?_, Place.passes_afterOperand .parenthesized _ place⟩
    refine Place.reaches_cons.mpr ⟨_, opened, ?_⟩
    exact scanned.append (Place.reaches_singleton.mpr closed)
  | @call name function argument tree token keyword derived ih =>
    intro place ready bound
    have named := Place.step_keyword limit token keyword ready
    obtain ⟨next, scanned, passes⟩ := ih ⟨.afterName (place.expectation == .beginning) true,
      place.exponents, place.outer⟩ (.inr rfl) bound
    refine ⟨next, ?_, passes.complete, passes.outer_eq, fun _ => passes.exponents_eq (by simp), ?_⟩
    · exact Place.reaches_cons.mpr ⟨_, named, scanned⟩
    · intro assignable
      have beginning := (passes.assignable assignable).1
      contradiction
  | @power caret base exponent left right leftDerived token rightDerived leftIh rightIh =>
    intro place ready bound
    simp only [Expr.nest, if_true] at bound
    obtain ⟨between, baseScanned, basePasses⟩ := leftIh place ready (by omega)
    -- The base opens no level that stays open, so the exponent is one level deeper.
    have levels := basePasses.levels_eq (by simp)
    have deeper := Place.levels_caret .operand between
    have raised : between.Step limit caret ⟨.operand, between.exponents + 1, between.outer⟩ :=
      .caret token basePasses.complete (by omega)
    obtain ⟨next, scanned, passes⟩ := rightIh
      ⟨.operand, between.exponents + 1, between.outer⟩ rfl (by omega)
    refine ⟨next, ?_, passes.complete, passes.outer_eq.trans basePasses.outer_eq, by simp, ?_⟩
    · exact baseScanned.append (Place.reaches_cons.mpr ⟨_, raised, scanned⟩)
    · intro assignable
      have beginning := (passes.assignable assignable).1
      contradiction
  | @fold rule operand accepted operator sign former latter left right layer leftDerived token
      among rightDerived leftIh rightIh =>
    intro place ready bound
    obtain ⟨wants, closed, loose, operandReady⟩ := Place.ready_layer layer ready
    have notPower : operator ≠ .power := by
      intro power
      exact loose (power ▸ among)
    simp only [Expr.nest, notPower, if_false] at bound
    obtain ⟨between, formerScanned, formerPasses⟩ := leftIh place ready (by omega)
    have outer := formerPasses.outer_eq
    -- The operator ends the exponents that are open, and there were none in front of the rule.
    have folded : between.Step limit sign ⟨.operand, 0, between.outer⟩ :=
      .operator operator token notPower formerPasses.complete
    obtain ⟨next, scanned, passes⟩ := rightIh ⟨.operand, 0, between.outer⟩
      (operandReady between.outer) (by
        simp only [Place.levels, outer] at bound ⊢
        omega)
    refine ⟨next, ?_, passes.complete, passes.outer_eq.trans outer, ?_, ?_⟩
    · exact formerScanned.append (Place.reaches_cons.mpr ⟨_, folded, scanned⟩)
    · intro isOperand
      cases rule <;> simp [Rule.layer?] at layer isOperand
    · intro assignable
      have beginning := (passes.assignable assignable).1
      contradiction
  | @assignment name equals lexemes tree target token derived ih =>
    intro place ready bound
    obtain ⟨beginning, closed⟩ := ready
    simp only [Expr.nest] at bound
    have header := Place.reaches_target limit target token beginning
    obtain ⟨next, scanned, passes⟩ := ih ⟨.operand, place.exponents, place.outer⟩
      ⟨rfl, closed⟩ bound
    refine ⟨next, header.append scanned, passes.complete, passes.outer_eq, by simp, ?_⟩
    intro assignable
    have beginning := (passes.assignable assignable).1
    contradiction

/-- What is derived as an expression is scanned from the start, if the limit is high enough. -/
theorem Derives.scan_start {lexemes : List Lexeme} {tree : Expr}
    (derived : Derives .expression lexemes tree) {limit : Nat} (bound : tree.nest ≤ limit) :
    ∃ next, Place.start.Reaches limit lexemes next ∧
      Place.Passes .expression lexemes .start next :=
  derived.scan limit .start ⟨rfl, rfl⟩ (by simpa [Place.levels, Place.start] using bound)

/-- A sum does not start with a name and an equals sign. -/
theorem Derives.not_assigning {name equals : Lexeme} {others : List Lexeme} {tree : Expr}
    (derived : Derives .algebraicExpression (name :: equals :: others) tree)
    (target : name.token = some .name) : equals.token ≠ some .equals := by
  intro token
  obtain ⟨next, scanned, _⟩ := derived.scan tree.nest ⟨.operand, 0, []⟩ ⟨rfl, rfl⟩
    (by simp [Place.levels])
  obtain ⟨behind, named, scanned⟩ := Place.reaches_cons.mp scanned
  obtain ⟨value, assigned, _⟩ := Place.reaches_cons.mp scanned
  -- A name that is an operand cannot be assigned to.
  have own := named.eq_of_name target
  have assignable := assigned.isAssignable token
  rw [own] at assignable
  contradiction

/-- An expression ends with an operand. -/
theorem Derives.not_opening {before : List Lexeme} {last : Lexeme} {tree : Expr}
    (derived : Derives .expression (before ++ [last]) tree) :
    last.token ≠ some .equals ∧ last.token ≠ some .leftParen ∧
      ∀ operator, last.token.bind Token.operator? ≠ some operator := by
  -- Its scan comes to an end that is complete, and the last step tells what leads there.
  obtain ⟨next, scanned, passes⟩ := derived.scan_start (Nat.le_refl tree.nest)
  obtain ⟨middle, _, step⟩ := Place.reaches_append.mp scanned
  exact (Place.reaches_singleton.mp step).not_opening passes.complete

/-- No expression is made of minus signs alone. -/
theorem Derives.not_signs {lexemes : List Lexeme} {tree : Expr}
    (derived : Derives .expression lexemes tree) :
    ¬ ∀ lexeme ∈ lexemes, lexeme.token = some .minus := by
  intro signs
  obtain ⟨front, last, rfl⟩ := (List.eq_nil_or_concat' lexemes).resolve_left derived.ne_nil
  -- An expression does not end with an operator, and a minus writes one.
  have sign := signs last (by simp)
  have noOperator := derived.not_opening.2.2
  exact noOperator .subtract (by rw [sign]; rfl)

/-- No complete expression has a parenthesis open at its end. -/
theorem Derives.not_unclosed {before inner : List Lexeme} {opening : Lexeme} {tree part : Expr}
    (derived : Derives .expression (before ++ opening :: inner) tree)
    (left : opening.token = some .leftParen) : ¬ Derives .expression inner part := by
  intro partDerived
  -- Under a limit high enough for both, the scan of the whole passes the parenthesis.
  obtain ⟨last, scanned, passes⟩ := derived.scan_start (Nat.le_refl tree.nest)
  obtain ⟨outside, front, behind⟩ := Place.reaches_append.mp scanned
  obtain ⟨inside, step, later⟩ := Place.reaches_cons.mp behind
  obtain rfl := step.eq_of_leftParen left
  have deeper := Place.levels_opening .beginning outside
  obtain ⟨other, partScanned, partPasses⟩ := partDerived.scan
    (tree.nest + (outside.levels + 1 + part.nest))
    ⟨.beginning, 0, outside.exponents :: outside.outer⟩ ⟨rfl, rfl⟩ (by omega)
  obtain rfl := (later.mono (Nat.le_add_right _ _)).unique partScanned
  -- The part leaves the parenthesis open, and the whole leaves none open.
  have outer := passes.outer_eq.symm.trans partPasses.outer_eq
  contradiction

end Reckon
