import Reckon.Proofs.Grammar.Completeness
import Reckon.Proofs.Tree.Placement

/-! Matching two lists of lexemes side by side, which say the same but stand elsewhere. -/

namespace Reckon

/-- Whether an operand comes next: behind an operator, an equals sign or an opening parenthesis. -/
def Lexeme.precedesOperand (lexeme : Lexeme) : Bool :=
  lexeme.isToken .equals || lexeme.isToken .leftParen ||
    (lexeme.token.bind Token.operator?).isSome

/-- Lexemes of one kind pass for the same kinds. -/
theorem Lexeme.isToken_eq {lexeme other : Lexeme} (same : other.token = lexeme.token) :
    other.isToken = lexeme.isToken := by
  funext token
  rw [isToken, same, isToken]

/-- Behind each of the kinds of lexeme that say so an operand comes next. -/
theorem Lexeme.precedesOperand_eq_true {lexeme : Lexeme} {token : Token}
    (found : lexeme.token = some token)
    (precedes : token ∈ [.equals, .leftParen, .plus, .minus, .star, .slash, .caret]) :
    lexeme.precedesOperand = true := by
  rw [precedesOperand, isToken, isToken, found]
  -- What is left is a check of each kind in the list.
  clear found
  revert token
  decide

/--
Whether nothing is between a minus and the decimal literal directly behind it, for each such minus
in the place of an operand.

The first argument says whether an operand comes first.
-/
def adjacencies : (operandFirst : Bool) → List Lexeme → List Bool
  | operandFirst, first :: second :: rest =>
    let later := adjacencies first.precedesOperand (second :: rest)
    if operandFirst && first.isToken .minus && second.isToken .decimal then
      (second.span.offset == first.span.stop) :: later
    else later
  | _, _ => []

/-- Lexemes of the same kinds and texts one by one, with the same minus signs next to digits. -/
inductive Aligned : (operandFirst : Bool) → List Lexeme → List Lexeme → Prop where
  | nil {operandFirst : Bool} : Aligned operandFirst [] []
  | cons {operandFirst : Bool} {first second : Lexeme} {rest others : List Lexeme}
      (token : second.token = first.token) (text : second.text = first.text)
      (joined : operandFirst = true → first.token = some .minus → ∀ digits ∈ rest.head?,
        digits.token = some .decimal → ∀ figures ∈ others.head?,
          (digits.span.offset = first.span.stop ↔ figures.span.offset = second.span.stop))
      (later : Aligned first.precedesOperand rest others) :
      Aligned operandFirst (first :: rest) (second :: others)

namespace Aligned

variable {operandFirst : Bool} {lexemes others : List Lexeme}

/-- Lexemes are aligned when their kinds and texts are the same and their adjacencies are. -/
theorem of_adjacencies (spelled : lexemes.map Lexeme.spelling = others.map Lexeme.spelling)
    (joined : adjacencies operandFirst lexemes = adjacencies operandFirst others) :
    Aligned operandFirst lexemes others := by
  -- The lists lose one lexeme each, and the adjacencies at most one.
  induction lexemes generalizing operandFirst others with
  | nil =>
    obtain rfl : others = [] := List.map_eq_nil_iff.mp spelled.symm
    exact .nil
  | cons first rest ih =>
    obtain ⟨second, others, rfl, same, later⟩ := List.map_eq_cons_iff.mp spelled.symm
    obtain ⟨token, text⟩ := Prod.mk.inj same
    cases rest with
    | nil =>
      obtain rfl : others = [] := List.map_eq_nil_iff.mp later
      exact .cons token text (by simp) .nil
    | cons digits rest =>
      obtain ⟨figures, others, rfl, next, _⟩ := List.map_eq_cons_iff.mp later
      have operand : second.precedesOperand = first.precedesOperand := by
        simp only [Lexeme.precedesOperand, Lexeme.isToken, token]
      simp only [adjacencies, Lexeme.isToken_eq token, Lexeme.isToken_eq (Prod.mk.inj next).1,
        operand] at joined
      -- The kinds decide whether the first of the adjacencies is that of the first lexeme.
      by_cases sign : (operandFirst && first.isToken .minus && digits.isToken .decimal) = true
      · rw [if_pos sign, if_pos sign] at joined
        obtain ⟨own, behind⟩ := List.cons.inj joined
        refine .cons token text ?_ (ih later.symm behind)
        intro _ _ next isNext _ following isFollowing
        obtain rfl := Option.some.inj isNext
        obtain rfl := Option.some.inj isFollowing
        rw [← beq_iff_eq, own, beq_iff_eq]
      · rw [if_neg sign, if_neg sign] at joined
        refine .cons token text ?_ (ih later.symm joined)
        intro wanted isMinus next isNext isDecimal
        obtain rfl := Option.some.inj isNext
        simp [wanted, isMinus, isDecimal, Lexeme.isToken] at sign

/-- Aligned lexemes are as many. -/
theorem length_eq (aligned : Aligned operandFirst lexemes others) :
    lexemes.length = others.length := by
  induction aligned with
  | nil => rfl
  | cons token text joined later ih => simp [ih]

/-- Behind an operand a minus is an operator, wherever the digits stand. -/
theorem afterOperand (aligned : Aligned operandFirst lexemes others) :
    Aligned false lexemes others := by
  -- Only the first lexeme is judged by what comes in front of it.
  cases aligned with
  | nil => exact .nil
  | cons token text joined later => exact .cons token text (fun operand => nomatch operand) later

end Aligned

/-- Two matches of the same tree but for its ranges, or two failures of one rule at one index. -/
inductive Outcome.Agrees : Outcome → Outcome → Prop where
  | matched {tree other : Expr} {rest others : List Lexeme} (shape : tree.shape = other.shape)
      (aligned : Aligned false rest others) : Agrees (.matched tree rest) (.matched other others)
  | failed {rule : Rule} {rest others : List Lexeme} {opened : Nat}
      (length : rest.length = others.length) :
      Agrees (.failed rule rest opened) (.failed rule others opened)

namespace Outcome.Agrees

variable {former latter : Outcome}

/-- What agrees goes on to what agrees. -/
theorem andThen (agrees : former.Agrees latter) {next following : Expr → Matcher}
    (onwards : ∀ tree other rest others, tree.shape = other.shape → Aligned false rest others →
      (next tree rest).Agrees (following other others)) :
    (former.andThen next).Agrees (latter.andThen following) := by
  -- Trees of one shape are gone on from alike, and failures end both.
  cases agrees with
  | matched shape aligned => exact onwards _ _ _ _ shape aligned
  | failed length => exact .failed length

/-- What agrees does one level deeper too. -/
theorem inLevel (agrees : former.Agrees latter) : former.inLevel.Agrees latter.inLevel := by
  cases agrees with
  | matched shape aligned => exact .matched shape aligned
  | failed length => exact .failed length

end Outcome.Agrees

/-- A matcher whose outcomes agree where an operand comes first and the lexemes are aligned. -/
def Respects (matcher : Matcher) : Prop :=
  ∀ lexemes others, Aligned true lexemes others → (matcher lexemes).Agrees (matcher others)

section Parts

variable {operandFirst : Bool} {lexemes others : List Lexeme}

/-- From aligned lexemes the same is taken, and what is left is aligned. -/
theorem Aligned.take? (aligned : Aligned operandFirst lexemes others) (token : Token) :
    Option.Rel (fun taken other => taken.1.token = some token ∧ other.1.text = taken.1.text ∧
        Aligned taken.1.precedesOperand taken.2 other.2)
      (Grammar.take? token lexemes) (Grammar.take? token others) := by
  cases aligned with
  | nil => exact .none
  | @cons _ first second rest others same text joined later =>
    -- Both first lexemes are of one kind, so the same question is asked of them.
    simp only [Grammar.take?, Lexeme.isToken, same, beq_iff_eq]
    split
    · exact .some ⟨‹_›, text, later⟩
    · exact .none

/-- One level deeper a matcher respects what it does by itself, if there is such a level. -/
theorem respects_deeper (rule : Rule) {inner : Option Matcher}
    (respects : ∀ matcher ∈ inner, Respects matcher) : Respects (Grammar.deeper rule inner) := by
  intro lexemes others aligned
  cases inner with
  -- Without a level both fail where they are, with as many lexemes left.
  | none => exact .failed aligned.length_eq
  | some matcher => exact (respects matcher rfl lexemes others aligned).inLevel

/-- Between parentheses an operand comes first, wherever the parentheses stand. -/
theorem agrees_parenthesized {inner : Option Matcher}
    (respects : ∀ matcher ∈ inner, Respects matcher)
    (aligned : Aligned operandFirst lexemes others) :
    (Grammar.parenthesized inner lexemes).Agrees (Grammar.parenthesized inner others) := by
  have length := aligned.length_eq
  have taken := aligned.take? .leftParen
  simp only [Grammar.parenthesized]
  generalize Grammar.take? .leftParen lexemes = former at taken ⊢
  generalize Grammar.take? .leftParen others = latter at taken ⊢
  cases taken with
  | none => exact .failed length
  | some found =>
    obtain ⟨token, _, aligned⟩ := found
    rw [Lexeme.precedesOperand_eq_true token (by decide)] at aligned
    refine (respects_deeper .parenthesized respects _ _ aligned).andThen ?_
    -- Behind the expression the parenthesis is closed in both lists or in neither.
    intro tree other rest others shape aligned
    have length := aligned.length_eq
    have taken := aligned.take? .rightParen
    generalize Grammar.take? .rightParen rest = former at taken ⊢
    generalize Grammar.take? .rightParen others = latter at taken ⊢
    cases taken with
    | none => exact .failed length
    | some found =>
      refine .matched ?_ found.2.2.afterOperand
      simp only [Expr.shape, shape]

/-- A minus has the same decimal literal right behind it where an operand comes first. -/
theorem Aligned.gluedDecimal? {minus hyphen : Lexeme}
    (aligned : Aligned true (minus :: lexemes) (hyphen :: others))
    (sign : minus.token = some .minus) :
    Option.Rel (fun taken other => other.1.text = taken.1.text ∧ Aligned false taken.2 other.2)
      (Grammar.gluedDecimal? minus lexemes) (Grammar.gluedDecimal? hyphen others) := by
  cases aligned with
  | cons token text joined later =>
    have joined := joined rfl sign
    cases later with
    | nil => exact .none
    | @cons _ digits figures rest others kind text _ later =>
      by_cases decimal : digits.token = some .decimal
      · -- No other test of a matcher looks at where a lexeme stands.
        have same := joined digits rfl decimal figures rfl
        simp only [Grammar.gluedDecimal?, Grammar.take?_cons decimal,
          Grammar.take?_cons (kind.trans decimal), Option.filter, beq_iff_eq, ← same]
        split
        · exact .some ⟨text, later.afterOperand⟩
        · exact .none
      · simp only [Grammar.gluedDecimal?, Grammar.take?, Lexeme.isToken, kind, beq_iff_eq, decimal,
          if_false]
        exact .none

/-- An operand that is no call is matched the same. -/
theorem respects_atom {inner : Option Matcher} (respects : ∀ matcher ∈ inner, Respects matcher) :
    Respects (Grammar.atom inner) := by
  intro lexemes others aligned
  have whole := aligned
  cases aligned with
  | nil => exact .failed rfl
  | @cons _ first second rest others token text joined later =>
    have length := whole.length_eq
    have glued := whole.gluedDecimal?
    -- The kind of the first lexeme decides what is matched.
    cases found : first.token with
    | none =>
      simp only [Grammar.atom, token, found]
      exact .failed length
    | some kind =>
      cases kind with
      | hexadecimal | binary | decimal | name =>
        simp only [Grammar.atom, token, found, text]
        exact .matched rfl later.afterOperand
      | minus =>
        have glued := glued found
        simp only [Grammar.atom, token, found]
        generalize Grammar.gluedDecimal? first rest = former at glued ⊢
        generalize Grammar.gluedDecimal? second others = latter at glued ⊢
        cases glued with
        | none => exact .failed length
        | some digits =>
          obtain ⟨same, aligned⟩ := digits
          refine .matched ?_ aligned
          simp only [text, same, Grammar.literal, Expr.shape]
      | leftParen =>
        simp only [Grammar.atom, token, found]
        exact agrees_parenthesized respects whole
      | plus | star | slash | caret | equals | rightParen =>
        simp only [Grammar.atom, token, found]
        exact .failed length

/-- The same function is called. -/
theorem Aligned.called? (aligned : Aligned operandFirst lexemes others) :
    Option.Rel (fun called other => other.1 = called.1 ∧ Aligned false called.2.2 other.2.2)
      (Grammar.called? lexemes) (Grammar.called? others) := by
  cases aligned with
  | nil => exact .none
  | @cons _ name title rest others token text joined later =>
    have whole := later.afterOperand
    cases later with
    | nil => exact .none
    | cons second _ _ _ =>
      -- The name and the parenthesis behind it are looked at, and the parenthesis is left.
      simp only [Grammar.called?, Lexeme.isToken_eq token, Lexeme.isToken_eq second, text]
      split
      · cases NamedFunction.called? name.text with
        | none => exact .none
        | some function => exact .some ⟨rfl, whole⟩
      · exact .none

/-- An operand is matched the same, be it a call or not. -/
theorem respects_signedAtom {inner : Option Matcher}
    (respects : ∀ matcher ∈ inner, Respects matcher) : Respects (Grammar.signedAtom inner) := by
  intro lexemes others aligned
  have plain := respects_atom respects lexemes others aligned
  have called := aligned.called?
  simp only [Grammar.signedAtom]
  generalize Grammar.called? lexemes = former at called ⊢
  generalize Grammar.called? others = latter at called ⊢
  cases called with
  | none => exact plain
  | some found =>
    obtain ⟨function, aligned⟩ := found
    -- The same function is called on arguments of one shape.
    refine (agrees_parenthesized respects aligned).andThen ?_
    intro argument other rest others shape aligned
    refine .matched ?_ aligned
    simp only [Expr.shape, function, shape]

/-- The same operator comes next, and then an operand does. -/
theorem Aligned.operator? (aligned : Aligned operandFirst lexemes others)
    (accepted : List Operator) :
    Option.Rel (fun found other => other.1 = found.1 ∧ Aligned true found.2 other.2)
      (Grammar.operator? accepted lexemes) (Grammar.operator? accepted others) := by
  cases aligned with
  | nil => exact .none
  | @cons _ sign symbol rest others token text joined later =>
    simp only [Grammar.operator?, token]
    cases found : (sign.token.bind Token.operator?).filter accepted.contains with
    | none => exact .none
    | some operator =>
      refine .some ⟨rfl, ?_⟩
      -- What writes an operator comes in front of an operand.
      have writes := (Option.filter_eq_some_iff.mp found).1
      rwa [show sign.precedesOperand = true by simp [Lexeme.precedesOperand, writes]] at later

/-- The same operands are folded onto operands of one shape. -/
theorem agrees_chainFrom (accepted : List Operator) {operand : Matcher}
    (respects : Respects operand) (rounds : Nat) {left other : Expr}
    (shape : left.shape = other.shape) (aligned : Aligned false lexemes others) :
    (Grammar.chainFrom accepted operand rounds left lexemes).Agrees
      (Grammar.chainFrom accepted operand rounds other others) := by
  -- Every round folds one operand more, so the induction is on the rounds.
  induction rounds generalizing left other lexemes others with
  | zero => exact .matched shape aligned
  | succ rounds ih =>
    have found := aligned.operator? accepted
    simp only [Grammar.chainFrom]
    generalize Grammar.operator? accepted lexemes = former at found ⊢
    generalize Grammar.operator? accepted others = latter at found ⊢
    cases found with
    | none => exact .matched shape aligned
    | some next =>
      obtain ⟨operator, aligned⟩ := next
      refine (respects _ _ aligned).andThen ?_
      intro right another rest others same aligned
      -- The two operations are of one shape, as their operands are.
      refine ih ?_ aligned
      simp only [Grammar.operation, Expr.shape, shape, operator, same]

/-- Operands in a row are matched the same. -/
theorem respects_chain (accepted : List Operator) {operand : Matcher}
    (respects : Respects operand) : Respects (Grammar.chain accepted operand) := by
  intro lexemes others aligned
  refine (respects lexemes others aligned).andThen ?_
  intro left other rest others shape aligned
  -- As many lexemes are left in both lists, so there are as many rounds.
  rw [aligned.length_eq]
  exact agrees_chainFrom accepted respects others.length shape aligned

/-- An assignment or a sum is matched the same. -/
theorem respects_expressionOver {power : Matcher} (respects : Respects power) :
    Respects (Grammar.expressionOver power) := by
  have additive : Respects (Grammar.additiveOver power) :=
    respects_chain _ (respects_chain _ respects)
  intro lexemes others aligned
  have sum := additive lexemes others aligned
  -- It takes two lexemes to tell an assignment, and without them there is a sum or nothing.
  cases aligned with
  | nil => exact sum
  | @cons _ name title rest others token text joined later =>
    cases later with
    | nil => exact sum
    | @cons _ equals symbol rest others second _ _ later =>
      simp only [Grammar.expressionOver, Grammar.assignmentOver?, Lexeme.isToken_eq token,
        Lexeme.isToken_eq second]
      by_cases assigns : (name.isToken .name && equals.isToken .equals) = true
      · -- Behind the equals sign an operand comes first again.
        have isEquals : equals.token = some .equals := by
          simp only [Lexeme.isToken, Bool.and_eq_true, beq_iff_eq] at assigns
          exact assigns.2
        rw [Lexeme.precedesOperand_eq_true isEquals (by decide)] at later
        simp only [if_pos assigns]
        refine (additive _ _ later).andThen ?_
        intro value other rest others shape aligned
        refine .matched ?_ aligned
        simp only [Expr.shape, text, shape]
      · simp only [if_neg assigns]
        exact sum

/-- An operand and its exponent are matched the same. -/
theorem respects_powerOver {deeper : Option Matcher}
    (respects : ∀ matcher ∈ deeper, Respects matcher) : Respects (Grammar.powerOver deeper) := by
  intro lexemes others aligned
  -- What is between parentheses is an expression over the powers of the next level.
  have inner : ∀ matcher ∈ deeper.map Grammar.expressionOver, Respects matcher := by
    intro matcher member
    obtain ⟨power, isPower, rfl⟩ := Option.map_eq_some_iff.mp member
    exact respects_expressionOver (respects power isPower)
  refine (respects_signedAtom inner lexemes others aligned).andThen ?_
  intro base other rest others shape aligned
  have taken := aligned.take? .caret
  generalize Grammar.take? .caret rest = former at taken ⊢
  generalize Grammar.take? .caret others = latter at taken ⊢
  cases taken with
  -- Without a caret the base is the power.
  | none => exact .matched shape aligned
  | some found =>
    obtain ⟨token, _, aligned⟩ := found
    rw [Lexeme.precedesOperand_eq_true token (by decide)] at aligned
    refine (respects_deeper .powerExpression respects _ _ aligned).andThen ?_
    intro exponent another rest others same aligned
    refine .matched ?_ aligned
    simp only [Grammar.operation, Expr.shape, shape, same]

end Parts

/-- A power is matched the same with any number of levels. -/
theorem respects_power (free : Nat) : Respects (Grammar.power free) := by
  -- What is one level deeper is matched with one level less.
  induction free with
  | zero => exact respects_powerOver (by simp)
  | succ free ih => exact respects_powerOver (by simpa using ih)

/-- An expression is matched the same with any number of levels. -/
theorem respects_expression (free : Nat) : Respects (Grammar.expression free) :=
  respects_expressionOver (respects_power free)

end Reckon
