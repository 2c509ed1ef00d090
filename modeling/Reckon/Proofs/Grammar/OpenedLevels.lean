import Reckon.Proofs.Grammar.Soundness

/-! A failed match leaves no more levels open than were free. -/

namespace Reckon

/-- The number of levels that a match leaves open. -/
def Outcome.opened : Outcome → Nat
  | matched _ _ => 0
  | failed _ _ opened => opened

/-- A matcher that leaves at most a number of levels open. -/
def OpensAtMost (free : Nat) (matcher : Matcher) : Prop :=
  ∀ lexemes, (matcher lexemes).opened ≤ free

namespace Outcome

variable {free : Nat} {outcome : Outcome}

/-- What goes on behind a match closes its levels first. -/
theorem opened_andThen (bound : outcome.opened ≤ free) {next : Expr → Matcher}
    (onwards : ∀ tree rest, (next tree rest).opened ≤ free) :
    (outcome.andThen next).opened ≤ free := by
  -- A match that goes on has closed what it opened, and a failure stays as it is.
  cases outcome with
  | matched tree rest => exact onwards tree rest
  | failed rule rest opened => exact bound

/-- Around a match one level more may be left open. -/
theorem opened_inLevel (bound : outcome.opened ≤ free) : outcome.inLevel.opened ≤ free + 1 := by
  -- Only a failure leaves the level of the match open, besides those inside.
  cases outcome with
  | matched tree rest => exact Nat.zero_le _
  | failed rule rest opened => exact Nat.succ_le_succ bound

end Outcome

section Atoms

variable {free : Nat} {inner : Option Matcher}
  (below : ∀ matcher ∈ inner, ∃ lower, free = lower + 1 ∧ OpensAtMost lower matcher)

include below

/-- A level is opened only where one is free. -/
theorem opensAtMost_deeper (rule : Rule) : OpensAtMost free (Grammar.deeper rule inner) := by
  intro lexemes
  -- Where no level is free, the rule fails before it opens one.
  cases inner with
  | none => exact Nat.zero_le free
  | some matcher =>
    obtain ⟨lower, rfl, bounded⟩ := below matcher rfl
    exact Outcome.opened_inLevel (bounded lexemes)

/-- Parentheses leave open what is left open between them, and their own level. -/
theorem opensAtMost_parenthesized : OpensAtMost free (Grammar.parenthesized inner) := by
  intro lexemes
  rw [Grammar.parenthesized]
  -- Without an opening parenthesis no level is opened.
  split
  · exact Nat.zero_le free
  · refine Outcome.opened_andThen (opensAtMost_deeper below _ _) fun tree rest => ?_
    -- Behind the expression its level is closed, whether a parenthesis follows or not.
    split <;> exact Nat.zero_le free

/-- An atom leaves open what its parentheses do. -/
theorem opensAtMost_atom : OpensAtMost free (Grammar.atom inner) := by
  intro lexemes
  cases lexemes with
  | nil => exact Nat.zero_le free
  | cons first rest =>
    rw [Grammar.atom]
    cases found : first.token with
    | none => exact Nat.zero_le free
    | some kind =>
      -- Only a parenthesis opens a level.
      cases kind with
      | leftParen => exact opensAtMost_parenthesized below _
      | minus =>
        dsimp only
        split <;> exact Nat.zero_le free
      | hexadecimal | binary | decimal | name => exact Nat.zero_le free
      | plus | star | slash | caret | equals | rightParen => exact Nat.zero_le free

/-- A call leaves open what its argument does. -/
theorem opensAtMost_signedAtom : OpensAtMost free (Grammar.signedAtom inner) := by
  intro lexemes
  rw [Grammar.signedAtom]
  -- A call opens no level of its own besides that of its parentheses.
  split
  · exact Outcome.opened_andThen (opensAtMost_parenthesized below _) fun _ _ => Nat.zero_le free
  · exact opensAtMost_atom below lexemes

end Atoms

section Layers

variable {free : Nat}

/-- Operands that are folded leave open what the last of them does. -/
theorem opened_chainFrom (accepted : List Operator) {operand : Matcher}
    (bounded : OpensAtMost free operand) (rounds : Nat) (left : Expr) (lexemes : List Lexeme) :
    (Grammar.chainFrom accepted operand rounds left lexemes).opened ≤ free := by
  -- Each operand before the last one has been matched, and with it its levels are closed.
  induction rounds generalizing left lexemes with
  | zero => exact Nat.zero_le free
  | succ rounds ih =>
    rw [Grammar.chainFrom]
    split
    · exact Nat.zero_le free
    · exact Outcome.opened_andThen (bounded _) fun _ _ => ih _ _

/-- Operands in a row leave open what the last of them does. -/
theorem opensAtMost_chain (accepted : List Operator) {operand : Matcher}
    (bounded : OpensAtMost free operand) : OpensAtMost free (Grammar.chain accepted operand) :=
  fun lexemes => Outcome.opened_andThen (bounded lexemes) fun left rest =>
    opened_chainFrom accepted bounded rest.length left rest

/-- A sum leaves open what its powers do. -/
theorem opensAtMost_additiveOver {power : Matcher} (bounded : OpensAtMost free power) :
    OpensAtMost free (Grammar.additiveOver power) :=
  opensAtMost_chain _ (opensAtMost_chain _ bounded)

/-- An expression leaves open what its powers do. -/
theorem opensAtMost_expressionOver {power : Matcher} (bounded : OpensAtMost free power) :
    OpensAtMost free (Grammar.expressionOver power) := by
  have additive := opensAtMost_additiveOver bounded
  intro lexemes
  rw [Grammar.expressionOver]
  -- An assignment takes two lexemes without a level, and then it is a sum.
  split
  case h_1 outcome assigned =>
    obtain ⟨name, equals, rest, _, _, _, rfl⟩ := Grammar.eq_of_assignmentOver?_eq_some assigned
    exact Outcome.opened_andThen (additive rest) fun _ _ => Nat.zero_le free
  case h_2 => exact additive lexemes

/-- A power leaves open what its base does, or what its exponent does and the level of that. -/
theorem opensAtMost_powerOver {deeper : Option Matcher}
    (below : ∀ matcher ∈ deeper, ∃ lower, free = lower + 1 ∧ OpensAtMost lower matcher) :
    OpensAtMost free (Grammar.powerOver deeper) := by
  -- What is between parentheses is an expression over the powers of the next level.
  have inner : ∀ matcher ∈ deeper.map Grammar.expressionOver,
      ∃ lower, free = lower + 1 ∧ OpensAtMost lower matcher := by
    intro matcher member
    obtain ⟨power, isPower, rfl⟩ := Option.map_eq_some_iff.mp member
    obtain ⟨lower, same, bounded⟩ := below power isPower
    exact ⟨lower, same, opensAtMost_expressionOver bounded⟩
  intro lexemes
  refine Outcome.opened_andThen (opensAtMost_signedAtom inner lexemes) fun base rest => ?_
  split
  · exact Nat.zero_le free
  · -- Behind the caret one level is opened for the exponent, as between parentheses.
    refine Outcome.opened_andThen (opensAtMost_deeper below _ _) fun _ _ => Nat.zero_le free

end Layers

/-- A power leaves no more levels open than are free. -/
theorem opensAtMost_power (free : Nat) : OpensAtMost free (Grammar.power free) := by
  -- The powers of the next level have one level less that is free.
  induction free with
  | zero => exact opensAtMost_powerOver (by simp)
  | succ free ih => exact opensAtMost_powerOver (by simpa using ih)

end Reckon
