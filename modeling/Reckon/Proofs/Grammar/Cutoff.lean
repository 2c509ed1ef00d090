import Reckon.Proofs.Grammar.Soundness

/-! Matching with some levels, side by side with matching with more: one is the other cut short. -/

namespace Reckon

/-- The rule on whose behalf a lexeme opens a level, if it opens one. -/
def Lexeme.opens? (lexeme : Lexeme) : Option Rule :=
  match lexeme.token with
  | some .leftParen => some .parenthesized
  | some .caret => some .powerExpression
  | _ => none

namespace Outcome

/-- The lexemes that a match leaves. -/
def rest : Outcome → List Lexeme
  | matched _ rest => rest
  | failed _ rest _ => rest

/-- A level counted around a match leaves the same lexemes. -/
@[simp] theorem rest_inLevel (outcome : Outcome) : outcome.inLevel.rest = outcome.rest := by
  cases outcome <;> rfl

/--
What comes of matching some lexemes with a number of levels, next to what comes of it with more.

Either both are the same, or the first fails behind a lexeme that would open a level too many, with
all of its levels open, and the second takes that lexeme too.
-/
inductive CutOff (free : Nat) (lexemes : List Lexeme) : Outcome → Outcome → Prop where
  | same {outcome : Outcome} (suffix : outcome.rest <:+ lexemes) :
      CutOff free lexemes outcome outcome
  | stopped {before rest : List Lexeme} {opener : Lexeme} {rule : Rule} {further : Outcome}
      (cut : lexemes = before ++ opener :: rest) (opens : opener.opens? = some rule)
      (suffix : further.rest <:+ rest) : CutOff free lexemes (failed rule rest free) further

namespace CutOff

variable {free : Nat} {lexemes latter : List Lexeme} {limited further : Outcome}

/-- What more levels leave is left at the end of the lexemes. -/
theorem suffix (cutOff : CutOff free lexemes limited further) : further.rest <:+ lexemes := by
  cases cutOff with
  | same suffix => exact suffix
  | stopped cut opens suffix =>
    -- What is left behind the opening lexeme is left behind all in front of it too.
    rw [cut]
    exact suffix.trans ((List.suffix_cons _ _).trans (List.suffix_append _ _))

/-- More lexemes may be in front. -/
theorem of_suffix (cutOff : CutOff free latter limited further) (part : latter <:+ lexemes) :
    CutOff free lexemes limited further := by
  obtain ⟨front, rfl⟩ := part
  cases cutOff with
  | same suffix => exact .same (suffix.trans (List.suffix_append _ _))
  | @stopped before rest opener rule _ cut opens suffix =>
    -- The lexemes in front come before those that were taken ahead of the opening one.
    have cut : front ++ latter = front ++ before ++ opener :: rest := by rw [cut, List.append_assoc]
    exact .stopped cut opens suffix

/-- A match goes on in both the same, or it has been cut short already. -/
theorem andThen (cutOff : CutOff free lexemes limited further) {next following : Expr → Matcher}
    (onwards : ∀ tree rest, CutOff free rest (next tree rest) (following tree rest)) :
    CutOff free lexemes (limited.andThen next) (further.andThen following) := by
  cases cutOff with
  | same suffix =>
    cases limited with
    -- Nothing follows a failure.
    | failed => exact .same suffix
    | matched tree rest => exact (onwards tree rest).of_suffix suffix
  | @stopped before rest opener rule _ cut opens suffix =>
    -- What goes on with more levels takes lexemes behind the one that opens the level.
    refine .stopped cut opens ?_
    cases further with
    | failed => exact suffix
    | matched tree left => exact (onwards tree left).suffix.trans suffix

/-- One level deeper there was one level more. -/
theorem inLevel (cutOff : CutOff free lexemes limited further) :
    CutOff (free + 1) lexemes limited.inLevel further.inLevel := by
  cases cutOff with
  | same suffix => exact .same (by rwa [rest_inLevel])
  | stopped cut opens suffix => exact .stopped cut opens (by rwa [rest_inLevel])

end CutOff

end Outcome

open Outcome

/-- A matcher with a number of levels, next to one with more. -/
def CutsOff (free : Nat) (matcher following : Matcher) : Prop :=
  ∀ lexemes, CutOff free lexemes (matcher lexemes) (following lexemes)

/-- The matchers of the next level, where fewer levels and more of them are free. -/
inductive CutsOffBelow : (free : Nat) → Option Matcher → Option Matcher → Prop where
  /-- There is no next level in either. -/
  | neither {free : Nat} : CutsOffBelow free none none
  /-- There is a next level with more levels only. -/
  | full {following : Matcher} (suffix : ∀ lexemes, (following lexemes).rest <:+ lexemes) :
      CutsOffBelow 0 none (some following)
  | both {free : Nat} {matcher following : Matcher} (cutsOff : CutsOff free matcher following) :
      CutsOffBelow (free + 1) (some matcher) (some following)

/-- What a level is opened for is cut short at the lexeme that opens it, or further on. -/
theorem CutsOffBelow.deeper {free : Nat} {inner following : Option Matcher}
    (below : CutsOffBelow free inner following) {opener : Lexeme} {rule : Rule}
    (opens : opener.opens? = some rule) {next : Expr → Matcher}
    (onwards : ∀ tree rest, (next tree rest).rest <:+ rest) (rest : List Lexeme) :
    CutOff free (opener :: rest) ((Grammar.deeper rule inner rest).andThen next)
      ((Grammar.deeper rule following rest).andThen next) := by
  have later (tree : Expr) (rest : List Lexeme) :
      CutOff free rest (next tree rest) (next tree rest) := .same (onwards tree rest)
  cases below with
  | neither => exact .same (List.suffix_cons opener rest)
  | both cutsOff =>
    exact ((cutsOff rest).inLevel.andThen later).of_suffix (List.suffix_cons opener rest)
  | @full matcher suffix =>
    -- The level would be opened right here.
    -- With more levels the inner match leaves a part of what is behind the opening lexeme.
    have whole : CutOff 0 rest (matcher rest).inLevel (matcher rest).inLevel :=
      .same (by simpa using suffix rest)
    have cut : opener :: rest = [] ++ opener :: rest := rfl
    exact .stopped cut opens (whole.andThen later).suffix

section Parts

variable {free : Nat}

/-- An expression between parentheses is cut short where one of its levels is not free. -/
theorem cutsOff_parenthesized {inner following : Option Matcher}
    (below : CutsOffBelow free inner following) :
    CutsOff free (Grammar.parenthesized inner) (Grammar.parenthesized following) := by
  intro lexemes
  simp only [Grammar.parenthesized]
  cases taken : Grammar.take? .leftParen lexemes with
  | none => exact .same (List.suffix_refl lexemes)
  | some found =>
    obtain ⟨opening, rest⟩ := found
    obtain ⟨rfl, token⟩ := Grammar.eq_of_take?_eq_some taken
    have opens : opening.opens? = some .parenthesized := by simp only [Lexeme.opens?, token]
    refine below.deeper opens ?_ rest
    -- Behind the expression there is the closing parenthesis or nothing is taken.
    intro tree rest
    cases taken : Grammar.take? .rightParen rest with
    | none => exact List.suffix_refl rest
    | some found =>
      obtain ⟨closing, rest⟩ := found
      obtain ⟨rfl, _⟩ := Grammar.eq_of_take?_eq_some taken
      exact List.suffix_cons closing rest

/-- An operand that is no call is cut short where it is an expression between parentheses. -/
theorem cutsOff_atom {inner following : Option Matcher}
    (below : CutsOffBelow free inner following) :
    CutsOff free (Grammar.atom inner) (Grammar.atom following) := by
  intro lexemes
  cases lexemes with
  | nil => exact .same (List.suffix_refl [])
  | cons first rest =>
    -- The first lexeme tells the operand, and only a parenthesis opens a level.
    have inside := cutsOff_parenthesized below (first :: rest)
    have failed : CutOff free (first :: rest) (.failed .atom (first :: rest) 0)
        (.failed .atom (first :: rest) 0) := .same (List.suffix_refl _)
    have matched (tree : Expr) :
        CutOff free (first :: rest) (.matched tree rest) (.matched tree rest) :=
      .same (List.suffix_cons first rest)
    cases found : first.token with
    | none =>
      simp only [Grammar.atom, found]
      exact failed
    | some kind =>
      cases kind with
      | hexadecimal | binary | decimal | name =>
        simp only [Grammar.atom, found]
        exact matched _
      | minus =>
        simp only [Grammar.atom, found]
        cases glued : Grammar.gluedDecimal? first rest with
        | none => exact failed
        | some digits =>
          obtain ⟨digits, behind⟩ := digits
          obtain ⟨rfl, _⟩ := Grammar.eq_of_gluedDecimal?_eq_some glued
          exact .same ((List.suffix_cons digits behind).trans (List.suffix_cons first _))
      | leftParen =>
        simp only [Grammar.atom, found]
        exact inside
      | plus | star | slash | caret | equals | rightParen =>
        simp only [Grammar.atom, found]
        exact failed

/-- An operand is cut short where the argument of a call is, or the operand without one. -/
theorem cutsOff_signedAtom {inner following : Option Matcher}
    (below : CutsOffBelow free inner following) :
    CutsOff free (Grammar.signedAtom inner) (Grammar.signedAtom following) := by
  intro lexemes
  simp only [Grammar.signedAtom]
  cases called : Grammar.called? lexemes with
  | none => exact cutsOff_atom below lexemes
  | some found =>
    obtain ⟨function, name, rest⟩ := found
    have part : rest <:+ lexemes := by
      obtain ⟨rfl, _⟩ := Grammar.eq_of_called?_eq_some called
      exact List.suffix_cons name rest
    -- The argument of a call is always in parentheses.
    refine ((cutsOff_parenthesized below rest).andThen fun argument rest => ?_).of_suffix part
    exact .same (List.suffix_refl rest)

/-- Operands that are folded are cut short in the first that is. -/
theorem cutOff_chainFrom (accepted : List Operator) {operand following : Matcher}
    (cutsOff : CutsOff free operand following) (rounds : Nat) (left : Expr)
    (lexemes : List Lexeme) :
    CutOff free lexemes (Grammar.chainFrom accepted operand rounds left lexemes)
      (Grammar.chainFrom accepted following rounds left lexemes) := by
  -- Every round folds one operand more, so the induction is on the rounds.
  induction rounds generalizing left lexemes with
  | zero => exact .same (List.suffix_refl lexemes)
  | succ rounds ih =>
    simp only [Grammar.chainFrom]
    cases next : Grammar.operator? accepted lexemes with
    | none => exact .same (List.suffix_refl lexemes)
    | some found =>
      obtain ⟨operator, rest⟩ := found
      have part : rest <:+ lexemes := by
        obtain ⟨sign, rfl, _⟩ := Grammar.eq_of_operator?_eq_some next
        exact List.suffix_cons sign rest
      exact ((cutsOff rest).andThen fun right rest => ih _ rest).of_suffix part

/-- Operands in a row are cut short in the first that is. -/
theorem cutsOff_chain (accepted : List Operator) {operand following : Matcher}
    (cutsOff : CutsOff free operand following) :
    CutsOff free (Grammar.chain accepted operand) (Grammar.chain accepted following) :=
  fun lexemes => (cutsOff lexemes).andThen fun left rest =>
    cutOff_chainFrom accepted cutsOff rest.length left rest

/-- A sum is cut short in the first power that is. -/
theorem cutsOff_additiveOver {power following : Matcher} (cutsOff : CutsOff free power following) :
    CutsOff free (Grammar.additiveOver power) (Grammar.additiveOver following) :=
  cutsOff_chain _ (cutsOff_chain _ cutsOff)

/-- An assignment is cut short in its value. -/
theorem cutOff_assignmentOver? {power following : Matcher} (cutsOff : CutsOff free power following)
    (lexemes : List Lexeme) :
    Option.Rel (CutOff free lexemes) (Grammar.assignmentOver? power lexemes)
      (Grammar.assignmentOver? following lexemes) := by
  -- It takes two lexemes to tell an assignment.
  cases lexemes with
  | nil => exact .none
  | cons name rest =>
    cases rest with
    | nil => exact .none
    | cons equals rest =>
      simp only [Grammar.assignmentOver?]
      split
      · have value := cutsOff_additiveOver cutsOff rest
        refine .some ((value.andThen fun value rest => ?_).of_suffix ?_)
        · exact .same (List.suffix_refl rest)
        · exact (List.suffix_cons equals rest).trans (List.suffix_cons name _)
      · exact .none

/-- An expression is cut short in its assignment or its sum. -/
theorem cutsOff_expressionOver {power following : Matcher}
    (cutsOff : CutsOff free power following) :
    CutsOff free (Grammar.expressionOver power) (Grammar.expressionOver following) := by
  intro lexemes
  -- Both see the same two lexemes, so both match an assignment or neither does.
  have assigned := cutOff_assignmentOver? cutsOff lexemes
  simp only [Grammar.expressionOver]
  generalize Grammar.assignmentOver? power lexemes = former at assigned ⊢
  generalize Grammar.assignmentOver? following lexemes = latter at assigned ⊢
  cases assigned with
  | none => exact cutsOff_additiveOver cutsOff lexemes
  | some cutOff => exact cutOff

/-- Between parentheses there are the expressions over the powers of the next level. -/
theorem CutsOffBelow.map_expressionOver {power following : Option Matcher}
    (below : CutsOffBelow free power following) :
    CutsOffBelow free (power.map Grammar.expressionOver)
      (following.map Grammar.expressionOver) := by
  cases below with
  | neither => exact .neither
  | both cutsOff => exact .both (cutsOff_expressionOver cutsOff)
  | @full following suffix =>
    -- A match is no different from itself, so what it leaves is at the end of the lexemes.
    have own : CutsOff 0 following following := fun lexemes => .same (suffix lexemes)
    exact .full fun lexemes => (cutsOff_expressionOver own lexemes).suffix

/-- A power is cut short in its base, at the caret or in its exponent. -/
theorem cutsOff_powerOver {deeper following : Option Matcher}
    (below : CutsOffBelow free deeper following) :
    CutsOff free (Grammar.powerOver deeper) (Grammar.powerOver following) := by
  intro lexemes
  -- The base is matched at the level of the power, and the exponent one level deeper.
  refine (cutsOff_signedAtom below.map_expressionOver lexemes).andThen fun base rest => ?_
  cases taken : Grammar.take? .caret rest with
  | none => exact .same (List.suffix_refl rest)
  | some found =>
    obtain ⟨caret, rest⟩ := found
    obtain ⟨rfl, token⟩ := Grammar.eq_of_take?_eq_some taken
    -- A caret opens a level for the exponent behind it.
    have opens : caret.opens? = some .powerExpression := by simp only [Lexeme.opens?, token]
    refine below.deeper opens ?_ rest
    intro exponent rest
    exact List.suffix_refl rest

end Parts

/-- What a power leaves is left at the end of the lexemes. -/
theorem suffix_power (free : Nat) (lexemes : List Lexeme) :
    (Grammar.power free lexemes).rest <:+ lexemes := by
  -- The matcher of each level leaves such a part if that of the next level does.
  induction free generalizing lexemes with
  | zero =>
    have below : CutsOffBelow 0 none none := .neither
    exact (cutsOff_powerOver below lexemes).suffix
  | succ free ih =>
    have own : CutsOff 0 (Grammar.power free) (Grammar.power free) :=
      fun lexemes => .same (ih lexemes)
    exact (cutsOff_powerOver (.both own) lexemes).suffix

/-- With fewer levels a power is matched as with more, unless it is cut short. -/
theorem cutsOff_power {free more : Nat} (bound : free ≤ more) :
    CutsOff free (Grammar.power free) (Grammar.power more) := by
  -- What is one level deeper is matched with one level less, in both.
  induction free generalizing more with
  | zero =>
    cases more with
    | zero => exact cutsOff_powerOver .neither
    -- Without a level to open, the matcher with more has to be cut at the first one.
    | succ more => exact cutsOff_powerOver (.full (suffix_power more))
  | succ free ih =>
    obtain ⟨more, rfl⟩ := Nat.exists_eq_add_of_le' (Nat.lt_of_lt_of_le (Nat.succ_pos free) bound)
    exact cutsOff_powerOver (.both (ih (Nat.le_of_succ_le_succ bound)))

end Reckon
