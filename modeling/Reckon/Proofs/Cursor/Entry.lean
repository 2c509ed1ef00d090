import Reckon.Proofs.Grammar.LevelLimit
import Reckon.Proofs.Grammar.OpenedLevels

/-! What a match takes and what it leaves open, whichever rule is matched from a position. -/

namespace Reckon

namespace Entry

/-- The rule whose derivations a match is one of, where a whole line has no such rule. -/
def rule? : Entry → Option Rule
  | session => none
  | expression => some .expression
  | assignment => some .assignment
  | additive => some .algebraicExpression
  | multiplicative => some .multiplyingExpression
  | power => some .powerExpression

variable {entry : Entry} {source : String} {lexemes : List Lexeme} {free : Nat} {outcome : Outcome}

/-- A match of a rule explains what stands there. -/
theorem explains {rule : Rule} (named : entry.rule? = some rule) (orderly : Orderly lexemes)
    (said : entry.outcome? source lexemes free = some outcome) :
    Explains free rule [] lexemes outcome := by
  -- All rules are sound over powers that are, with the levels that are free.
  have power := (sound_expression_and_power free).2
  cases entry with
  | session => contradiction
  | assignment =>
    obtain rfl := Option.some.inj named
    exact explains_assignment power.additive orderly said
  | expression =>
    obtain rfl := Option.some.inj named
    exact Option.some.inj said ▸ sound_expression power.additive lexemes orderly
  | additive =>
    obtain rfl := Option.some.inj named
    exact Option.some.inj said ▸ power.additive lexemes orderly
  | multiplicative =>
    obtain rfl := Option.some.inj named
    exact Option.some.inj said ▸ sound_multiplicative free lexemes orderly
  | power =>
    obtain rfl := Option.some.inj named
    exact Option.some.inj said ▸ power lexemes orderly

/-- What a match explains it has taken, and a tree is derived from one lexeme at least. -/
theorem exists_taken_of_explains {rule : Rule} (explains : Explains free rule [] lexemes outcome) :
    ∃ taken, lexemes = taken ++ outcome.rest ∧
      ∀ tree rest, outcome = .matched tree rest → taken ≠ [] := by
  cases outcome with
  | matched tree rest =>
    obtain ⟨taken, cut, derived, _⟩ := explains
    exact ⟨taken, cut, fun _ _ _ => derived.ne_nil⟩
  -- A failure says nothing of a tree.
  | failed reported rest opened =>
    obtain ⟨taken, cause, cut, _⟩ := explains
    refine ⟨taken, cut, ?_⟩
    intro tree left same
    contradiction

/-- A match leaves the lexemes behind those that it takes, and takes one at least for a tree. -/
theorem exists_taken (orderly : Orderly lexemes)
    (said : entry.outcome? source lexemes free = some outcome) :
    ∃ taken, lexemes = taken ++ outcome.rest ∧
      ∀ tree rest, outcome = .matched tree rest → taken ≠ [] := by
  -- Every rule with derivations explains what it takes, and a line is looked at by itself.
  cases named : entry.rule? with
  | some rule => exact exists_taken_of_explains (explains named orderly said)
  | none =>
    cases entry <;> simp only [rule?, reduceCtorEq] at named
    obtain rfl := Option.some.inj said
    rw [Grammar.session]
    -- A header takes all there is, and anything else is an expression.
    cases header : Grammar.headerSpan? lexemes with
    | some span =>
      obtain ⟨occupied, _⟩ := (Grammar.headerSpan?_eq_some_iff orderly.ordered).mp header
      exact ⟨lexemes, (List.append_nil lexemes).symm, fun _ _ _ => occupied⟩
    | none =>
      have said : outcome? .expression source lexemes free =
        some (Grammar.expression free lexemes) := rfl
      obtain ⟨taken, cut, occupied⟩ := exists_taken_of_explains (explains rfl orderly said)
      simp only [Outcome.keeps_whole.rest_andThen]
      exact ⟨taken, cut, fun tree rest found =>
        occupied tree rest (Outcome.keeps_whole.eq_of_andThen found)⟩

/-- A match leaves no more levels open than were free. -/
theorem opened_le (said : entry.outcome? source lexemes free = some outcome) :
    outcome.opened ≤ free := by
  -- Every rule opens as many levels as the powers in it do.
  have power := opensAtMost_power free
  have expression := opensAtMost_expressionOver power lexemes
  cases entry with
  | session =>
    obtain rfl := Option.some.inj said
    rw [Grammar.session]
    split
    · exact Nat.zero_le free
    · refine Outcome.opened_andThen expression fun tree rest => ?_
      split <;> exact Nat.zero_le free
  | expression => exact Option.some.inj said ▸ expression
  | additive => exact Option.some.inj said ▸ opensAtMost_additiveOver power lexemes
  | multiplicative => exact Option.some.inj said ▸ opensAtMost_chain _ power lexemes
  | power => exact Option.some.inj said ▸ power lexemes
  | assignment =>
    -- Where an assignment starts it is the expression there.
    rcases Grammar.assignment?_cases lexemes with absent | starts
    · have nothing := (absent free).symm.trans said
      contradiction
    · exact Option.some.inj ((starts free).symm.trans said) ▸ expression

end Entry

end Reckon
