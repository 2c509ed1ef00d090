import Reckon.Proofs.Grammar.Blockage
import Reckon.Proofs.Grammar.Parsing
import Reckon.Proofs.Lexeme.Content

/-! What an error says of its line: where the line is rejected, and the one cause of it. -/

namespace Reckon

/-- The last of some lexemes opens a level, and every level is in use in front of it. -/
def Exceeds (token : Token) (taken : List Lexeme) : Prop :=
  ∃ before opening place, taken = before ++ [opening] ∧ opening.token = some token ∧
    Place.start.Reaches levelLimit before place ∧ place.levels = levelLimit

/-- An operand is required behind some lexemes, none of which opens a level past the limit. -/
def RequiresOperand (taken : List Lexeme) : Prop :=
  taken = [] ∨ ∃ before last, taken = before ++ [last] ∧
    (last.token = some .equals ∨
      ((∃ operator, last.token.bind Token.operator? = some operator) ∨
          last.token = some .leftParen) ∧
        ¬ Exceeds .leftParen taken ∧ ¬ Exceeds .caret taken)

/-- A cause holds between the lexemes in front of an error and those behind it. -/
def Cause.Holds (taken rest : List Lexeme) : Cause → Prop
  | .leftover => (∃ tree, Derives .expression taken tree) ∧ rest ≠ []
  | .operand => RequiresOperand taken ∧ ¬ StartsOperand rest
  | .unclosed =>
    (∃ before opening inner tree, taken = before ++ opening :: inner ∧
        opening.token = some .leftParen ∧ Derives .expression inner tree) ∧
      ∀ next ∈ rest.head?, next.token ≠ some .rightParen
  | .deepParenthesis => Exceeds .leftParen taken
  | .deepExponent => Exceeds .caret taken

/-- What an error says of its line, of which some lexemes stand in front of it. -/
structure ErrorReport (line : String) (error : SyntaxError) (count : Nat) : Prop where
  /-- It starts at the next lexeme, or at the end of the last one. -/
  offset_eq : error.offset =
    match (lexemesOf line)[count]? with
    | some next => next.span.offset
    | none => ((lexemesOf line).getLast?.map fun last => last.span.stop).getD 0
  /-- It reaches to the end of the line without the gaps there. -/
  stop_eq : error.offset + error.length = byteLength (line.toList.rdropWhile isGap)
  rule_mem : error.rule ∈ [.session, .atom, .parenthesized, .powerExpression]
  /-- Exactly one cause holds, and it is the one whose rule is reported. -/
  cause : ∃ cause : Cause, error.rule = cause.rule ∧
    cause.Holds ((lexemesOf line).take count) ((lexemesOf line).drop count) ∧
    ∀ other : Cause, other.Holds ((lexemesOf line).take count) ((lexemesOf line).drop count) →
      other = cause

/-- What is known of the last lexeme where a cause holds that needs a complete expression. -/
theorem Cause.Holds.not_opening {cause : Cause} {taken rest : List Lexeme}
    (holds : cause.Holds taken rest) (complete : cause = .leftover ∨ cause = .unclosed) :
    ∃ before last, taken = before ++ [last] ∧ last.token ≠ some .equals ∧
      last.token ≠ some .leftParen ∧
        ∀ operator, last.token.bind Token.operator? ≠ some operator := by
  -- In both cases an expression ends with it, be it all of them or those in a parenthesis.
  rcases complete with rfl | rfl
  · obtain ⟨⟨tree, derived⟩, _⟩ := holds
    obtain ⟨before, last, rfl⟩ := (List.eq_nil_or_concat' taken).resolve_left derived.ne_nil
    exact ⟨before, last, rfl, derived.not_opening⟩
  · obtain ⟨⟨before, opening, inner, tree, rfl, left, derived⟩, _⟩ := holds
    obtain ⟨front, last, rfl⟩ := (List.eq_nil_or_concat' inner).resolve_left derived.ne_nil
    exact ⟨before ++ opening :: front, last, by simp, derived.not_opening⟩

/-- What is known of the last lexeme where a cause holds that comes from an open level. -/
theorem Exceeds.opening {token : Token} {before : List Lexeme} {last : Lexeme}
    (exceeds : Exceeds token (before ++ [last])) : last.token = some token := by
  -- There is one last lexeme only.
  obtain ⟨front, opening, place, same, found, _⟩ := exceeds
  obtain ⟨_, alone⟩ := List.append_inj' same rfl
  exact List.singleton_inj.mp alone ▸ found

/-- Where an expression is complete no cause holds that needs one to go on. -/
theorem Cause.Holds.apart {complete other : Cause} {taken rest : List Lexeme}
    (completeHolds : complete.Holds taken rest)
    (isComplete : complete = .leftover ∨ complete = .unclosed)
    (otherHolds : other.Holds taken rest) : other = .leftover ∨ other = .unclosed := by
  obtain ⟨before, last, rfl, noEquals, noParenthesis, noOperator⟩ :=
    completeHolds.not_opening isComplete
  -- All other causes are those of a last lexeme that an operand has to follow.
  cases other with
  | leftover => exact .inl rfl
  | unclosed => exact .inr rfl
  | operand =>
    obtain ⟨empty | ⟨front, opening, same, awaited⟩, _⟩ := otherHolds
    · simp at empty
    · obtain ⟨_, alone⟩ := List.append_inj' same rfl
      obtain rfl := List.singleton_inj.mp alone
      rcases awaited with equals | ⟨⟨operator, sign⟩ | left, _⟩
      · exact absurd equals noEquals
      · exact absurd sign (noOperator operator)
      · exact absurd left noParenthesis
  | deepParenthesis => exact absurd (Exceeds.opening otherHolds) noParenthesis
  | deepExponent =>
    have caret := Exceeds.opening otherHolds
    exact absurd (by rw [caret]; rfl) (noOperator .power)

/-- A level that is not free leaves no operand required. -/
theorem RequiresOperand.not_exceeds {taken : List Lexeme} (requires : RequiresOperand taken)
    {token : Token} (opens : token = .leftParen ∨ token = .caret) : ¬ Exceeds token taken := by
  intro exceeds
  -- It leaves one required behind nothing, an equals sign or a level that is free only.
  rcases requires with rfl | ⟨before, last, rfl, equals | ⟨_, noParenthesis, noCaret⟩⟩
  · obtain ⟨front, opening, place, same, _⟩ := exceeds
    simp at same
  · rw [exceeds.opening] at equals
    rcases opens with rfl | rfl <;> contradiction
  · rcases opens with rfl | rfl
    · exact noParenthesis exceeds
    · exact noCaret exceeds

/-- Parentheses and exponents do not open a level in the same place. -/
theorem Exceeds.unique {first second : Token} {taken : List Lexeme}
    (firstExceeds : Exceeds first taken) (secondExceeds : Exceeds second taken) :
    first = second := by
  -- The last lexeme is of one kind.
  obtain ⟨before, opening, place, rfl, found, _⟩ := firstExceeds
  exact Option.some.inj (found.symm.trans secondExceeds.opening)

/-- An expression that is complete leaves no parenthesis unclosed. -/
theorem Cause.leftover_not_unclosed {taken rest : List Lexeme}
    (leftover : Cause.leftover.Holds taken rest) : ¬ Cause.unclosed.Holds taken rest := by
  intro unclosed
  obtain ⟨⟨tree, derived⟩, _⟩ := leftover
  -- Its parentheses are all closed, so none of them has an expression open in it.
  obtain ⟨⟨before, opening, inner, part, rfl, left, partDerived⟩, _⟩ := unclosed
  exact derived.not_unclosed left partDerived

/-- At most one cause holds in one place. -/
theorem Cause.Holds.unique {first second : Cause} {taken rest : List Lexeme}
    (firstHolds : first.Holds taken rest) (secondHolds : second.Holds taken rest) :
    first = second := by
  -- The causes fall into those of complete expressions and those of expressions that go on.
  by_cases complete : first = .leftover ∨ first = .unclosed
  · have other := firstHolds.apart complete secondHolds
    rcases complete with rfl | rfl
    · rcases other with rfl | rfl
      · rfl
      · exact absurd secondHolds (leftover_not_unclosed firstHolds)
    · rcases other with rfl | rfl
      · exact absurd firstHolds (leftover_not_unclosed secondHolds)
      · rfl
  · have secondGoesOn : ¬ (second = .leftover ∨ second = .unclosed) := by
      intro other
      exact complete (secondHolds.apart other firstHolds)
    cases first <;> simp at complete <;> cases second <;> simp at secondGoesOn
    case operand.operand => rfl
    case operand.deepParenthesis => exact absurd secondHolds (firstHolds.1.not_exceeds (.inl rfl))
    case operand.deepExponent => exact absurd secondHolds (firstHolds.1.not_exceeds (.inr rfl))
    case deepParenthesis.operand => exact absurd firstHolds (secondHolds.1.not_exceeds (.inl rfl))
    case deepParenthesis.deepParenthesis => rfl
    case deepParenthesis.deepExponent => cases Exceeds.unique firstHolds secondHolds
    case deepExponent.operand => exact absurd firstHolds (secondHolds.1.not_exceeds (.inr rfl))
    case deepExponent.deepParenthesis => cases Exceeds.unique firstHolds secondHolds
    case deepExponent.deepExponent => rfl

/-- Where a line is rejected the cause holds. -/
theorem Rejects.holds {taken rest : List Lexeme} {cause : Cause}
    (rejects : Rejects taken rest cause) : cause.Holds taken rest := by
  cases rejects with
  | leftover derived bound settled more => exact ⟨⟨_, derived⟩, more⟩
  | stuck stuck =>
    -- What leaves a match stuck blocks the scan of the whole line in the same place.
    cases stuck.blocked levelLimit .start ⟨rfl, rfl⟩ rfl with
    | @operand taken rest next scanned wants missing =>
      refine ⟨?_, missing⟩
      rcases List.eq_nil_or_concat' taken with rfl | ⟨before, last, rfl⟩
      · exact .inl rfl
      · obtain ⟨place, front, behind⟩ := Place.reaches_append.mp scanned
        have step := Place.reaches_singleton.mp behind
        -- The last lexeme would not have been passed if it opened a level past the limit.
        have within : ∀ token, token = .leftParen ∨ token = .caret →
            ¬ Exceeds token (before ++ [last]) := by
          intro token opens exceeds
          obtain ⟨others, opening, full, same, found, scanned, levels⟩ := exceeds
          obtain ⟨rfl, alone⟩ := List.append_inj' same rfl
          obtain rfl := List.singleton_inj.mp alone
          have free := step.levels_lt (by rcases opens with rfl | rfl <;> simp [found])
          rw [Place.Reaches.unique front scanned] at free
          omega
        refine .inr ⟨before, last, rfl, ?_⟩
        rcases step.token_of_wantsOperand wants with equals | operator | left
        · exact .inl equals
        · exact .inr ⟨.inl operator, within _ (.inl rfl), within _ (.inr rfl)⟩
        · exact .inr ⟨.inr left, within _ (.inl rfl), within _ (.inr rfl)⟩
    | unclosed before left scanned derived inside passes settled missing =>
      exact ⟨⟨_, _, _, _, rfl, left, derived⟩, missing⟩
    | deepParenthesis before left scanned full => exact ⟨_, _, _, rfl, left, scanned, full⟩
    | deepExponent before token scanned full => exact ⟨_, _, _, rfl, token, scanned, full⟩

/--
An error names the place and the one cause of the rejection of its line.

Of all rules only four are ever reported, since the others leave their failures to their parts.
-/
theorem errorReport_of_parse {line : String} {error : SyntaxError}
    (rejected : parse line = .error error) :
    ErrorReport line error
      ((lexemesOf line).countP fun lexeme => lexeme.span.offset < error.offset) := by
  rcases parse_cases line with ⟨_, accepted, _⟩ | ⟨taken, rest, cause, cut, rejects, _, reported⟩
  · rw [rejected] at accepted
    contradiction
  · rw [rejected] at reported
    obtain rfl := Except.error.inj reported
    have count : ((lexemesOf line).countP fun lexeme =>
        lexeme.span.offset < (Cursor.error ⟨line, rest, 0⟩ cause.rule).offset) = taken.length :=
      countP_offset_lt cut
    have front : (lexemesOf line).take taken.length = taken := by rw [cut, List.take_left]
    have back : (lexemesOf line).drop taken.length = rest := by rw [cut, List.drop_left]
    have reach := offset_le_contentLength cut
    -- The lexemes in front of the error are those that the match has taken.
    rw [count]
    refine ⟨?_, ?_, ?_, cause, rfl, ?_, ?_⟩
    · -- The position is where the next lexeme starts, or else where the content ends.
      rw [← List.head?_drop, back, ← contentLength_line]
      cases rest with
      | nil => rfl
      | cons next others => rfl
    · -- The length is what is left of the content from there.
      rw [← contentLength_eq]
      exact Nat.add_sub_of_le reach
    · show cause.rule ∈ _
      cases cause <;> decide
    · rw [front, back]
      exact rejects.holds
    · intro other holds
      rw [front, back] at holds
      exact holds.unique rejects.holds

/-- A parenthesis that opens behind the name of a function asks for an operand. -/
theorem errorReport_call :
    parse "x=(1b +\t-2.5^sin(  " = .error ⟨.atom, 17, 0⟩ ∧
      ErrorReport "x=(1b +\t-2.5^sin(  " ⟨.atom, 17, 0⟩ 10 := by
  have rejected : parse "x=(1b +\t-2.5^sin(  " = .error ⟨.atom, 17, 0⟩ := by decide +kernel
  have count : ((lexemesOf "x=(1b +\t-2.5^sin(  ").countP fun lexeme =>
      lexeme.span.offset < 17) = 10 := by decide +kernel
  exact ⟨rejected, count ▸ errorReport_of_parse rejected⟩

end Reckon
