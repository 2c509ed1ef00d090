import Reckon.Proofs.Grammar.Parsing
import Reckon.Proofs.Lexeme.Join

/-! What is taken before a match is stuck can be completed, unless the levels are used up. -/

namespace Reckon

/-- As many closing parentheses as there are to close. -/
structure Closers (count : Nat) (lexemes : List Lexeme) : Prop where
  length_eq : lexemes.length = count
  closing : ∀ lexeme ∈ lexemes, lexeme.token = some .rightParen

/-- Nothing closes nothing. -/
theorem Closers.eq_nil {lexemes : List Lexeme} (closers : Closers 0 lexemes) : lexemes = [] :=
  List.eq_nil_of_length_eq_zero closers.length_eq

/-- The last of the closing parentheses belongs to the outermost one that is open. -/
theorem Closers.exists_concat {count : Nat} {lexemes : List Lexeme}
    (closers : Closers (count + 1) lexemes) :
    ∃ inner last, lexemes = inner ++ [last] ∧ Closers count inner ∧
      last.token = some .rightParen := by
  -- There is a last one, since there is one to close at least.
  rcases List.eq_nil_or_concat' lexemes with rfl | ⟨inner, last, rfl⟩
  · cases closers.length_eq
  · have length := closers.length_eq
    rw [List.length_append, List.length_singleton] at length
    refine ⟨inner, last, rfl, ⟨Nat.succ.inj length, ?_⟩, closers.closing last (by simp)⟩
    intro lexeme member
    exact closers.closing lexeme (List.mem_append_left _ member)

/-- What has to be put where a cause holds: an operand if one is required, and else nothing. -/
def Cause.Fills (operand : List Lexeme) : Cause → Prop
  | .operand => ∃ tree, Derives .atom operand tree ∧ tree.nest = 0
  | _ => operand = []

/--
Some lexemes are completed to what a rule derives, by an operand and closing parentheses.

The operand is what the cause asks for, and the number is that of the parentheses.
-/
def Completes (free : Nat) (rule : Rule) (taken : List Lexeme) (cause : Cause) (count : Nat) :
    Prop :=
  ∀ operand closers, cause.Fills operand → Closers count closers →
    ∃ tree, Derives rule (taken ++ (operand ++ closers)) tree ∧ tree.nest ≤ free

/-- What completes a part of a rule completes the rule. -/
theorem Completes.onwards {inner free : Nat} {part rule : Rule} {taken : List Lexeme}
    {cause : Cause} {count : Nat} (completes : Completes inner part taken cause count)
    (skipped : List Lexeme)
    (wraps : ∀ lexemes tree, Derives part lexemes tree → tree.nest ≤ inner →
      ∃ whole, Derives rule (skipped ++ lexemes) whole ∧ whole.nest ≤ free) :
    Completes free rule (skipped ++ taken) cause count := by
  -- The completion of the part completes the rule around it too.
  intro operand closers fills closed
  obtain ⟨tree, derived, bound⟩ := completes operand closers fills closed
  rw [List.append_assoc]
  exact wraps _ tree derived bound

/-- A match that is stuck within the levels is completed by an operand and parentheses. -/
theorem Stuck.completes {free : Nat} {rule : Rule} {taken rest : List Lexeme} {cause : Cause}
    (stuck : Stuck free rule taken rest cause)
    (within : cause ≠ .deepParenthesis ∧ cause ≠ .deepExponent) :
    ∃ count, Completes free rule taken cause count := by
  -- Each step of the derivation is finished with what finishes its last part.
  induction stuck with
  | operand missing =>
    -- The operand that is put there is the atom.
    refine ⟨0, ?_⟩
    intro operand closers fills closed
    obtain ⟨tree, derived, flat⟩ := fills
    exact ⟨tree, by simpa [closed.eq_nil] using derived, by omega⟩
  | @unclosed free opening inner rest tree left derived bound settled missing =>
    -- The expression is complete, and its parenthesis is closed.
    refine ⟨1, ?_⟩
    intro operand closers fills closed
    obtain rfl : operand = [] := fills
    obtain ⟨others, last, rfl, nothing, right⟩ := closed.exists_concat
    obtain rfl := nothing.eq_nil
    exact ⟨_, .parenthesized left derived right, Nat.succ_le_succ bound⟩
  | deepParenthesis left => exact absurd rfl within.1
  | deepExponent derived bound token => exact absurd rfl within.2
  | alternative listed stuck ih =>
    obtain ⟨count, completes⟩ := ih within
    refine ⟨count, completes.onwards [] ?_⟩
    intro lexemes tree derived bound
    exact ⟨tree, .alternative listed derived, bound⟩
  | @parenthesized free opening taken rest cause left stuck ih =>
    obtain ⟨count, completes⟩ := ih within
    -- What is inside is completed first, and then the parenthesis is closed.
    refine ⟨count + 1, ?_⟩
    intro operand closers fills closed
    obtain ⟨others, last, rfl, closedInside, right⟩ := closed.exists_concat
    obtain ⟨tree, derived, bound⟩ := completes operand others fills closedInside
    have whole := Derives.parenthesized left derived right
    simp only [List.append_assoc] at whole
    exact ⟨_, whole, Nat.succ_le_succ bound⟩
  | @call free name function taken rest cause token keyword stuck ih =>
    obtain ⟨count, completes⟩ := ih within
    refine ⟨count, completes.onwards [name] ?_⟩
    intro lexemes tree derived bound
    exact ⟨_, .call token keyword derived, bound⟩
  | @power free caret base taken rest left cause leftDerived leftBound token stuck ih =>
    obtain ⟨count, completes⟩ := ih within
    rw [List.append_cons]
    refine ⟨count, completes.onwards (base ++ [caret]) ?_⟩
    intro lexemes right derived bound
    rw [← List.append_cons]
    refine ⟨_, .power leftDerived token derived, ?_⟩
    simp only [Expr.nest, if_true]
    omega
  | @fold free rule operandRule accepted operator sign former taken rest left cause layer
      leftDerived leftBound token among stuck ih =>
    obtain ⟨count, completes⟩ := ih within
    rw [List.append_cons]
    refine ⟨count, completes.onwards (former ++ [sign]) ?_⟩
    intro lexemes right derived bound
    rw [← List.append_cons]
    have loose := ((Rule.folds_of_layer? layer).loose operator among).2
    refine ⟨_, .fold layer leftDerived token among derived, ?_⟩
    simp only [Expr.nest, loose, if_false]
    omega
  | @assignment free name equals taken rest cause target token stuck ih =>
    obtain ⟨count, completes⟩ := ih within
    refine ⟨count, completes.onwards [name, equals] ?_⟩
    intro lexemes tree derived bound
    exact ⟨_, .assignment target token derived, bound⟩

/-- The text that completes a line: a zero if an operand is required, and parentheses. -/
def Cause.completion (cause : Cause) (count : Nat) : List Char :=
  match cause with
  | .operand => '0' :: ' ' :: List.replicate count ')'
  | _ => List.replicate count ')'

/-- Closing parentheses in a row are split into one lexeme each. -/
theorem closers_lexemesFrom (count offset : Nat) :
    Closers count (lexemesFrom 0 offset (List.replicate count ')')) := by
  -- Nothing goes on with a closing parenthesis, so each is taken by itself.
  induction count generalizing offset with
  | zero => exact ⟨rfl, by simp [lexemesFrom]⟩
  | succ count ih =>
    have found : Token.leading? (')' :: List.replicate count ')') = some (.rightParen, [')']) := rfl
    rw [List.replicate_succ, lexemesFrom_some offset rfl rfl found]
    have later := ih (offset + byteLength [')'])
    refine ⟨by rw [List.length_cons, later.length_eq], ?_⟩
    intro lexeme member
    rcases List.mem_cons.mp member with rfl | member
    · rfl
    · exact later.closing lexeme member

/-- What completes a line is split into what its cause asks for. -/
theorem fills_completion (cause : Cause) (count offset : Nat) :
    ∃ operand closers, lexemesFrom 0 offset (cause.completion count) = operand ++ closers ∧
      cause.Fills operand ∧ Closers count closers := by
  cases cause with
  | operand =>
    -- The gap behind the zero keeps it a lexeme of its own.
    let digit := Lexeme.ofChars (some .decimal) offset ['0']
    have found : Token.leading? ('0' :: ' ' :: List.replicate count ')') =
        some (.decimal, ['0']) := rfl
    have spelled : Token.Matches .decimal digit.text.toList := by
      rw [Lexeme.toList_ofChars]
      exact Token.matches_of_leading? found
    have derived : Derives .atom [digit] (Grammar.literal .decimal digit.text digit.span) :=
      .of_literal rfl spelled
    refine ⟨[digit], lexemesFrom 0 (offset + byteLength ['0'] + ' '.utf8Size)
      (List.replicate count ')'), ?_, ⟨_, derived, rfl⟩, closers_lexemesFrom count _⟩
    rw [Cause.completion, lexemesFrom_some offset rfl rfl found, lexemesFrom_gap _ rfl]
    rfl
  | _ => exact ⟨[], _, rfl, rfl, closers_lexemesFrom count offset⟩

/-- A line that is cut in front of an error and completed is accepted. -/
theorem parse_completion {line : String} {front back : List Char} {taken rest : List Lexeme}
    {cause : Cause} (same : line.toList = front ++ back) (parts : lexemesOf line = taken ++ rest)
    (before : ∀ lexeme ∈ taken, lexeme.span.stop ≤ byteLength front)
    (behind : ∀ lexeme ∈ rest, byteLength front ≤ lexeme.span.offset)
    (rejects : Rejects taken rest cause)
    (within : cause ≠ .deepParenthesis ∧ cause ≠ .deepExponent) :
    ∃ count tree, parse (String.ofList (front ++ ' ' :: cause.completion count)) = .ok tree := by
  have cut := lexemesOf_cut same parts before behind
  cases rejects with
  | leftover derived bound settled more =>
    -- What stands in front of the cut is a complete expression already.
    have lexemes := cut (Cause.leftover.completion 0)
    simp only [Cause.completion, List.replicate_zero, lexemesFrom, List.append_nil] at lexemes
    exact ⟨0, _, parse_eq_ok (.expression (lexemes ▸ derived)) bound⟩
  | stuck stuck =>
    -- The number of levels that are open tells how many parentheses are to be closed.
    obtain ⟨count, completes⟩ := stuck.completes within
    obtain ⟨operand, closers, split, fills, closed⟩ :=
      fills_completion cause count (byteLength front + 1)
    obtain ⟨tree, derived, bound⟩ := completes operand closers fills closed
    have lexemes := cut (cause.completion count)
    rw [split] at lexemes
    exact ⟨count, tree, parse_eq_ok (.expression (lexemes ▸ derived)) bound⟩

end Reckon
