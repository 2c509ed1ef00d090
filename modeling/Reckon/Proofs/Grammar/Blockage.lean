import Reckon.Proofs.Grammar.Failure

/-! Where a match cannot go on, a scan of its lexemes cannot go on either. -/

namespace Reckon

/--
A scan from a place cannot go on behind some lexemes.

Either it comes to their end, and what follows does not fit, or the last of them opens a level
that is not free.
-/
inductive Blocked (limit : Nat) (place : Place) : (taken rest : List Lexeme) → Cause → Prop where
  | operand {taken rest : List Lexeme} {next : Place} (scanned : place.Reaches limit taken next)
      (wants : next.wantsOperand = true) (missing : ¬ StartsOperand rest) :
      Blocked limit place taken rest .operand
  | unclosed (before : List Lexeme) {inner rest : List Lexeme} {opening : Lexeme} {tree : Expr}
      {middle next : Place} (left : opening.token = some .leftParen)
      (scanned : place.Reaches limit (before ++ [opening]) middle)
      (derived : Derives .expression inner tree) (inside : middle.Reaches limit inner next)
      (passes : Place.Passes .expression inner middle next)
      (settled : Settled .expression inner rest)
      (missing : ∀ next ∈ rest.head?, next.token ≠ some .rightParen) :
      Blocked limit place (before ++ opening :: inner) rest .unclosed
  | deepParenthesis (before : List Lexeme) {rest : List Lexeme} {opening : Lexeme} {last : Place}
      (left : opening.token = some .leftParen) (scanned : place.Reaches limit before last)
      (full : last.levels = limit) : Blocked limit place (before ++ [opening]) rest .deepParenthesis
  | deepExponent (before : List Lexeme) {rest : List Lexeme} {caret : Lexeme} {last : Place}
      (token : caret.token = some .caret) (scanned : place.Reaches limit before last)
      (full : last.levels = limit) : Blocked limit place (before ++ [caret]) rest .deepExponent

/-- A scan that comes to a place which is blocked is blocked too. -/
theorem Blocked.prepend {limit : Nat} {place middle : Place} {skipped taken rest : List Lexeme}
    {cause : Cause} (blocked : Blocked limit middle taken rest cause)
    (scanned : place.Reaches limit skipped middle) :
    Blocked limit place (skipped ++ taken) rest cause := by
  -- The scan to what blocks it starts with what has been skipped.
  cases blocked with
  | operand later wants missing => exact .operand (scanned.append later) wants missing
  | unclosed before left later derived inside passes settled missing =>
    rw [← List.append_assoc]
    refine .unclosed _ left ?_ derived inside passes settled missing
    rw [List.append_assoc]
    exact scanned.append later
  | deepParenthesis before left later full =>
    rw [← List.append_assoc]
    exact .deepParenthesis _ left (scanned.append later) full
  | deepExponent before token later full =>
    rw [← List.append_assoc]
    exact .deepExponent _ token (scanned.append later) full

/-- A match that is stuck is blocked in every scan from a place that is ready for it. -/
theorem Stuck.blocked {free : Nat} {rule : Rule} {taken rest : List Lexeme} {cause : Cause}
    (stuck : Stuck free rule taken rest cause) (limit : Nat) :
    ∀ place : Place, place.Ready rule → place.levels + free = limit →
      Blocked limit place taken rest cause := by
  -- What was taken in front of the part that is stuck leads to a place that is ready for it.
  induction stuck with
  | operand missing =>
    intro place ready bound
    exact .operand rfl ready missing
  | @unclosed free opening inner rest tree left derived bound settled missing =>
    intro place ready levels
    have deeper := Place.levels_opening .beginning place
    have step : place.Step limit opening ⟨.beginning, 0, place.exponents :: place.outer⟩ :=
      .opening left ready (by omega)
    have scanned := Place.reaches_singleton.mpr step
    obtain ⟨next, inside, passes⟩ := derived.scan limit _ ⟨rfl, rfl⟩ (by
      rw [deeper]
      omega)
    -- Its end is where the parenthesis should be closed.
    exact .unclosed [] left scanned derived inside passes settled missing
  | @deepParenthesis opening rest left =>
    intro place ready levels
    exact .deepParenthesis [] left rfl levels
  | @deepExponent caret base rest tree derived bound token =>
    intro place ready levels
    obtain ⟨middle, scanned, passes⟩ := derived.scan limit place ready (by omega)
    -- The base leaves as many levels open as there were, which are all of them.
    have same := passes.levels_eq (by simp)
    exact .deepExponent base token scanned (by omega)
  | @alternative free rule part taken rest cause listed stuck ih =>
    intro place ready levels
    exact ih place (ready.alternative listed) levels
  | @parenthesized free opening taken rest cause left stuck ih =>
    intro place ready levels
    have deeper := Place.levels_opening .beginning place
    have step : place.Step limit opening ⟨.beginning, 0, place.exponents :: place.outer⟩ :=
      .opening left ready (by omega)
    have scanned := Place.reaches_singleton.mpr step
    exact (ih _ ⟨rfl, rfl⟩ (by omega)).prepend scanned
  | @call free name function taken rest cause token keyword stuck ih =>
    intro place ready levels
    have scanned := Place.reaches_singleton.mpr (Place.step_keyword limit token keyword ready)
    have blocked := ih ⟨.afterName (place.expectation == .beginning) true, place.exponents,
      place.outer⟩ (.inr rfl) levels
    exact blocked.prepend scanned
  | @power free caret base taken rest tree cause derived bound token stuck ih =>
    intro place ready levels
    obtain ⟨middle, scanned, passes⟩ := derived.scan limit place ready (by omega)
    have same := passes.levels_eq (by simp)
    have deeper := Place.levels_caret .operand middle
    have step : middle.Step limit caret ⟨.operand, middle.exponents + 1, middle.outer⟩ :=
      .caret token passes.complete (by omega)
    have blocked := ih ⟨.operand, middle.exponents + 1, middle.outer⟩ rfl (by omega)
    exact (blocked.prepend (Place.reaches_singleton.mpr step)).prepend scanned
  | @fold free rule operand accepted operator sign former taken rest tree cause layer derived
      bound token among stuck ih =>
    intro place ready levels
    obtain ⟨wants, closed, loose, operandReady⟩ := Place.ready_layer layer ready
    obtain ⟨middle, scanned, passes⟩ := derived.scan limit place ready (by omega)
    have notPower : operator ≠ .power := by
      intro power
      exact loose (power ▸ among)
    -- Behind the operator the same levels are free as in front of its left operand.
    have step : middle.Step limit sign ⟨.operand, 0, middle.outer⟩ :=
      .operator operator token notPower passes.complete
    have blocked := ih ⟨.operand, 0, middle.outer⟩ (operandReady _) (by
      simp only [Place.levels, passes.outer_eq, closed] at levels ⊢
      omega)
    exact (blocked.prepend (Place.reaches_singleton.mpr step)).prepend scanned
  | @assignment free name equals taken rest cause target token stuck ih =>
    intro place ready levels
    obtain ⟨beginning, closed⟩ := ready
    have scanned := Place.reaches_target limit target token beginning
    have blocked := ih ⟨.operand, place.exponents, place.outer⟩ ⟨rfl, closed⟩ levels
    exact blocked.prepend scanned

end Reckon
