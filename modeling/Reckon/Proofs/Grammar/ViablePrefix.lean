import Reckon.Proofs.Grammar.Completion
import Reckon.Proofs.Grammar.ErrorReport

/-! Errors are reported at the first lexeme with which no accepted line goes on. -/

namespace Reckon

/-- An expression that is complete goes on with an operator or a closing parenthesis only. -/
theorem Settled.closing_of_step {limit : Nat} {place next after : Place} {taken rest : List Lexeme}
    {lexeme : Lexeme} (settled : Settled .expression taken rest) (isNext : lexeme ∈ rest.head?)
    (scanned : place.Reaches limit taken next)
    (passes : Place.Passes .expression taken place next) (occupied : taken ≠ [])
    (step : Place.Step limit next lexeme after) :
    lexeme.token = some .rightParen ∧ next.outer ≠ [] := by
  have noOperand := Place.not_wantsOperand passes.complete
  -- Every other step would be one that the expression had taken too.
  cases step with
  | literal kind token fits =>
    rcases fits with wants | ⟨_, digits⟩
    · simp [noOperand] at wants
    · have complete := passes.complete
      simp [Place.isComplete, digits] at complete
  | name token wants => simp [noOperand] at wants
  | sign token wants => simp [noOperand] at wants
  | operator operator token loose complete =>
    exact absurd token (settled.noOperator lexeme isNext operator (by cases operator <;> decide))
  | caret token complete free =>
    exact absurd (by rw [token]; rfl) (settled.noOperator lexeme isNext .power (by decide))
  | equals token assignable =>
    obtain ⟨_, name, alone, named⟩ := passes.assignable assignable
    exact absurd named (settled.noTarget lexeme isNext token rfl name alone)
  | opening token fits free =>
    rcases fits with wants | callable
    · simp [noOperand] at wants
    · -- An argument follows only the name of a function, which would have been called.
      obtain ⟨before, last, rfl⟩ := (List.eq_nil_or_concat' taken).resolve_left occupied
      obtain ⟨middle, _, behind⟩ := Place.reaches_append.mp scanned
      have own := Place.reaches_singleton.mp behind
      obtain ⟨named, called⟩ := own.called_of_isCallable callable
      have uncalled := settled.noArgument lexeme isNext token last (by simp) named
      simp [uncalled] at called
  | closing token complete nested => exact ⟨token, by simp [nested]⟩

/-- Where an operand is required nothing goes on but an operand or a sign. -/
theorem StartsOperand.of_step {limit : Nat} {place after : Place} {lexeme : Lexeme}
    {rest : List Lexeme} (wants : place.wantsOperand = true)
    (step : Place.Step limit place lexeme after) (unsigned : lexeme.token ≠ some .minus) :
    StartsOperand (lexeme :: rest) := by
  -- No step that follows an operand is taken here.
  have incomplete : place.isComplete ≠ true := by
    intro complete
    rw [Place.not_wantsOperand complete] at wants
    contradiction
  cases step with
  | literal kind token fits => exact .literal token rest
  | name token own => exact .name token rest
  | sign token own => exact absurd token unsigned
  | operator operator token loose complete => exact absurd complete incomplete
  | caret token complete free => exact absurd complete incomplete
  | equals token assignable =>
    -- Only behind a name can be assigned.
    cases place with
    | mk expectation exponents outer => cases expectation <;> contradiction
  | opening token fits free => exact .parenthesis token rest
  | closing token complete nested => exact absurd complete incomplete

/-- No scan goes on with the lexeme that an error is reported at, unless it is a minus. -/
theorem Rejects.not_reaches {taken rest : List Lexeme} {cause : Cause}
    (rejects : Rejects taken rest cause)
    (within : cause ≠ .deepParenthesis ∧ cause ≠ .deepExponent) {next : Lexeme}
    (isNext : next ∈ rest.head?) (unsigned : next.token ≠ some .minus) (place : Place) :
    ¬ Place.start.Reaches levelLimit (taken ++ [next]) place := by
  intro scanned
  obtain ⟨middle, front, last⟩ := Place.reaches_append.mp scanned
  have step := Place.reaches_singleton.mp last
  cases rejects with
  | leftover derived bound settled more =>
    obtain ⟨_, again, passes⟩ := derived.scan_start bound
    obtain rfl := front.unique again
    -- No parenthesis is open that could be closed.
    exact (settled.closing_of_step isNext front passes derived.ne_nil step).2 passes.outer_eq
  | stuck stuck =>
    cases stuck.blocked levelLimit .start ⟨rfl, rfl⟩ rfl with
    | operand again wants missing =>
      obtain rfl := front.unique again
      -- The lexeme would start an operand, and none starts there.
      obtain ⟨others, rfl⟩ := List.head?_eq_some_iff.mp isNext
      exact missing (.of_step wants step unsigned)
    | unclosed before left opened derived inside passes settled missing =>
      rw [List.append_cons] at front
      obtain rfl := front.unique (opened.append inside)
      -- The lexeme would close the parenthesis, and it does not.
      have closes := settled.closing_of_step isNext inside passes derived.ne_nil step
      exact missing next isNext closes.1
    | deepParenthesis before left again full => exact within.1 rfl
    | deepExponent before token again full => exact within.2 rfl

/-- No scan passes a lexeme that opens a level past the limit. -/
theorem Exceeds.not_reaches {token : Token} {taken : List Lexeme} (exceeds : Exceeds token taken)
    (opens : token = .leftParen ∨ token = .caret) (place : Place) :
    ¬ Place.start.Reaches levelLimit taken place := by
  intro scanned
  -- The last step would need a level that is free.
  obtain ⟨before, opening, last, rfl, found, again, full⟩ := exceeds
  obtain ⟨middle, front, behind⟩ := Place.reaches_append.mp scanned
  obtain rfl := front.unique again
  have step := Place.reaches_singleton.mp behind
  have free := step.levels_lt (by rcases opens with rfl | rfl <;> simp [found])
  omega

/-- A lexeme that opens a level is no sign. -/
theorem Exceeds.not_signs {token : Token} {taken : List Lexeme} (exceeds : Exceeds token taken)
    (opens : token = .leftParen ∨ token = .caret) :
    ¬ ∀ lexeme ∈ taken, lexeme.token = some .minus := by
  intro signs
  -- It is of another kind than a minus.
  obtain ⟨before, opening, last, rfl, found, _⟩ := exceeds
  have sign := signs opening (by simp)
  rw [found] at sign
  rcases opens with rfl | rfl <;> contradiction

/-- An accepted line is scanned from its start, or is made of minus signs. -/
theorem reaches_of_parse {line : String} {tree : Expr} (parsed : parse line = .ok tree)
    {part : List Lexeme}
    (start : part.map Lexeme.spelling <+: (lexemesOf line).map Lexeme.spelling) :
    (∃ place, Place.start.Reaches levelLimit part place) ∨
      ∀ lexeme ∈ part, lexeme.token = some .minus := by
  obtain ⟨derived, bound⟩ := derived_of_parse parsed
  -- A header is made of minus signs, and so is every part of it.
  cases derived with
  | header occupied signs cut =>
    refine .inr ?_
    intro lexeme member
    have among := start.subset (List.mem_map_of_mem member)
    obtain ⟨other, otherMember, same⟩ := List.mem_map.mp among
    have token : other.token = lexeme.token := congrArg Prod.fst same
    rw [← token]
    exact signs other otherMember
  | expression derived =>
    -- The scan of the whole line passes the end of its part.
    obtain ⟨next, scanned, _⟩ := derived.scan_start bound
    obtain ⟨behind, same⟩ := start
    rw [Place.Reaches, ← same, Place.scan?, List.foldlM_append] at scanned
    obtain ⟨middle, front, _⟩ := Option.bind_eq_some_iff.mp scanned
    exact .inl ⟨middle, front⟩

/-- Within the limit a line is completed from in front of its error. -/
theorem Rejects.exists_completion {line : String} {taken rest : List Lexeme} {cause : Cause}
    (rejects : Rejects taken rest cause) (cut : lexemesOf line = taken ++ rest)
    (within : cause ≠ .deepParenthesis ∧ cause ≠ .deepExponent) :
    ∃ front more tree, takeBytes? (Cursor.offset ⟨line, rest, 0⟩) line.toList = some front ∧
      parse (String.ofList (front ++ more)) = .ok tree := by
  -- The line is cut in front of the error, and goes on with what its cause asks for.
  obtain ⟨before, behind, same, size⟩ := exists_append_of_offset cut
  obtain ⟨closers, tree, parsed⟩ := parse_completion same cut
    (size ▸ stop_le_offset cut) (size ▸ offset_le_offset cut) rejects within
  refine ⟨before, _, tree, ?_, parsed⟩
  have taken := takeBytes?_append before behind
  rwa [← same, size] at taken

/-- Within the limit no accepted line goes on with the lexeme that an error is reported at. -/
theorem Rejects.not_goes_on {taken rest : List Lexeme} {cause : Cause}
    (rejects : Rejects taken rest cause)
    (within : cause ≠ .deepParenthesis ∧ cause ≠ .deepExponent) {next : Lexeme}
    (isNext : next ∈ rest.head?) (unsigned : next.token ≠ some .minus) {other : String}
    {tree : Expr} (parsed : parse other = .ok tree) :
    ¬ (taken ++ [next]).map Lexeme.spelling <+: (lexemesOf other).map Lexeme.spelling := by
  intro start
  -- An accepted line that goes on with the lexeme would be scanned past it.
  rcases reaches_of_parse parsed start with ⟨place, scanned⟩ | signs
  · exact rejects.not_reaches within isNext unsigned place scanned
  · exact unsigned (signs next (by simp))

/-- No accepted line starts with lexemes that go past the limit. -/
theorem Exceeds.not_starts {token : Token} {taken : List Lexeme} (exceeds : Exceeds token taken)
    (opens : token = .leftParen ∨ token = .caret) {other : String} {tree : Expr}
    (parsed : parse other = .ok tree) :
    ¬ taken.map Lexeme.spelling <+: (lexemesOf other).map Lexeme.spelling := by
  intro start
  -- An accepted line is scanned within the limit, so no part of it goes past that.
  rcases reaches_of_parse parsed start with ⟨place, scanned⟩ | signs
  · exact exceeds.not_reaches opens place scanned
  · exact exceeds.not_signs opens signs

/-- The last of some lexemes opens a level past the limit. -/
def ExceedsLimit (taken : List Lexeme) : Prop := Exceeds .leftParen taken ∨ Exceeds .caret taken

/-- An error is reported as early as it can be, with some lexemes of its line in front of it. -/
structure ViablePrefix (line : String) (error : SyntaxError) (count : Nat) : Prop where
  /-- Within the limit what stands in front of the error is the start of an accepted line. -/
  completes : ¬ ExceedsLimit ((lexemesOf line).take count) → ∃ front more tree,
    takeBytes? error.offset line.toList = some front ∧
      parse (String.ofList (front ++ more)) = .ok tree
  /-- Within the limit no accepted line goes on with the next lexeme, unless that is a minus. -/
  earliest : ¬ ExceedsLimit ((lexemesOf line).take count) → ∀ next,
    (lexemesOf line)[count]? = some next → next.token ≠ some .minus →
      ∀ other tree, parse other = .ok tree →
        ¬ ((lexemesOf line).take (count + 1)).map Lexeme.spelling <+:
          (lexemesOf other).map Lexeme.spelling
  /-- Past the limit no accepted line starts with the lexemes in front of the error. -/
  exceeding : ExceedsLimit ((lexemesOf line).take count) →
    ∀ other tree, parse other = .ok tree →
      ¬ ((lexemesOf line).take count).map Lexeme.spelling <+: (lexemesOf other).map Lexeme.spelling

/-- Every error is reported at the first lexeme with which no accepted line goes on. -/
theorem viablePrefix_of_parse {line : String} {error : SyntaxError}
    (rejected : parse line = .error error) :
    ViablePrefix line error
      ((lexemesOf line).countP fun lexeme => lexeme.span.offset < error.offset) := by
  rcases parse_cases line with ⟨_, accepted, _⟩ | ⟨taken, rest, cause, cut, rejects, _, reported⟩
  · rw [rejected] at accepted
    contradiction
  · rw [rejected] at reported
    obtain rfl := Except.error.inj reported
    -- The report counts the lexemes in front of the error, which are those that were taken.
    have count : ((lexemesOf line).countP fun lexeme =>
        lexeme.span.offset < (Cursor.error ⟨line, rest, 0⟩ cause.rule).offset) = taken.length :=
      countP_offset_lt cut
    have front : (lexemesOf line).take taken.length = taken := by rw [cut, List.take_left]
    have back : (lexemesOf line).drop taken.length = rest := by rw [cut, List.drop_left]
    -- Only at the limit of levels is the next lexeme refused for want of one.
    have within : ¬ ExceedsLimit taken → cause ≠ .deepParenthesis ∧ cause ≠ .deepExponent := by
      intro shallow
      refine ⟨?_, ?_⟩
      · intro deep
        subst deep
        exact shallow (.inl rejects.holds)
      · intro deep
        subst deep
        exact shallow (.inr rejects.holds)
    rw [count]
    refine ⟨?_, ?_, ?_⟩
    · intro shallow
      rw [front] at shallow
      -- What was taken is closed up with operands and parentheses.
      exact rejects.exists_completion cut (within shallow)
    · intro shallow next found unsigned other tree parsed
      rw [front] at shallow
      -- A lexeme behind those taken is the one at which the rule failed.
      have isNext : next ∈ rest.head? := by
        rw [← back, List.head?_drop]
        exact found
      obtain ⟨others, rfl⟩ := List.head?_eq_some_iff.mp isNext
      have more : (lexemesOf line).take (taken.length + 1) = taken ++ [next] := by
        rw [cut, List.take_length_add_append]
        rfl
      rw [more]
      exact rejects.not_goes_on (within shallow) isNext unsigned parsed
    · intro deep other tree parsed
      rw [front] at deep ⊢
      -- Past the limit no tree has the lexemes taken in front, whatever follows them.
      rcases deep with parenthesis | exponent
      · exact parenthesis.not_starts (.inl rfl) parsed
      · exact exponent.not_starts (.inr rfl) parsed

/-- Every accepted line goes on otherwise than with a plus where an argument starts. -/
theorem viablePrefix_call :
    parse "x=(1b +\t-2.5^sin( + 1" = .error ⟨.atom, 18, 3⟩ ∧
      ViablePrefix "x=(1b +\t-2.5^sin( + 1" ⟨.atom, 18, 3⟩ 10 := by
  have rejected : parse "x=(1b +\t-2.5^sin( + 1" = .error ⟨.atom, 18, 3⟩ := by decide +kernel
  have count : ((lexemesOf "x=(1b +\t-2.5^sin( + 1").countP fun lexeme =>
      lexeme.span.offset < 18) = 10 := by decide +kernel
  exact ⟨rejected, count ▸ viablePrefix_of_parse rejected⟩

end Reckon
