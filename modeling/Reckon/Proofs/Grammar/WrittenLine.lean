import Reckon.Proofs.Grammar.Parsing
import Reckon.Proofs.Grammar.Writing

/-! A line is accepted as what it writes between the gaps around it. -/

namespace Reckon

/-- A text without gaps around it writes the tree of a line. -/
inductive LineWrites : List Char → Expr → Prop where
  /-- A header is made of minus signs with gaps between them. -/
  | header {text : List Char} (trimmed : Trimmed text)
      (signs : ∀ c ∈ text, c = '-' ∨ isGap c = true) :
      LineWrites text (.header (String.ofList text) ⟨0, byteLength text⟩)
  /-- Any other line is an expression. -/
  | expression {text : List Char} {tree : Expr} (written : Writes .expression text tree) :
      LineWrites text tree

/-- What a line writes neither starts nor ends with a gap. -/
theorem LineWrites.trimmed {text : List Char} {tree : Expr} (written : LineWrites text tree) :
    Trimmed text := by
  cases written with
  | header trimmed signs => exact trimmed
  | expression written => exact written.trimmed

/-- What a line writes stands where its text does. -/
theorem LineWrites.span_eq {text : List Char} {tree : Expr} (written : LineWrites text tree) :
    tree.span = ⟨0, byteLength text⟩ := by
  cases written with
  | header trimmed signs => rfl
  | expression written => exact written.span_eq

/-- A text is made of gaps, or there is something between the gaps around it. -/
theorem gaps_or_exists_trimmed (text : List Char) :
    Gaps text ∨ ∃ before middle after,
      text = before ++ (middle ++ after) ∧ Gaps before ∧ Trimmed middle ∧ Gaps after := by
  -- From the back, the first solid character is the last one, and each further one is the first.
  induction text with
  | nil => exact .inl .nil
  | cons c rest ih =>
    by_cases gap : isGap c = true
    · rcases ih with gaps | ⟨before, middle, after, rfl, leading, trimmed, trailing⟩
      · exact .inl (List.forall_mem_cons.mpr ⟨gap, gaps⟩)
      · exact .inr ⟨c :: before, middle, after, rfl, List.forall_mem_cons.mpr ⟨gap, leading⟩,
          trimmed, trailing⟩
    · have solid : isGap c = false := by simpa using gap
      rcases ih with gaps | ⟨before, middle, after, rfl, leading, trimmed, trailing⟩
      · exact .inr ⟨[], [c], rest, rfl, .nil, ⟨⟨c, [], rfl, solid⟩, ⟨[], c, rfl, solid⟩⟩,
          gaps⟩
      · obtain ⟨front, d, ends, endSolid⟩ := trimmed.last_solid
        exact .inr ⟨[], c :: (before ++ middle), after, by simp, .nil,
          ⟨⟨c, _, rfl, solid⟩, ⟨c :: (before ++ front), d, by simp [ends], endSolid⟩⟩, trailing⟩

/-- The lexemes of a text are all minus signs when its characters are, but for gaps. -/
theorem Splits.signs_iff {offset : Nat} {text : List Char} {lexemes : List Lexeme}
    (split : Splits offset text lexemes) :
    (∀ lexeme ∈ lexemes, lexeme.token = some .minus) ↔ ∀ c ∈ text, c = '-' ∨ isGap c = true := by
  -- Gaps say nothing either way, and each lexeme is a sign where its characters are.
  induction split with
  | done offset => simp
  | gap gap later ih => simp [gap, ih]
  | @unknown offset c rest lexemes solid nothing later ih =>
    -- A minus sign would start a lexeme.
    have other : c ≠ '-' := by
      rintro rfl
      exact Token.leading?_eq_none_iff.mp nothing ['-'] ⟨rest, rfl⟩ .minus
        (Token.matches_minus.mpr rfl)
    simp [Lexeme.ofChars, solid, other]
  | @known offset token taken rest lexemes found later ih =>
    obtain ⟨c, others, rfl, solid⟩ := exists_cons_of_leading? found
    have matched := Token.matches_of_leading? found
    -- A minus sign is a whole lexeme by itself.
    have sign : token = .minus ↔ c = '-' := by
      constructor
      · rintro rfl
        exact (List.cons.inj (Token.matches_minus.mp matched)).1
      · rintro rfl
        exact (matched.eq_of_symbol (show Token.ofSymbol? '-' = some .minus from rfl)).1
    constructor
    · intro signs
      obtain ⟨first, behind⟩ := List.forall_mem_cons.mp signs
      obtain rfl : token = .minus := Option.some.inj first
      obtain ⟨rfl, rfl⟩ := List.cons.inj (Token.matches_minus.mp matched)
      exact List.forall_mem_cons.mpr ⟨.inl rfl, ih.mp behind⟩
    · intro signs
      have first := (signs c (by simp)).resolve_right (by simp [solid])
      exact List.forall_mem_cons.mpr ⟨congrArg some (sign.mpr first),
        ih.mpr fun d member => signs d (List.mem_append_right _ member)⟩

/-- A line derives what it writes between the gaps around it. -/
theorem LineWrites.derives {line : String} {before text after : List Char} {tree : Expr}
    (written : LineWrites text tree) (cut : line.toList = before ++ (text ++ after))
    (leading : Gaps before) (trailing : Gaps after) :
    LineDerives line (tree.shift (byteLength before)) := by
  have split := splits_lexemesOf line
  rw [cut] at split
  cases written with
  | header trimmed signs =>
    obtain ⟨occupied, range⟩ := split.extent_eq leading trimmed trailing
    -- The signs are the only characters besides the gaps around and between them.
    have alone : ∀ lexeme ∈ lexemesOf line, lexeme.token = some .minus := by
      refine split.signs_iff.mpr fun c member => ?_
      rcases List.mem_append.mp member with front | behind
      · exact .inr (leading c front)
      · exact (List.mem_append.mp behind).elim (signs c) fun back => .inr (trailing c back)
    -- From the first sign to the last it is the text of the header.
    have taken : slice? line.toList (extent (lexemesOf line)).offset
        (extent (lexemesOf line)).length = some text := by
      rw [range, cut, Nat.zero_add]
      exact slice?_append before text after
    have derived := LineDerives.header occupied alone taken
    rw [range] at derived
    simpa [Expr.shift, Span.shift] using derived
  | expression written =>
    have within : WritesWithin .expression 0 (before ++ (text ++ after)) _ :=
      .around leading written trailing
    -- The line is split in one way only, so these are its lexemes.
    obtain ⟨lexemes, again, derived⟩ := within.derives
    rw [Nat.zero_add] at derived
    rw [splits_iff.mp again, ← splits_iff.mp split] at derived
    exact .expression derived

/-- What a line derives it writes between the gaps around it. -/
theorem LineDerives.exists_written {line : String} {tree : Expr}
    (derived : LineDerives line tree) :
    ∃ before text after base, line.toList = before ++ (text ++ after) ∧ Gaps before ∧
      Gaps after ∧ LineWrites text base ∧ tree = base.shift (byteLength before) := by
  have split := splits_lexemesOf line
  cases derived with
  | header occupied signs taken =>
    rcases gaps_or_exists_trimmed line.toList with gaps | found
    · -- A line of gaps has no lexemes.
      have missing := splits_iff.mp (gaps.splits 0)
      rw [← splits_iff.mp split] at missing
      exact absurd missing.symm occupied
    · obtain ⟨before, text, after, cut, leading, trimmed, trailing⟩ := found
      rw [cut] at split taken
      have range := (split.extent_eq leading trimmed trailing).2
      rw [range, Nat.zero_add, slice?_append] at taken
      obtain rfl := Option.some.inj taken
      -- Where all lexemes are signs all characters are, but for gaps.
      have characters := split.signs_iff.mp signs
      have written : LineWrites text _ := .header trimmed fun c member =>
        characters c (List.mem_append_right _ (List.mem_append_left _ member))
      refine ⟨before, text, after, _, cut, leading, trailing, written, ?_⟩
      simp [range, Expr.shift, Span.shift]
  | expression derived =>
    -- The lexemes of the line are those of its text, so what they derive is written there.
    have within := derived.writes 0 line.toList split
    generalize whole : line.toList = characters at within
    obtain @⟨before, text, after, base, leading, written, trailing⟩ := within
    rw [Nat.zero_add]
    exact ⟨before, text, after, base, rfl, leading, trailing, .expression written, rfl⟩

/-- A line is accepted as what it writes between its gaps, in as many levels as are free. -/
theorem parse_eq_ok_iff_exists_written {line : String} {tree : Expr} :
    parse line = .ok tree ↔ ∃ before text after base, line.toList = before ++ (text ++ after) ∧
      Gaps before ∧ Gaps after ∧ LineWrites text base ∧
      tree = base.shift (byteLength before) ∧ base.nest ≤ levelLimit := by
  constructor
  · intro parsed
    -- Moving a tree opens no level, so the bound is the same for both.
    obtain ⟨derived, bound⟩ := derived_of_parse parsed
    obtain ⟨before, text, after, base, cut, leading, trailing, written, rfl⟩ :=
      derived.exists_written
    rw [Expr.nest_shift] at bound
    exact ⟨before, text, after, base, cut, leading, trailing, written, rfl, bound⟩
  · intro found
    obtain ⟨before, text, after, base, cut, leading, trailing, written, rfl, bound⟩ := found
    exact parse_eq_ok (written.derives cut leading trailing) (by rwa [Expr.nest_shift])

/-- A text that is written without gaps around it is accepted as a line. -/
theorem LineWrites.parse_eq_ok {text : List Char} {tree : Expr} (written : LineWrites text tree)
    (bound : tree.nest ≤ levelLimit) : parse (String.ofList text) = .ok tree := by
  -- The gaps around it are none.
  refine parse_eq_ok_iff_exists_written.mpr
    ⟨[], text, [], tree, by simp, .nil, .nil, written, by simp, bound⟩

/-- An atom is an operand of every operator, however tightly that binds, and a right side. -/
theorem Writes.of_atom {text : List Char} {tree : Expr} (written : Writes .atom text tree) :
    ∀ rule ∈ [Rule.signedAtom, .powerExpression, .multiplyingExpression, .algebraicExpression],
      Writes rule text tree := by
  -- Each of these rules has the one in front of it as an alternative.
  have signedAtom : Writes .signedAtom text tree := .alternative (by decide) written
  have power : Writes .powerExpression text tree := .alternative (by decide) signedAtom
  have multiplying : Writes .multiplyingExpression text tree := .alternative (by decide) power
  have algebraic : Writes .algebraicExpression text tree := .alternative (by decide) multiplying
  simp [signedAtom, power, multiplying, algebraic]

/-- What any rule writes is an expression. -/
theorem Writes.expression {rule : Rule} {text : List Char} {tree : Expr}
    (written : Writes rule text tree) : Writes .expression text tree := by
  have algebraic {text : List Char} {tree : Expr} (written : Writes .algebraicExpression text tree) :
      Writes .expression text tree := .alternative (by decide) written
  have multiplying {text : List Char} {tree : Expr}
      (written : Writes .multiplyingExpression text tree) : Writes .expression text tree :=
    algebraic (.alternative (by decide) written)
  have power {text : List Char} {tree : Expr} (written : Writes .powerExpression text tree) :
      Writes .expression text tree := multiplying (.alternative (by decide) written)
  have signedAtom {text : List Char} {tree : Expr} (written : Writes .signedAtom text tree) :
      Writes .expression text tree := power (.alternative (by decide) written)
  have atom {text : List Char} {tree : Expr} (written : Writes .atom text tree) :
      Writes .expression text tree := signedAtom (.alternative (by decide) written)
  have number {text : List Char} {tree : Expr} (written : Writes .number text tree) :
      Writes .expression text tree := atom (.alternative (by decide) written)
  -- The alternatives lead from the expression to each rule that writes something of its own.
  induction written with
  | alternative listed written ih => exact ih
  | @literal kind rule text value named matched valued =>
    refine number (.alternative ?_ (.literal rfl matched valued))
    cases kind <;> decide
  | signed matched valued => exact number (.alternative (by decide) (.signed matched valued))
  | reference matched => exact atom (.alternative (by decide) (.reference matched))
  | parenthesized leading written trailing ih =>
    exact atom (.alternative (by decide) (.parenthesized leading written trailing))
  | call gaps written ih => exact signedAtom (.alternative (by decide) (.call gaps written))
  | power leftWritten joins rightWritten leftIh rightIh =>
    exact power (.power leftWritten joins rightWritten)
  | @fold rule operand accepted operator former joint latter left right layer leftWritten joins
      among rightWritten leftIh rightIh =>
    have written := Writes.fold layer leftWritten joins among rightWritten
    cases rule with
    | algebraicExpression => exact algebraic written
    | multiplyingExpression => exact multiplying written
    | _ => cases layer
  | assignment target joins written ih =>
    exact .alternative (by decide) (.assignment target joins written)

end Reckon
