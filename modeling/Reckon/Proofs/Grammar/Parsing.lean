import Reckon.Proofs.Grammar.Soundness
import Reckon.Proofs.Lexeme.Tiling

/-! Parsing a line gives the one tree that the grammar derives from its lexemes. -/

namespace Reckon

/-- The lexemes of a line are in order, and their texts are of their kinds. -/
theorem orderly_lexemesOf (line : String) : Orderly (lexemesOf line) := by
  -- Every lexeme is a longest match of its kind, so its text is matched.
  refine ⟨(splits_lexemesOf line).ordered, ?_⟩
  intro lexeme member token found
  obtain ⟨before, after, _, longest⟩ := (splits_lexemesOf line).longest [] rfl lexeme member
  simp only [Lexeme.IsLongest, found] at longest
  exact longest.1

/-- The text from the start of the first lexeme to the end of the last one can be cut out. -/
theorem exists_slice?_extent {line : String} (occupied : lexemesOf line ≠ []) :
    ∃ text, slice? line.toList (extent (lexemesOf line)).offset
      (extent (lexemesOf line)).length = some text := by
  obtain ⟨first, others, cut⟩ := List.exists_cons_of_ne_nil occupied
  obtain ⟨last, ends⟩ : ∃ last, (lexemesOf line).getLast? = some last :=
    ⟨_, List.getLast?_eq_some_getLast occupied⟩
  -- Both ends are ends of lexemes, and those stand between whole characters.
  have longest : ∀ lexeme ∈ lexemesOf line, ∃ before after,
      lexeme.StandsBetween before after line.toList ∧ lexeme.IsLongest after :=
    (splits_lexemesOf line).longest [] rfl
  obtain ⟨before, _, firstStands, _⟩ := longest first (by simp [cut])
  obtain ⟨front, after, lastStands, _⟩ := longest last (List.mem_of_getLast? ends)
  have order := (Ordered.first_le_last (cut ▸ (splits_lexemesOf line).ordered) (cut ▸ ends)).1
  simp only [firstStands.span_eq, lastStands.span_eq] at order
  -- The last lexeme ends no earlier than the first one starts.
  have whole : line.toList = front ++ last.text.toList ++ after := by
    rw [lastStands.line_eq, List.append_assoc]
  have shorter : byteLength before ≤ byteLength (front ++ last.text.toList) := by
    rw [byteLength_append]
    omega
  obtain ⟨text, ends_eq, _⟩ :=
    append_eq_append_of_byteLength_le (firstStands.line_eq.symm.trans whole) shorter
  have starts : (lexemesOf line).head? = some first := by rw [cut, List.head?_cons]
  -- What is cut out are the characters from one end to the other.
  have size : byteLength front + byteLength last.text.toList - byteLength before =
      byteLength text := by
    have sizes := congrArg byteLength ends_eq
    rw [byteLength_append, byteLength_append] at sizes
    omega
  refine ⟨text, ?_⟩
  simp only [extent, starts, ends, Span.between, Span.stop, firstStands.span_eq,
    lastStands.span_eq, size]
  rw [whole, ends_eq, List.append_assoc]
  exact slice?_append before text after

/-- The range of a header is that of its lexemes, which are minus signs. -/
theorem Grammar.headerSpan?_eq_some_iff {lexemes : List Lexeme} (ordered : Ordered lexemes)
    {span : Span} :
    headerSpan? lexemes = some span ↔
      lexemes ≠ [] ∧ (∀ lexeme ∈ lexemes, lexeme.token = some .minus) ∧ span = extent lexemes := by
  cases lexemes with
  | nil => simp [headerSpan?]
  | cons first others =>
    obtain ⟨last, ends⟩ : ∃ last, (first :: others).getLast? = some last :=
      ⟨_, List.getLast?_eq_some_getLast (List.cons_ne_nil first others)⟩
    obtain ⟨starts, stops⟩ := ordered.first_le_last ends
    -- The signs are in order, so the first and the last one span them all.
    have cover : first.span.cover last.span = extent (first :: others) := by
      simp only [extent, List.head?_cons, ends, Span.cover, Nat.min_eq_left starts,
        Nat.max_eq_right stops]
    simp only [headerSpan?, List.head?_cons, ends, cover, Lexeme.isToken, List.all_eq_true,
      beq_iff_eq, Option.ite_none_right_eq_some, Option.some.injEq]
    constructor
    · intro found
      exact ⟨List.cons_ne_nil first others, found.1, found.2.symm⟩
    · intro header
      exact ⟨header.2.1, header.2.2.symm⟩

/-- Where a line is rejected, the lexemes in front take a match to its end or leave it stuck. -/
inductive Rejects : (taken rest : List Lexeme) → Cause → Prop where
  | leftover {taken rest : List Lexeme} {tree : Expr} (derived : Derives .expression taken tree)
      (bound : tree.nest ≤ levelLimit) (settled : Settled .expression taken rest)
      (more : rest ≠ []) : Rejects taken rest .leftover
  | stuck {taken rest : List Lexeme} {cause : Cause}
      (stuck : Stuck levelLimit .expression taken rest cause) : Rejects taken rest cause

/-- All of the lexemes that a rule derives a tree from are matched as that tree. -/
theorem Derives.matched {rule : Rule} {lexemes : List Lexeme} {tree : Expr}
    (derived : Derives rule lexemes tree) (ordered : Ordered lexemes) {free : Nat}
    (bound : tree.nest ≤ free) : rule.matcher free lexemes = .matched tree [] := by
  -- At the end of the lexemes nothing goes on.
  have nothing : Ends rule [] := ⟨by simp, by simp, by simp⟩
  simpa using (derived.accepts ordered free bound).matched nothing

/-- A rule derives at most one tree from some lexemes. -/
theorem Derives.unique {rule : Rule} {lexemes : List Lexeme} {first second : Expr}
    (firstDerived : Derives rule lexemes first) (secondDerived : Derives rule lexemes second)
    (ordered : Ordered lexemes) : first = second := by
  -- With levels enough for both of them, both are what matching gives.
  have firstMatched := firstDerived.matched ordered (Nat.le_max_left first.nest second.nest)
  have secondMatched := secondDerived.matched ordered (Nat.le_max_right first.nest second.nest)
  rw [firstMatched] at secondMatched
  exact (Outcome.matched.inj secondMatched).1

/-- A line that is no header is matched as an expression, behind which nothing may be left. -/
theorem parse_eq_of_headerSpan?_eq_none {line : String}
    (other : Grammar.headerSpan? (lexemesOf line) = none) :
    parse line = ((Cursor.ofLine line).settle
      ((Grammar.expression levelLimit (lexemesOf line)).andThen fun tree rest =>
        if rest.isEmpty then .matched tree rest else .failed .session rest 0)).1 := by
  simp [parse, Cursor.session, Cursor.run, Cursor.free, Cursor.ofLine, Grammar.session, other]

/-- A line of minus signs is a header. -/
theorem parse_eq_of_header {line : String} {text : List Char} (occupied : lexemesOf line ≠ [])
    (signs : ∀ lexeme ∈ lexemesOf line, lexeme.token = some .minus)
    (cut : slice? line.toList (extent (lexemesOf line)).offset (extent (lexemesOf line)).length =
      some text) :
    parse line = .ok (.header (String.ofList text) (extent (lexemesOf line))) := by
  -- The signs are seen before any other rule is tried.
  have header : Grammar.headerSpan? (lexemesOf line) = some (extent (lexemesOf line)) :=
    (Grammar.headerSpan?_eq_some_iff (orderly_lexemesOf line).ordered).mpr ⟨occupied, signs, rfl⟩
  simp [parse, Cursor.session, Cursor.run, Cursor.ofLine, Grammar.session, header, cut,
    Cursor.settle]

/-- A line that is an expression is no header. -/
theorem Derives.headerSpan?_eq_none {line : String} {tree : Expr}
    (derived : Derives .expression (lexemesOf line) tree) :
    Grammar.headerSpan? (lexemesOf line) = none := by
  cases header : Grammar.headerSpan? (lexemesOf line) with
  | none => rfl
  | some span =>
    -- A header is made of minus signs, and no expression is.
    have signs := ((Grammar.headerSpan?_eq_some_iff (orderly_lexemesOf line).ordered).mp header).2.1
    exact absurd signs derived.not_signs

/-- What a line derives is parsed, if its levels are within the limit. -/
theorem parse_eq_ok {line : String} {tree : Expr} (derived : LineDerives line tree)
    (bound : tree.nest ≤ levelLimit) : parse line = .ok tree := by
  cases derived with
  | header occupied signs cut => exact parse_eq_of_header occupied signs cut
  | expression derived =>
    -- All lexemes are matched, so none is left behind the expression.
    have ordered := (orderly_lexemesOf line).ordered
    have matched : Grammar.expression levelLimit (lexemesOf line) = .matched tree [] :=
      derived.matched ordered bound
    rw [parse_eq_of_headerSpan?_eq_none derived.headerSpan?_eq_none, matched]
    rfl

/-- A line derives the tree that it is parsed as, or is rejected where a match cannot go on. -/
theorem parse_cases (line : String) :
    (∃ tree, parse line = .ok tree ∧ LineDerives line tree ∧ tree.nest ≤ levelLimit) ∨
      ∃ taken rest cause, lexemesOf line = taken ++ rest ∧ Rejects taken rest cause ∧
        Grammar.headerSpan? (lexemesOf line) = none ∧
        parse line = .error (Cursor.error ⟨line, rest, 0⟩ cause.rule) := by
  have orderly := orderly_lexemesOf line
  -- A header is looked for first, and anything else has to be an expression.
  cases header : Grammar.headerSpan? (lexemesOf line) with
  | some span =>
    obtain ⟨occupied, signs, rfl⟩ := (Grammar.headerSpan?_eq_some_iff orderly.ordered).mp header
    obtain ⟨text, cut⟩ := exists_slice?_extent occupied
    exact .inl ⟨_, parse_eq_of_header occupied signs cut, .header occupied signs cut,
      Nat.zero_le _⟩
  | none =>
    rw [parse_eq_of_headerSpan?_eq_none header]
    have explains := (sound_expression_and_power levelLimit).1 (lexemesOf line) orderly
    cases outcome : Grammar.expression levelLimit (lexemesOf line) with
    | matched tree rest =>
      rw [outcome] at explains
      obtain ⟨taken, cut, derived, bound, settled⟩ := explains
      -- A match is not enough where something is left behind it.
      cases rest with
      | nil =>
        rw [List.append_nil] at cut
        exact .inl ⟨tree, rfl, .expression (cut ▸ derived), bound⟩
      | cons next rest =>
        exact .inr ⟨taken, next :: rest, .leftover, cut,
          .leftover derived bound settled (by simp), rfl, rfl⟩
    | failed reported rest opened =>
      rw [outcome] at explains
      obtain ⟨taken, cause, cut, stuck, rfl⟩ := explains
      exact .inr ⟨taken, rest, cause, cut, .stuck stuck, rfl, rfl⟩

/-- A line derives the tree that it is parsed as, within the limit of levels. -/
theorem derived_of_parse {line : String} {tree : Expr} (parsed : parse line = .ok tree) :
    LineDerives line tree ∧ tree.nest ≤ levelLimit := by
  -- Of the two cases only the one that is accepted agrees with the result.
  rcases parse_cases line with ⟨found, accepted, derived, bound⟩ | ⟨_, _, _, _, _, _, rejected⟩
  · rw [parsed] at accepted
    obtain rfl := Except.ok.inj accepted
    exact ⟨derived, bound⟩
  · rw [parsed] at rejected
    contradiction

/-- A line derives at most one tree. -/
theorem LineDerives.unique {line : String} {first second : Expr}
    (firstDerived : LineDerives line first) (secondDerived : LineDerives line second) :
    first = second := by
  have ordered := (orderly_lexemesOf line).ordered
  -- No line is both a header and an expression.
  cases firstDerived with
  | header occupied signs cut =>
    cases secondDerived with
    | header _ _ again =>
      obtain rfl := Option.some.inj (cut.symm.trans again)
      rfl
    | expression derived => exact absurd signs derived.not_signs
  | expression derived =>
    cases secondDerived with
    | header occupied signs cut => exact absurd signs derived.not_signs
    | expression again => exact derived.unique again ordered

/--
A line is parsed as the tree that it derives within the limit of levels, and derives no other.

Both directions hold of every line, so parsing is sound, complete and unambiguous.
-/
theorem parse_eq_ok_iff (line : String) :
    (∀ tree, parse line = .ok tree ↔ LineDerives line tree ∧ tree.nest ≤ levelLimit) ∧
      ∀ first second, LineDerives line first → LineDerives line second → first = second := by
  -- Soundness and completeness are apart, and a derivation by itself is unique.
  constructor
  · intro tree
    constructor
    · intro parsed
      exact derived_of_parse parsed
    · intro derived
      exact parse_eq_ok derived.1 derived.2
  · intro first second firstDerived secondDerived
    exact firstDerived.unique secondDerived

end Reckon
