import Reckon.Proofs.Grammar.Parsing
import Reckon.Proofs.Lexeme.Joint
import Reckon.Proofs.Tree.Placement

/-! The grammar over the characters of a line: what is derived from its lexemes, and no more. -/

namespace Reckon

/-- By a rule a text writes a tree, whose ranges are measured from the start of the text. -/
inductive Writes : Rule → List Char → Expr → Prop where
  /-- What is written by one of its alternatives is written by a rule. -/
  | alternative {rule part : Rule} {text : List Char} {tree : Expr}
      (listed : part ∈ rule.alternatives) (written : Writes part text tree) :
      Writes rule text tree
  /-- A literal is what the pattern of its kind matches. -/
  | literal {kind : LiteralKind} {rule : Rule} {text : List Char} {value : Binary64}
      (named : kind.rule = rule) (matched : kind.token.Matches text)
      (valued : kind.value? text = some value) :
      Writes rule text (.literal kind (String.ofList text) value ⟨0, byteLength text⟩)
  /-- A decimal literal may have a minus sign right in front of it. -/
  | signed {digits : List Char} {value : Binary64} (matched : Token.Matches .decimal digits)
      (valued : LiteralKind.decimal.value? ('-' :: digits) = some value) :
      Writes .decimalLiteral ('-' :: digits)
        (.literal .decimal (String.ofList ('-' :: digits)) value ⟨0, byteLength ('-' :: digits)⟩)
  /-- A variable is a name. -/
  | reference {text : List Char} (matched : Token.Matches .name text) :
      Writes .reference text (.reference (String.ofList text) ⟨0, byteLength text⟩)
  /-- An expression stands between parentheses, with gaps on both sides. -/
  | parenthesized {before inner after : List Char} {tree : Expr} (leading : Gaps before)
      (written : Writes .expression inner tree) (trailing : Gaps after) :
      Writes .parenthesized ('(' :: before ++ (inner ++ (after ++ [')'])))
        (.parenthesized (tree.shift (byteLength ('(' :: before)))
          ⟨0, byteLength ('(' :: before ++ (inner ++ (after ++ [')'])))⟩)
  /-- The name of a function stands in front of its argument. -/
  | call {function : NamedFunction} {gap argument : List Char} {tree : Expr} (gaps : Gaps gap)
      (written : Writes .parenthesized argument tree) :
      Writes .functionExpression (function.keyword.toList ++ (gap ++ argument))
        (.call function (tree.shift (byteLength (function.keyword.toList ++ gap)))
          ⟨0, byteLength (function.keyword.toList ++ (gap ++ argument))⟩)
  /-- A caret joins a base to a power. -/
  | power {base joint exponent : List Char} {left right : Expr}
      (leftWritten : Writes .signedAtom base left) (joins : Joint '^' joint)
      (rightWritten : Writes .powerExpression exponent right) :
      Writes .powerExpression (base ++ (joint ++ exponent))
        (.operation left .power (right.shift (byteLength (base ++ joint)))
          ⟨0, byteLength (base ++ (joint ++ exponent))⟩)
  /-- Any other operator joins one operand more to those in front of it. -/
  | fold {rule operand : Rule} {accepted : List Operator} {operator : Operator}
      {former joint latter : List Char} {left right : Expr}
      (layer : rule.layer? = some (accepted, operand)) (leftWritten : Writes rule former left)
      (joins : Joint operator.symbol joint) (among : operator ∈ accepted)
      (rightWritten : Writes operand latter right) :
      Writes rule (former ++ (joint ++ latter))
        (.operation left operator (right.shift (byteLength (former ++ joint)))
          ⟨0, byteLength (former ++ (joint ++ latter))⟩)
  /-- An equals sign joins a name to its value. -/
  | assignment {name joint text : List Char} {tree : Expr} (target : Token.Matches .name name)
      (joins : Joint '=' joint) (written : Writes .algebraicExpression text tree) :
      Writes .assignment (name ++ (joint ++ text))
        (.assignment ⟨String.ofList name, ⟨0, byteLength name⟩⟩
          (tree.shift (byteLength (name ++ joint))) ⟨0, byteLength (name ++ (joint ++ text))⟩)

/-- What has been written neither starts nor ends with a gap. -/
theorem Writes.trimmed {rule : Rule} {text : List Char} {tree : Expr}
    (written : Writes rule text tree) : Trimmed text := by
  -- The first and the last part of a text that is put together are trimmed.
  induction written with
  | alternative listed written ih => exact ih
  | literal named matched valued => exact matched.trimmed
  | @signed digits value matched valued =>
    obtain ⟨front, d, ends, solid⟩ := matched.trimmed.last_solid
    exact ⟨⟨'-', digits, rfl, rfl⟩, ⟨'-' :: front, d, by simp [ends], solid⟩⟩
  | reference matched => exact matched.trimmed
  | @parenthesized before inner after tree leading written trailing ih =>
    exact ⟨⟨'(', _, rfl, rfl⟩, ⟨'(' :: before ++ (inner ++ after), ')', by simp, rfl⟩⟩
  | @call function gap argument tree gaps written ih =>
    have named : Trimmed function.keyword.toList := by
      cases function with
      | sine => exact ⟨⟨'s', ['i', 'n'], rfl, rfl⟩, ⟨['s', 'i'], 'n', rfl, rfl⟩⟩
      | cosine => exact ⟨⟨'c', ['o', 's'], rfl, rfl⟩, ⟨['c', 'o'], 's', rfl, rfl⟩⟩
    exact named.append gap ih
  | @power base joint exponent left right leftWritten joins rightWritten leftIh rightIh =>
    exact leftIh.append joint rightIh
  | @fold rule operand accepted operator former joint latter left right layer leftWritten joins
      among rightWritten leftIh rightIh => exact leftIh.append joint rightIh
  | @assignment name joint text tree target joins written ih =>
    exact target.trimmed.append joint ih

/-- What has been written stands where its text does. -/
theorem Writes.span_eq {rule : Rule} {text : List Char} {tree : Expr}
    (written : Writes rule text tree) : tree.span = ⟨0, byteLength text⟩ := by
  -- A rule passes on the range of its alternative, and all others are stated.
  induction written with
  | alternative listed written ih => exact ih
  | literal | signed | reference | parenthesized | call | power | fold | assignment => rfl

/-- What stands between parentheses starts with one. -/
theorem Writes.starts_parenthesized {text : List Char} {tree : Expr}
    (written : Writes .parenthesized text tree) : ∃ rest, text = '(' :: rest := by
  cases written with
  | alternative listed written => contradiction
  | @literal kind _ _ value named matched valued => cases kind <;> contradiction
  | @parenthesized before inner after tree leading written trailing => exact ⟨_, rfl⟩
  | fold layer leftWritten joins among rightWritten => contradiction

/-- What is written as a variable is its name. -/
theorem Writes.of_reference {text : List Char} {tree : Expr} (written : Writes .reference text tree) :
    Token.Matches .name text ∧ tree = .reference (String.ofList text) ⟨0, byteLength text⟩ := by
  -- A variable is written in one way only.
  cases written with
  | alternative listed written => contradiction
  | @literal kind _ _ value named matched valued => cases kind <;> contradiction
  | reference matched => exact ⟨matched, rfl⟩
  | fold layer leftWritten joins among rightWritten => contradiction

/-- The name of a function is a name. -/
theorem NamedFunction.matches_keyword (function : NamedFunction) :
    Token.Matches .name function.keyword.toList := by
  refine isName_iff.mp ?_
  cases function with
  | sine => rfl
  | cosine => rfl

/-- Every operator is a symbol. -/
theorem Operator.exists_token (operator : Operator) :
    ∃ token, Token.ofSymbol? operator.symbol = some token ∧ token.operator? = some operator := by
  -- Each symbol has a kind of lexeme, from which the operator is read back.
  cases operator with
  | add => exact ⟨.plus, rfl, rfl⟩
  | subtract => exact ⟨.minus, rfl, rfl⟩
  | multiply => exact ⟨.star, rfl, rfl⟩
  | divide => exact ⟨.slash, rfl, rfl⟩
  | power => exact ⟨.caret, rfl, rfl⟩

/-- The kind of lexeme that writes an operator is that of its symbol. -/
theorem Token.ofSymbol?_symbol {token : Token} {operator : Operator}
    (writes : token.operator? = some operator) : ofSymbol? operator.symbol = some token := by
  cases token <;> cases writes <;> rfl

/-- What a rule writes as a text it derives from the lexemes of the text, wherever that starts. -/
theorem Writes.derives {rule : Rule} {text : List Char} {tree : Expr}
    (written : Writes rule text tree) :
    ∀ offset, ∃ lexemes, Splits offset text lexemes ∧ Derives rule lexemes (tree.shift offset) := by
  -- The parts of a text are split one after the other, since its symbols keep them apart.
  induction written with
  | alternative listed written ih =>
    intro offset
    obtain ⟨lexemes, split, derived⟩ := ih offset
    exact ⟨lexemes, split, .alternative listed derived⟩
  | @literal kind rule text value named matched valued =>
    intro offset
    let lexeme := Lexeme.ofChars (some kind.token) offset text
    have derived : Derives rule [lexeme] _ :=
      .literal named rfl (LiteralKind.read_eq_ok.mpr (by rwa [Lexeme.toList_ofChars]))
    refine ⟨_, matched.splits offset, ?_⟩
    simpa [Expr.shift, Span.shift, lexeme, Lexeme.ofChars] using derived
  | @signed digits value matched valued =>
    intro offset
    -- The sign and the digits are two lexemes, of which the grammar reads one literal.
    let minus := Lexeme.ofChars (some .minus) offset ['-']
    let number := Lexeme.ofChars (some .decimal) (offset + byteLength ['-']) digits
    have split : Splits offset ('-' :: digits) [minus, number] :=
      ((Token.matches_minus.mpr rfl).splits offset).append (matched.splits _) (.of_last [] digits rfl)
    have text : minus.text ++ number.text = String.ofList ('-' :: digits) := by
      simp [minus, number, Lexeme.ofChars]
    have derived : Derives .decimalLiteral [minus, number] _ :=
      .signed rfl rfl rfl (LiteralKind.read_eq_ok.mpr (by rwa [text, String.toList_ofList]))
    rw [split.extent_of_trimmed (Writes.signed matched valued).trimmed, text] at derived
    refine ⟨_, split, ?_⟩
    simpa [Expr.shift, Span.shift] using derived
  | @reference text matched =>
    intro offset
    let name := Lexeme.ofChars (some .name) offset text
    have derived : Derives .reference [name] _ := .reference rfl
    refine ⟨_, matched.splits offset, ?_⟩
    simpa [Expr.shift, Span.shift, name, Lexeme.ofChars] using derived
  | @parenthesized before inner after tree leading written trailing ih =>
    intro offset
    obtain ⟨lexemes, split, derived⟩ := ih (offset + byteLength ('(' :: before))
    -- The parentheses join nothing on their outer sides.
    have opens : Joint '(' ('(' :: before) := .around .nil leading
    have closes : Joint ')' (after ++ [')']) := .around trailing .nil
    obtain ⟨opening, left, front⟩ := opens.join rfl (.done offset) split
    obtain ⟨closing, right, whole⟩ := closes.join rfl front (.done _)
    simp only [List.nil_append, List.append_nil, List.append_assoc] at whole
    have derived := Derives.parenthesized left derived right
    rw [← List.cons_append, whole.extent_of_trimmed
      (Writes.parenthesized leading written trailing).trimmed] at derived
    refine ⟨_, whole, ?_⟩
    simpa [Expr.shift, Span.shift, Nat.add_comm] using derived
  | @call function gap argument tree gaps written ih =>
    intro offset
    obtain ⟨lexemes, split, derived⟩ := ih (offset + byteLength (function.keyword.toList ++ gap))
    let name := Lexeme.ofChars (some .name) offset function.keyword.toList
    -- The argument starts with a parenthesis, which keeps it apart from the name.
    obtain ⟨rest, rfl⟩ := written.starts_parenthesized
    have opens : Joint '(' (gap ++ ['(']) := .around gaps .nil
    have apart := opens.apart_left rfl function.keyword.toList rest
    rw [List.append_assoc, List.singleton_append] at apart
    rw [byteLength_append, ← Nat.add_assoc] at split
    have whole : Splits offset _ (name :: lexemes) :=
      (function.matches_keyword.splits offset).append (gaps.splits_append_iff.mpr split) apart
    have derived : Derives .functionExpression (name :: lexemes) _ :=
      .call rfl String.ofList_toList derived
    rw [whole.extent_of_trimmed (Writes.call gaps written).trimmed] at derived
    refine ⟨_, whole, ?_⟩
    simpa [Expr.shift, Span.shift, Nat.add_comm] using derived
  | @power base joint exponent left right leftWritten joins rightWritten leftIh rightIh =>
    intro offset
    obtain ⟨former, firstSplit, leftDerived⟩ := leftIh offset
    obtain ⟨latter, secondSplit, rightDerived⟩ := rightIh (offset + byteLength (base ++ joint))
    obtain ⟨caret, token, split⟩ := joins.join rfl firstSplit secondSplit
    have derived := Derives.power leftDerived token rightDerived
    rw [split.extent_of_trimmed (Writes.power leftWritten joins rightWritten).trimmed] at derived
    refine ⟨_, split, ?_⟩
    simpa [Expr.shift, Span.shift, Nat.add_comm] using derived
  | @fold rule operand accepted operator former joint latter left right layer leftWritten joins
      among rightWritten leftIh rightIh =>
    intro offset
    -- Which operators a layer takes does not matter, since each one is a symbol.
    obtain ⟨token, symbol, writes⟩ := operator.exists_token
    obtain ⟨lexemes, firstSplit, leftDerived⟩ := leftIh offset
    obtain ⟨others, secondSplit, rightDerived⟩ := rightIh (offset + byteLength (former ++ joint))
    obtain ⟨sign, known, split⟩ := joins.join symbol firstSplit secondSplit
    have derived := Derives.fold layer leftDerived (by rw [known]; exact writes) among rightDerived
    rw [split.extent_of_trimmed
      (Writes.fold layer leftWritten joins among rightWritten).trimmed] at derived
    refine ⟨_, split, ?_⟩
    simpa [Expr.shift, Span.shift, Nat.add_comm] using derived
  | @assignment name joint text tree target joins written ih =>
    intro offset
    let assigned := Lexeme.ofChars (some .name) offset name
    obtain ⟨lexemes, split, derived⟩ := ih (offset + byteLength (name ++ joint))
    obtain ⟨equals, token, whole⟩ := joins.join rfl (target.splits offset) split
    have whole : Splits offset _ (assigned :: equals :: lexemes) := whole
    have derived : Derives .assignment (assigned :: equals :: lexemes) _ :=
      .assignment rfl token derived
    rw [whole.extent_of_trimmed (Writes.assignment target joins written).trimmed] at derived
    refine ⟨_, whole, ?_⟩
    simpa [Expr.shift, Span.shift, Nat.add_comm, assigned, Lexeme.ofChars] using derived

/-- A text writes a tree with gaps around what is written, where the text starts at an offset. -/
inductive WritesWithin (rule : Rule) (offset : Nat) : List Char → Expr → Prop where
  | around {before text after : List Char} {tree : Expr} (leading : Gaps before)
      (written : Writes rule text tree) (trailing : Gaps after) :
      WritesWithin rule offset (before ++ (text ++ after))
        (tree.shift (offset + byteLength before))

/-- What is written with gaps around it is derived from the lexemes of the text. -/
theorem WritesWithin.derives {rule : Rule} {offset : Nat} {text : List Char} {tree : Expr}
    (written : WritesWithin rule offset text tree) :
    ∃ lexemes, Splits offset text lexemes ∧ Derives rule lexemes tree := by
  obtain @⟨before, text, after, tree, leading, written, trailing⟩ := written
  obtain ⟨lexemes, split, derived⟩ := written.derives (offset + byteLength before)
  -- The gaps add no lexemes, neither in front nor behind.
  have whole := split.append (trailing.splits _) (trailing.apart text)
  rw [List.append_nil] at whole
  exact ⟨lexemes, leading.splits_append_iff.mpr whole, derived⟩

/-- What is written on the two sides of a symbol is written on those of a joint. -/
theorem Splits.exists_sides {offset : Nat} {text : List Char} {former latter : List Lexeme}
    {sign : Lexeme} {token : Token} {c : Char} {leftRule rightRule : Rule} {left right : Expr}
    (split : Splits offset text (former ++ sign :: latter)) (known : sign.token = some token)
    (symbol : Token.ofSymbol? c = some token)
    (leftWrites : ∀ offset text, Splits offset text former →
      WritesWithin leftRule offset text left)
    (rightWrites : ∀ offset text, Splits offset text latter →
      WritesWithin rightRule offset text right) :
    ∃ before front joint back after leftTree rightTree,
      text = before ++ (front ++ (joint ++ back) ++ after) ∧ Gaps before ∧ Gaps after ∧
      Joint c joint ∧ Writes leftRule front leftTree ∧ Writes rightRule back rightTree ∧
      left = leftTree.shift (offset + byteLength before) ∧
      right = (rightTree.shift (byteLength (front ++ joint))).shift
        (offset + byteLength before) := by
  -- The text is cut at the sign, and each side is written within its gaps.
  obtain ⟨leftText, gap, rightText, rfl, gaps, firstSplit, secondSplit⟩ :=
    split.exists_joint known symbol
  obtain @⟨before, front, between, leftTree, leading, leftWritten, closing⟩ :=
    leftWrites _ _ firstSplit
  obtain @⟨behind, back, after, rightTree, opening, rightWritten, trailing⟩ :=
    rightWrites _ _ secondSplit
  -- The gaps on both sides of the sign belong to what joins the operands.
  refine ⟨before, front, between ++ gap ++ c :: behind, back, after, leftTree, rightTree, by simp,
    leading, trailing, .around (closing.append gaps) opening, leftWritten, rightWritten, rfl, ?_⟩
  rw [Expr.shift_shift]
  congr 1
  simp only [byteLength_append, byteLength_cons, byteLength_nil]
  omega

/-- What a rule derives from the lexemes of a text it writes as the text, but for gaps around it. -/
theorem Derives.writes {rule : Rule} {lexemes : List Lexeme} {tree : Expr}
    (derived : Derives rule lexemes tree) :
    ∀ offset text, Splits offset text lexemes → WritesWithin rule offset text tree := by
  -- The text is cut where the lexemes are, and the gaps at the cuts go to the symbols there, or
  -- around the whole where there is none.
  induction derived with
  | alternative listed derived ih =>
    intro offset text split
    obtain @⟨before, text, after, tree, leading, written, trailing⟩ := ih offset text split
    exact .around leading (.alternative listed written) trailing
  | @literal kind rule lexeme value named token read =>
    intro offset text split
    obtain ⟨before, after, rfl, leading, place, matched, rest⟩ := split.exists_cons
    have written := Writes.literal named (matched _ token) (LiteralKind.read_eq_ok.mp read)
    have whole : WritesWithin rule offset _ _ := .around leading written rest.gaps
    simpa [Expr.shift, Span.shift, place] using whole
  | @signed minus digits value sign token glued read =>
    intro offset text split
    obtain ⟨before, after, rfl, leading, trailing, whole, matched, _⟩ :=
      split.exists_glued sign token glued
    -- The value is that of the two texts together, which are the text of the part.
    have valued := LiteralKind.read_eq_ok.mp read
    rw [whole, String.toList_ofList] at valued
    have written := Writes.signed matched valued
    rw [(split.extent_eq leading written.trimmed trailing).2, whole]
    have around : WritesWithin .decimalLiteral offset _ _ := .around leading written trailing
    simpa [Expr.shift, Span.shift] using around
  | @reference name token =>
    intro offset text split
    obtain ⟨before, after, rfl, leading, place, matched, rest⟩ := split.exists_cons
    have whole : WritesWithin .reference offset _ _ :=
      .around leading (.reference (matched _ token)) rest.gaps
    simpa [Expr.shift, Span.shift, place] using whole
  | @parenthesized opening closing inner tree left derived right ih =>
    intro offset text split
    -- Nothing but gaps stands in front of the left parenthesis and behind the right one.
    have fromLeft : Splits offset text ([] ++ opening :: (inner ++ [closing])) := split
    obtain ⟨front, gap, behind, rfl, gaps, leading, later⟩ :=
      fromLeft.exists_joint left (show Token.ofSymbol? '(' = some .leftParen from rfl)
    obtain ⟨middle, space, back, rfl, spaces, middleSplit, trailing⟩ :=
      later.exists_joint right (show Token.ofSymbol? ')' = some .rightParen from rfl)
    obtain @⟨before, text, after, tree, opened, written, closed⟩ := ih _ _ middleSplit
    have written := Writes.parenthesized opened written (closed.append spaces)
    have leading := leading.gaps.append gaps
    have text_eq : front ++ (gap ++ '(' :: (before ++ (text ++ after) ++ (space ++ ')' :: back))) =
        front ++ gap ++ ('(' :: before ++ (text ++ (after ++ space ++ [')'])) ++ back) := by
      simp
    rw [text_eq] at split ⊢
    rw [(split.extent_eq leading written.trimmed trailing.gaps).2]
    have around : WritesWithin .parenthesized offset _ _ :=
      .around leading written trailing.gaps
    simpa [Expr.shift, Span.shift, Nat.add_assoc, Nat.add_comm, Nat.add_left_comm] using around
  | @call name function argument tree token keyword derived ih =>
    intro offset text split
    obtain ⟨before, behind, rfl, leading, place, matched, rest⟩ := split.exists_cons
    -- The gaps in front of the argument are those between it and the name.
    obtain @⟨gap, argument, after, tree, gaps, written, trailing⟩ := ih _ _ rest
    have written : Writes .functionExpression (function.keyword.toList ++ (gap ++ argument)) _ :=
      .call gaps written
    rw [keyword] at split ⊢
    rw [← List.append_assoc function.keyword.toList, ← List.append_assoc _ argument,
      List.append_assoc function.keyword.toList] at split ⊢
    rw [(split.extent_eq leading written.trimmed trailing).2]
    have around : WritesWithin .functionExpression offset _ _ :=
      .around leading written trailing
    simpa [Expr.shift, Span.shift, Nat.add_assoc, Nat.add_comm, Nat.add_left_comm] using around
  | @power caret base exponent left right leftDerived token rightDerived leftIh rightIh =>
    intro offset text split
    obtain ⟨before, front, joint, back, after, leftTree, rightTree, rfl, leading, trailing, joins,
      leftWritten, rightWritten, rfl, rfl⟩ :=
        split.exists_sides token (show Token.ofSymbol? '^' = some .caret from rfl) leftIh rightIh
    have written := Writes.power leftWritten joins rightWritten
    rw [(split.extent_eq leading written.trimmed trailing).2]
    have around : WritesWithin .powerExpression offset _ _ := .around leading written trailing
    simpa [Expr.shift, Span.shift] using around
  | @fold rule operand accepted operator sign former latter left right layer leftDerived token
      among rightDerived leftIh rightIh =>
    intro offset text split
    obtain ⟨kind, known, writes⟩ := Option.bind_eq_some_iff.mp token
    obtain ⟨before, front, joint, back, after, leftTree, rightTree, rfl, leading, trailing, joins,
      leftWritten, rightWritten, rfl, rfl⟩ :=
        split.exists_sides known (Token.ofSymbol?_symbol writes) leftIh rightIh
    have written := Writes.fold layer leftWritten joins among rightWritten
    rw [(split.extent_eq leading written.trimmed trailing).2]
    have around : WritesWithin rule offset _ _ := .around leading written trailing
    simpa [Expr.shift, Span.shift] using around
  | @assignment name equals lexemes tree target token derived ih =>
    intro offset text split
    -- The name in front of the equals sign is written as a variable would be.
    have nameWrites : ∀ offset text, Splits offset text [name] →
        WritesWithin .reference offset text (.reference name.text name.span) := by
      intro offset text split
      obtain ⟨before, after, rfl, leading, place, matched, rest⟩ := split.exists_cons
      have whole : WritesWithin .reference offset _ _ :=
        .around leading (.reference (matched _ target)) rest.gaps
      simpa [Expr.shift, Span.shift, place] using whole
    have whole : Splits offset text ([name] ++ equals :: lexemes) := split
    obtain ⟨before, front, joint, back, after, nameTree, valueTree, rfl, leading, trailing, joins,
      nameWritten, valueWritten, same, rfl⟩ :=
        whole.exists_sides token (show Token.ofSymbol? '=' = some .equals from rfl) nameWrites ih
    obtain ⟨matched, rfl⟩ := nameWritten.of_reference
    simp only [Expr.shift, Expr.reference.injEq] at same
    have written := Writes.assignment matched joins valueWritten
    rw [(split.extent_eq leading written.trimmed trailing).2, same.1, same.2]
    have around : WritesWithin .assignment offset _ _ := .around leading written trailing
    simpa [Expr.shift, Span.shift] using around

end Reckon
