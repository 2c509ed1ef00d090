import Reckon.Proofs.Evaluation.Outcome
import Reckon.Proofs.Grammar.WrittenLine

/-! A tree that a line can have is told by the nested lists that it is shown as. -/

namespace Reckon

/-- A text without the characters that nested lists are put together with. -/
def IsWord (text : List Char) : Prop := ∀ c ∈ text, c ≠ ' ' ∧ c ≠ '(' ∧ c ≠ ')'

/-- What may follow a list or a word: nothing, the next part of a list or the end of the list. -/
def Closes (rest : List Char) : Prop := ∀ c ∈ rest.head?, c = ' ' ∨ c = ')'

/-- A list or a word may be followed by the next part. -/
theorem Closes.space (rest : List Char) : Closes (' ' :: rest) :=
  fun _ first => .inl (Option.some.inj first).symm

/-- A list or a word may be followed by the end of the list that it is in. -/
theorem Closes.parenthesis (rest : List Char) : Closes (')' :: rest) :=
  fun _ first => .inr (Option.some.inj first).symm

/-- A word is told apart from what follows it. -/
theorem IsWord.append_inj {word other rest otherRest : List Char} (isWord : IsWord word)
    (otherWord : IsWord other) (closes : Closes rest) (otherCloses : Closes otherRest)
    (same : word ++ rest = other ++ otherRest) : word = other ∧ rest = otherRest := by
  -- A character that closes one of the words is in the other one only if that has ended too.
  have ended {c : Char} {word rest : List Char} (isWord : IsWord (c :: word))
      (closes : Closes (c :: rest)) : False := by
    obtain ⟨space, _, closing⟩ := isWord c List.mem_cons_self
    exact (closes c rfl).elim space closing
  -- The induction goes over one of the words, and the other one loses the same characters.
  induction word generalizing other with
  | nil =>
    cases other with
    | nil => exact ⟨rfl, same⟩
    | cons c other =>
      subst same
      exact (ended otherWord closes).elim
  | cons c word ih =>
    cases other with
    | nil =>
      subst same
      exact (ended isWord otherCloses).elim
    | cons d other =>
      obtain ⟨rfl, tail⟩ := List.cons.inj same
      obtain ⟨rfl, rest_eq⟩ := ih (fun c member => isWord c (List.mem_cons_of_mem _ member))
        (fun c member => otherWord c (List.mem_cons_of_mem _ member)) tail
      exact ⟨rfl, rest_eq⟩

/-- A lexeme that is no parenthesis is a word. -/
theorem Token.Matches.isWord {token : Token} {text : List Char} (matched : token.Matches text)
    (opening : token ≠ .leftParen) (closing : token ≠ .rightParen) : IsWord text := by
  -- A symbol is a lexeme by itself, so a parenthesis would be the whole of it.
  have alone {c : Char} {other : Token} (member : c ∈ text) (symbol : ofSymbol? c = some other) :
      token = other := by
    by_cases several : 2 ≤ text.length
    · have := matched.not_breaks several c member
      simp [breaks_of_symbol symbol] at this
    · obtain ⟨d, rest, rfl, _⟩ := matched.head
      obtain rfl : rest = [] := by
        cases rest with
        | nil => rfl
        | cons _ _ => simp at several
      obtain rfl := List.mem_singleton.mp member
      exact (matched.eq_of_symbol symbol).1
  -- A space is in no lexeme, and a parenthesis only in one that was excluded.
  intro c member
  refine ⟨?_, ?_, ?_⟩ <;> rintro rfl
  · exact absurd (matched.solid ' ' member) (by decide)
  · exact opening (alone member rfl)
  · exact closing (alone member rfl)

namespace LiteralKind

/-- A literal is a word. -/
theorem Spells.isWord {kind : LiteralKind} {text : List Char} (spelled : kind.Spells text) :
    IsWord text := by
  -- The sign in front of a literal is no character of lists, and the digits are a lexeme.
  cases spelled with
  | plain matched => cases kind <;> exact matched.isWord (by decide) (by decide)
  | signed matched =>
    refine List.forall_mem_cons.mpr ⟨by decide, ?_⟩
    exact matched.isWord (by decide) (by decide)

/-- A text that starts with a minus sign is no lexeme but that sign. -/
theorem not_matches_minus {token : Token} {digits : List Char} (other : token ≠ .minus) :
    ¬ token.Matches ('-' :: digits) :=
  -- A symbol at the start settles which lexeme it is.
  fun matched => other (matched.eq_of_symbol (show Token.ofSymbol? '-' = some .minus from rfl)).1

/-- A text spells literals of one kind at most. -/
theorem Spells.unique {first second : LiteralKind} {text : List Char} (spelled : first.Spells text)
    (other : second.Spells text) : first = second := by
  cases spelled with
  -- Without a sign both are lexemes, and a text is a lexeme of one kind at most.
  | plain matched =>
    cases other with
    | plain otherMatched =>
      have same := matched.unique otherMatched
      cases first <;> cases second <;> first | rfl | contradiction
    | signed => exact (not_matches_minus (by cases first <;> decide) matched).elim
  | signed =>
    -- With a sign both are decimal literals.
    cases other with
    | plain otherMatched => exact (not_matches_minus (by cases second <;> decide) otherMatched).elim
    | signed => rfl

/-- A name spells no literal. -/
theorem Spells.not_name {kind : LiteralKind} {text : List Char} (spelled : kind.Spells text) :
    ¬ Token.Matches .name text := by
  intro named
  -- The text would be matched by two kinds, and a name has no sign in front.
  cases spelled with
  | plain matched =>
    have same := named.unique matched
    cases kind <;> contradiction
  | signed => exact not_matches_minus (by decide) named

end LiteralKind

namespace Expr

/-- What the list of a tree starts with. -/
inductive Heading where
  | assignment
  | operation (operator : Operator)
  | call (function : NamedFunction)
  | parenthesized
  | header
  deriving DecidableEq

/-- The heading in words. -/
def Heading.name : Heading → String
  | .assignment => "Assignment"
  | .operation operator => operator.name
  | .call function => function.name
  | .parenthesized => "Parenthesized"
  | .header => "Header"

/-- Every heading. -/
def Heading.all : List Heading :=
  [.assignment, .parenthesized, .header] ++ Operator.all.map .operation ++
    NamedFunction.all.map .call

/-- The list of all headings has each of them in it. -/
theorem Heading.mem_all (heading : Heading) : heading ∈ all := by
  cases heading with
  | operation operator => cases operator <;> decide
  | call function => cases function <;> decide
  | _ => decide

/-- Headings are told apart by their names. -/
theorem Heading.name_inj {first second : Heading} (same : first.name = second.name) :
    first = second := by
  -- There are few enough headings to compare each with each.
  have apart : ∀ first ∈ all, ∀ second ∈ all, first.name = second.name → first = second := by
    decide
  exact apart first first.mem_all second second.mem_all same

/-- The name of a heading is a word. -/
theorem Heading.isWord (heading : Heading) : IsWord heading.name.toList := by
  -- There are few headings, and each is looked through.
  have words : ∀ heading ∈ all,
      heading.name.toList.all (fun c => c ≠ ' ' ∧ c ≠ '(' ∧ c ≠ ')') = true := by decide
  intro c member
  simpa using List.all_eq_true.mp (words heading heading.mem_all) c member

/-- The heading of the list of a tree, which a tree that is shown as a word has not. -/
def heading? : Expr → Option Heading
  | .literal .. => none
  | .reference .. => none
  | .assignment .. => some .assignment
  | .operation _ operator _ _ => some (.operation operator)
  | .call function _ _ => some (.call function)
  | .parenthesized .. => some .parenthesized
  | .header .. => some .header

/-- What is shown of a tree behind its heading. -/
def contents : Expr → List Char
  | .literal _ text _ _ => text.toList
  | .reference name _ => name.toList
  | .assignment target value _ => target.name.toList ++ ' ' :: value.display.toList
  | .operation left _ right _ => left.display.toList ++ ' ' :: right.display.toList
  | .call _ argument _ => argument.display.toList
  | .parenthesized inner _ => inner.display.toList
  | .header text _ => text.toList

/-- A tree without a heading is shown as its contents. -/
theorem display_of_heading?_eq_none {tree : Expr} (bare : tree.heading? = none) :
    tree.display.toList = tree.contents := by
  cases tree <;> first | rfl | contradiction

/-- A tree with a heading is shown as a list, with the heading in front of its contents. -/
theorem display_of_heading? {tree : Expr} {heading : Heading}
    (found : tree.heading? = some heading) :
    tree.display.toList = '(' :: (heading.name.toList ++ ' ' :: (tree.contents ++ [')'])) := by
  -- Each display starts with the name of the heading and ends with the contents.
  cases tree with
  | literal | reference => contradiction
  | assignment target value span =>
    cases found
    show ("(Assignment " ++ target.name ++ " " ++ value.display ++ ")").toList = _
    simp [contents, Heading.name]
  | operation left operator right span =>
    cases found
    show ("(" ++ operator.name ++ " " ++ left.display ++ " " ++ right.display ++ ")").toList = _
    simp [contents, Heading.name]
  | call function argument span =>
    cases found
    show ("(" ++ function.name ++ " " ++ argument.display ++ ")").toList = _
    simp [contents, Heading.name]
  | parenthesized inner span =>
    cases found
    show ("(Parenthesized " ++ inner.display ++ ")").toList = _
    simp [contents, Heading.name]
  | header text span =>
    cases found
    show ("(Header " ++ text ++ ")").toList = _
    simp [contents, Heading.name]

/-- A tree is told by what is shown of it: its literals and names are spelled as in a line. -/
inductive Legible : Expr → Prop where
  | literal {kind : LiteralKind} {text : String} {value : Binary64} {span : Span}
      (spelled : kind.Spells text.toList) (valued : kind.value? text.toList = some value) :
      Legible (.literal kind text value span)
  | reference {name : String} {span : Span} (matched : Token.Matches .name name.toList) :
      Legible (.reference name span)
  | assignment {target : Identifier} {value : Expr} {span : Span}
      (matched : Token.Matches .name target.name.toList) (legible : Legible value) :
      Legible (.assignment target value span)
  | operation {left right : Expr} {operator : Operator} {span : Span} (leftLegible : Legible left)
      (rightLegible : Legible right) : Legible (.operation left operator right span)
  | call {function : NamedFunction} {argument : Expr} {span : Span} (legible : Legible argument) :
      Legible (.call function argument span)
  | parenthesized {inner : Expr} {span : Span} (legible : Legible inner) :
      Legible (.parenthesized inner span)
  | header {text : String} {span : Span} (signs : ∀ c ∈ text.toList, c = '-' ∨ isGap c = true) :
      Legible (.header text span)

/-- A tree without a heading is shown as a word. -/
theorem Legible.isWord {tree : Expr} (legible : Legible tree) (bare : tree.heading? = none) :
    IsWord tree.contents := by
  -- Without a heading there is only the text of a literal or a name.
  cases legible with
  | literal spelled valued => exact spelled.isWord
  | reference matched => exact matched.isWord (by decide) (by decide)
  | assignment | operation | call | parenthesized | header => contradiction

/-- A tree with a heading is shown in parentheses, and one without is not. -/
theorem Legible.head?_display {tree : Expr} (legible : Legible tree) (rest : List Char)
    (closes : Closes rest) :
    (tree.display.toList ++ rest).head? = some '(' ↔ tree.heading? ≠ none := by
  cases found : tree.heading? with
  | none =>
    -- A word has no parenthesis in it, and behind an empty one there is a space or the end.
    rw [display_of_heading?_eq_none found]
    have isWord := legible.isWord found
    simp only [ne_eq, not_true_eq_false, iff_false]
    intro opens
    cases contents_eq : tree.contents with
    | nil =>
      rw [contents_eq] at opens
      exact absurd (closes '(' opens) (by decide)
    | cons c others =>
      rw [contents_eq] at opens isWord
      obtain rfl := Option.some.inj opens
      exact (isWord _ List.mem_cons_self).2.1 rfl
  | some heading => simp [display_of_heading? found]

section

variable {tree other : Expr} {rest otherRest : List Char} (legible : Legible tree)
  (otherLegible : Legible other) (closes : Closes rest) (otherCloses : Closes otherRest)
  (same : tree.display.toList ++ rest = other.display.toList ++ otherRest)

include legible otherLegible closes otherCloses same

/-- Of two trees that are shown alike, one has a heading where the other one has. -/
theorem Legible.bare_iff : tree.heading? = none ↔ other.heading? = none := by
  -- Whether there is a heading is told by the first character, which the two share.
  have left := legible.head?_display rest closes
  have right := otherLegible.head?_display otherRest otherCloses
  rw [same] at left
  exact not_iff_not.mp (left.symm.trans right)

/-- Two trees without a heading that are shown alike have the same contents. -/
theorem Legible.contents_eq (bare : tree.heading? = none) :
    tree.contents = other.contents ∧ rest = otherRest := by
  have otherBare := (legible.bare_iff otherLegible closes otherCloses same).mp bare
  -- Both are words, and a word ends where what follows closes it.
  rw [display_of_heading?_eq_none bare, display_of_heading?_eq_none otherBare] at same
  exact (legible.isWord bare).append_inj (otherLegible.isWord otherBare) closes otherCloses same

/-- Two trees without a heading that are shown alike are of one shape. -/
theorem Legible.shape_eq_of_bare (bare : tree.heading? = none) :
    tree.shape = other.shape ∧ rest = otherRest := by
  have otherBare := (legible.bare_iff otherLegible closes otherCloses same).mp bare
  obtain ⟨text_eq, rest_eq⟩ := legible.contents_eq otherLegible closes otherCloses same bare
  refine ⟨?_, rest_eq⟩
  -- A literal is told from a name by its text, and the kind of a literal as well.
  cases legible with
  | literal spelled valued =>
    cases otherLegible with
    | literal otherSpelled otherValued =>
      obtain rfl := String.toList_inj.mp text_eq
      obtain rfl := spelled.unique otherSpelled
      obtain rfl := Option.some.inj (valued.symm.trans otherValued)
      rfl
    | reference matched =>
      obtain rfl := String.toList_inj.mp text_eq
      exact absurd matched spelled.not_name
    | assignment | operation | call | parenthesized | header => contradiction
  | reference matched =>
    cases otherLegible with
    | literal otherSpelled otherValued =>
      obtain rfl := String.toList_inj.mp text_eq
      exact absurd matched otherSpelled.not_name
    | reference otherMatched =>
      obtain rfl := String.toList_inj.mp text_eq
      rfl
    | assignment | operation | call | parenthesized | header => contradiction
  | assignment | operation | call | parenthesized | header => contradiction

/-- Two trees that are shown alike have the same heading, and go on alike behind it. -/
theorem Legible.heading_eq {heading : Heading} (found : tree.heading? = some heading) :
    other.heading? = some heading ∧
      tree.contents ++ ')' :: rest = other.contents ++ ')' :: otherRest := by
  cases otherFound : other.heading? with
  | none =>
    -- A word does not start with a parenthesis, as the list of the other tree does.
    have bare := (legible.bare_iff otherLegible closes otherCloses same).mpr otherFound
    rw [found] at bare
    contradiction
  | some otherHeading =>
    rw [display_of_heading? found, display_of_heading? otherFound] at same
    -- The names end in front of the first space, so they are the same.
    have lists : heading.name.toList ++ ' ' :: (tree.contents ++ ')' :: rest) =
        otherHeading.name.toList ++ ' ' :: (other.contents ++ ')' :: otherRest) := by
      simpa using same
    obtain ⟨names, behind⟩ :=
      heading.isWord.append_inj otherHeading.isWord (.space _) (.space _) lists
    rw [Heading.name_inj (String.toList_inj.mp names)]
    exact ⟨rfl, (List.cons.inj behind).2⟩

end

/-- A header is shown without the character that ends its list. -/
theorem header_append_inj {text other rest otherRest : List Char}
    (signs : ∀ c ∈ text, c = '-' ∨ isGap c = true)
    (otherSigns : ∀ c ∈ other, c = '-' ∨ isGap c = true)
    (same : text ++ ')' :: rest = other ++ ')' :: otherRest) : text = other ∧ rest = otherRest := by
  -- Minus signs and gaps are no parentheses.
  have lacks {text : List Char} (signs : ∀ c ∈ text, c = '-' ∨ isGap c = true) :
      ∀ c ∈ text, (c != ')') = true := by
    intro c member
    rcases signs c member with rfl | gap
    · rfl
    · refine bne_iff_ne.mpr ?_
      rintro rfl
      exact absurd gap (by decide)
  -- Both texts are what is in front of the first such character.
  obtain ⟨text_eq, rest_eq⟩ := takeWhile_append_cons (lacks signs) (c := ')') rfl rest
  obtain ⟨other_eq, otherRest_eq⟩ :=
    takeWhile_append_cons (lacks otherSigns) (c := ')') rfl otherRest
  rw [same] at text_eq rest_eq
  exact ⟨text_eq.symm.trans other_eq, (List.cons.inj (rest_eq.symm.trans otherRest_eq)).2⟩

/-- Two trees that are shown alike are of one shape, whatever is shown behind them. -/
theorem Legible.shape_eq {tree : Expr} (legible : Legible tree) :
    ∀ {other : Expr} {rest otherRest : List Char}, Legible other → Closes rest → Closes otherRest →
      tree.display.toList ++ rest = other.display.toList ++ otherRest →
      tree.shape = other.shape ∧ rest = otherRest := by
  -- The induction goes over one tree, and the heading tells what the other one is.
  induction legible with
  | literal spelled valued =>
    intro other rest otherRest otherLegible closes otherCloses same
    exact shape_eq_of_bare (.literal spelled valued) otherLegible closes otherCloses same rfl
  | reference matched =>
    intro other rest otherRest otherLegible closes otherCloses same
    exact shape_eq_of_bare (.reference matched) otherLegible closes otherCloses same rfl
  | @assignment target value span matched legible ih =>
    intro other rest otherRest otherLegible closes otherCloses same
    have whole : Legible (.assignment target value span) := .assignment matched legible
    obtain ⟨found, behind⟩ := whole.heading_eq otherLegible closes otherCloses same rfl
    cases otherLegible with
    | assignment otherMatched otherLegible =>
      simp only [contents, List.append_assoc, List.cons_append] at behind
      -- The name ends at the space, and the value in front of the end of the list.
      obtain ⟨names, behind⟩ := (matched.isWord (by decide) (by decide)).append_inj
        (otherMatched.isWord (by decide) (by decide)) (.space _) (.space _) behind
      obtain ⟨shapes, rests⟩ :=
        ih otherLegible (.parenthesis _) (.parenthesis _) (List.cons.inj behind).2
      refine ⟨?_, (List.cons.inj rests).2⟩
      rw [shape, shape, String.toList_inj.mp names, shapes]
    | literal | reference | operation | call | parenthesized | header => cases found
  | @operation left right operator span leftLegible rightLegible leftIh rightIh =>
    intro other rest otherRest otherLegible closes otherCloses same
    have whole : Legible (.operation left operator right span) :=
      .operation leftLegible rightLegible
    obtain ⟨found, behind⟩ := whole.heading_eq otherLegible closes otherCloses same rfl
    cases otherLegible with
    | operation otherLeft otherRight =>
      -- The left operand ends where the space is, and the right one where its list does.
      simp only [contents, List.append_assoc, List.cons_append] at behind
      obtain ⟨lefts, behind⟩ := leftIh otherLeft (.space _) (.space _) behind
      obtain ⟨rights, rests⟩ :=
        rightIh otherRight (.parenthesis _) (.parenthesis _) (List.cons.inj behind).2
      obtain ⟨rfl⟩ := Heading.operation.inj (Option.some.inj found)
      refine ⟨?_, (List.cons.inj rests).2⟩
      rw [shape, shape, lefts, rights]
    | literal | reference | assignment | call | parenthesized | header => cases found
  | @call function argument span legible ih =>
    intro other rest otherRest otherLegible closes otherCloses same
    have whole : Legible (.call function argument span) := .call legible
    obtain ⟨found, behind⟩ := whole.heading_eq otherLegible closes otherCloses same rfl
    cases otherLegible with
    -- What is behind the argument is the end of the list, which closes both.
    | call otherLegible =>
      obtain ⟨shapes, rests⟩ := ih otherLegible (.parenthesis _) (.parenthesis _) behind
      obtain ⟨rfl⟩ := Heading.call.inj (Option.some.inj found)
      refine ⟨?_, (List.cons.inj rests).2⟩
      rw [shape, shape, shapes]
    | literal | reference | assignment | operation | parenthesized | header => cases found
  | @parenthesized inner span legible ih =>
    intro other rest otherRest otherLegible closes otherCloses same
    have whole : Legible (.parenthesized inner span) := .parenthesized legible
    obtain ⟨found, behind⟩ := whole.heading_eq otherLegible closes otherCloses same rfl
    cases otherLegible with
    | parenthesized otherLegible =>
      obtain ⟨shapes, rests⟩ := ih otherLegible (.parenthesis _) (.parenthesis _) behind
      refine ⟨?_, (List.cons.inj rests).2⟩
      rw [shape, shape, shapes]
    | literal | reference | assignment | operation | call | header => cases found
  | @header text span signs =>
    intro other rest otherRest otherLegible closes otherCloses same
    have whole : Legible (.header text span) := .header signs
    obtain ⟨found, behind⟩ := whole.heading_eq otherLegible closes otherCloses same rfl
    cases otherLegible with
    | header otherSigns =>
      obtain ⟨texts, rests⟩ := header_append_inj signs otherSigns behind
      refine ⟨?_, rests⟩
      rw [shape, shape, String.toList_inj.mp texts]
    | literal | reference | assignment | operation | call | parenthesized => cases found

/-- A tree that is moved is as legible as before. -/
theorem Legible.shift {tree : Expr} (legible : Legible tree) (distance : Nat) :
    Legible (tree.shift distance) := by
  -- The texts of a tree do not move.
  induction legible with
  | literal spelled valued => exact .literal spelled valued
  | reference matched => exact .reference matched
  | assignment matched legible ih => exact .assignment matched ih
  | operation leftLegible rightLegible leftIh rightIh => exact .operation leftIh rightIh
  | call legible ih => exact .call ih
  | parenthesized legible ih => exact .parenthesized ih
  | header signs => exact .header signs

end Expr

/-- What a text writes is legible. -/
theorem Writes.legible {rule : Rule} {text : List Char} {tree : Expr}
    (written : Writes rule text tree) : tree.Legible := by
  -- The texts of literals and names are parts of what is written.
  induction written with
  | alternative listed written ih => exact ih
  | literal named matched valued =>
    exact .literal (by simpa using .plain matched) (by simpa using valued)
  | signed matched valued => exact .literal (by simpa using .signed matched) (by simpa using valued)
  | reference matched => exact .reference (by simpa using matched)
  | parenthesized leading written trailing ih => exact .parenthesized (ih.shift _)
  | call gaps written ih => exact .call (ih.shift _)
  | power leftWritten joins rightWritten leftIh rightIh => exact .operation leftIh (rightIh.shift _)
  | fold layer leftWritten joins among rightWritten leftIh rightIh =>
    exact .operation leftIh (rightIh.shift _)
  | assignment target joins written ih => exact .assignment (by simpa using target) (ih.shift _)

/-- The tree of a line that is accepted is legible. -/
theorem legible_of_parse {line : String} {tree : Expr} (parsed : parse line = .ok tree) :
    tree.Legible := by
  obtain ⟨before, text, after, base, _, _, _, written, rfl, _⟩ :=
    parse_eq_ok_iff_exists_written.mp parsed
  -- A header has only its own signs, and all other lines are expressions between gaps.
  cases written with
  | header trimmed signs => exact .header (by simpa using signs)
  | expression written => exact written.legible.shift _

/--
Two accepted lines whose trees are shown alike have trees of one shape.

Then they have the same value in every session and leave the same session behind.
-/
theorem shape_eq_of_display_eq {first second : String} {tree other : Expr}
    (parsed : parse first = .ok tree) (otherParsed : parse second = .ok other)
    (same : tree.display = other.display) :
    tree.shape = other.shape ∧ ∀ session : Session, ∃ value next,
      session.Yields first value next ∧ session.Yields second value next := by
  -- Nothing is shown behind a whole tree, which closes it.
  have closes : Closes [] := by simp [Closes]
  have shapes : tree.shape = other.shape :=
    ((legible_of_parse parsed).shape_eq (legible_of_parse otherParsed) closes closes
      (by rw [same])).1
  refine ⟨shapes, fun session => ?_⟩
  -- Evaluation sees the shape only, so both trees come to the same.
  have outcomes : other.outcome session.bindings = tree.outcome session.bindings := by
    rw [← Expr.outcome_shape other, ← shapes, Expr.outcome_shape]
  exact ⟨(tree.outcome session.bindings).1, ⟨(tree.outcome session.bindings).2⟩,
    Session.yields_iff.mpr ⟨tree, parsed, rfl⟩,
    Session.yields_iff.mpr ⟨other, otherParsed, outcomes⟩⟩

/-- A variable may be called what an operation is shown with, and two gaps more change no value. -/
theorem shape_eq_of_spaced_call :
    ∃ tree other, parse "Add=-1*sin(Add)" = .ok tree ∧ parse "Add = -1*sin( Add )" = .ok other ∧
      tree ≠ other ∧ tree.display = "(Assignment Add (Multiply -1 (Sin (Parenthesized Add))))" ∧
      tree.shape = other.shape := by
  have shown : (parse "Add=-1*sin(Add)").map Expr.display =
      .ok "(Assignment Add (Multiply -1 (Sin (Parenthesized Add))))" := by decide +kernel
  have otherShown : (parse "Add = -1*sin( Add )").map Expr.display =
      .ok "(Assignment Add (Multiply -1 (Sin (Parenthesized Add))))" := by decide +kernel
  -- The spans differ, since one line has gaps that the other one has not.
  have apart : parse "Add=-1*sin(Add)" ≠ parse "Add = -1*sin( Add )" := by decide +kernel
  cases parsed : parse "Add=-1*sin(Add)" with
  | error => simp [parsed, Except.map] at shown
  | ok tree =>
    cases otherParsed : parse "Add = -1*sin( Add )" with
    | error => simp [otherParsed, Except.map] at otherShown
    | ok other =>
      rw [parsed] at shown apart
      rw [otherParsed] at otherShown apart
      have display := Except.ok.inj shown
      exact ⟨tree, other, rfl, rfl, fun same => apart (congrArg _ same), display,
        (shape_eq_of_display_eq parsed otherParsed
          (display.trans (Except.ok.inj otherShown).symm)).1⟩

end Reckon
