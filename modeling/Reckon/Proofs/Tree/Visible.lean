import Reckon.CommandLine.Batch
import Reckon.Proofs.Tree.Display

/-! The characters that lexemes are made of, which make no line blank and break no line. -/

namespace Reckon

/-- Whether a character is one of those that ASCII has a sign for. -/
def IsVisible (c : Char) : Prop := 33 ≤ c.toNat ∧ c.toNat ≤ 126

/-- Whether there is a sign for a character is told by its number. -/
instance (c : Char) : Decidable (IsVisible c) :=
  inferInstanceAs (Decidable (33 ≤ c.toNat ∧ c.toNat ≤ 126))

/-- A sign is no white space. -/
theorem IsVisible.isBlank {c : Char} (visible : IsVisible c) : isBlank c = false := by
  obtain ⟨above, below⟩ := visible
  simp [Reckon.isBlank, blankRanges]
  omega

/-- A lexeme is made of signs. -/
theorem Token.Matches.visible {token : Token} {text : List Char} (matched : token.Matches text) :
    ∀ c ∈ text, IsVisible c := by
  -- Letters and digits are told by the ranges of their numbers.
  have digit {c : Char} (isDigit : c.isDigit = true) : IsVisible c := by
    have range := isDigit_iff.mp isDigit
    exact ⟨by omega, by omega⟩
  have letter {c : Char} (isLetter : c.isAlpha = true) : IsVisible c := by
    have range := isAlpha_iff.mp isLetter
    exact ⟨by omega, by omega⟩
  intro c member
  -- Several characters are letters, digits and points, and one character may be a symbol.
  by_cases several : 2 ≤ text.length
  · have whole := matched.not_breaks several c member
    simp only [breaks, Bool.not_eq_false', Bool.or_eq_true, beq_iff_eq] at whole
    rcases whole with (isLetter | isDigit) | rfl
    · exact letter isLetter
    · exact digit isDigit
    · decide
  · obtain ⟨d, rest, rfl, start⟩ := matched.head
    obtain rfl : rest = [] := by
      cases rest with
      | nil => rfl
      | cons _ _ => simp at several
    obtain rfl := List.mem_singleton.mp member
    rcases start with ⟨isDigit, _⟩ | ⟨isLetter, _⟩ | ⟨symbol, _⟩
    · exact digit isDigit
    · exact letter isLetter
    · unfold ofSymbol? at symbol
      split at symbol <;> first | decide | cases symbol

/-- A lexeme has a sign in it. -/
theorem Token.Matches.exists_visible {token : Token} {text : List Char}
    (matched : token.Matches text) : ∃ c ∈ text, IsVisible c := by
  obtain ⟨c, rest, rfl, _⟩ := matched.head
  exact ⟨c, List.mem_cons_self, matched.visible c List.mem_cons_self⟩

section Accepted

/-- Whatever writes a tree has a sign in it. -/
theorem Writes.exists_visible {rule : Rule} {text : List Char} {tree : Expr}
    (written : Writes rule text tree) : ∃ c ∈ text, IsVisible c := by
  -- A sign of one part is a sign of the whole.
  induction written with
  | alternative listed written ih => exact ih
  | literal named matched valued => exact matched.exists_visible
  | signed matched valued => exact ⟨'-', List.mem_cons_self, by decide⟩
  | reference matched => exact matched.exists_visible
  | parenthesized => exact ⟨'(', List.mem_cons_self, by decide⟩
  | call gaps written ih =>
    obtain ⟨c, among, visible⟩ := ih
    exact ⟨c, by simp [among], visible⟩
  | power leftWritten joins rightWritten ih | fold layer leftWritten joins among rightWritten ih =>
    obtain ⟨c, among, visible⟩ := ih
    exact ⟨c, List.mem_append_left _ among, visible⟩
  | assignment target joins written ih =>
    obtain ⟨c, among, visible⟩ := target.exists_visible
    exact ⟨c, List.mem_append_left _ among, visible⟩

/-- A line that is accepted has a sign in it. -/
theorem exists_visible_of_parse {line : String} {tree : Expr} (parsed : parse line = .ok tree) :
    ∃ c ∈ line.toList, IsVisible c := by
  obtain ⟨before, text, after, base, whole, _, _, written, _⟩ :=
    parse_eq_ok_iff_exists_written.mp parsed
  obtain ⟨c, among, visible⟩ : ∃ c ∈ text, IsVisible c := by
    cases written with
    | expression written => exact written.exists_visible
    | header trimmed signs =>
      -- A header starts with a minus sign.
      obtain ⟨c, rest, rfl, solid⟩ := trimmed.head_solid
      have minus := (signs c List.mem_cons_self).resolve_right (by simp [solid])
      exact ⟨c, List.mem_cons_self, minus ▸ by decide⟩
  exact ⟨c, by simp [whole, among], visible⟩

/-- A text is trimmed to nothing when it has nothing but white space. -/
theorem trimBlank_eq_nil {text : List Char} :
    trimBlank text = [] ↔ ∀ c ∈ text, isBlank c = true := by
  rw [trimBlank, List.reverse_eq_nil_iff, List.dropWhile_eq_nil_iff]
  constructor
  · intro rest c among
    -- What is dropped in front is white space, and so is all that is left then.
    rw [← List.takeWhile_append_dropWhile (p := isBlank) (l := text)] at among
    rcases List.mem_append.mp among with front | back
    · exact List.mem_takeWhile_imp front
    · exact rest c (List.mem_reverse.mpr back)
  · intro blank c left
    -- What is left of a text is a part of it.
    exact blank c ((List.dropWhile_suffix isBlank).mem (List.mem_reverse.mp left))

/-- A line that is accepted is not blank. -/
theorem isBlankLine_eq_false_of_parse {line : String} {tree : Expr}
    (parsed : parse line = .ok tree) : CommandLine.isBlankLine line = false := by
  obtain ⟨c, among, visible⟩ := exists_visible_of_parse parsed
  rw [CommandLine.isBlankLine, List.isEmpty_eq_false_iff, ne_eq, trimBlank_eq_nil]
  intro blank
  -- White space has no sign in it.
  exact Bool.false_ne_true (visible.isBlank.symm.trans (blank c among))

/-- A blank line is rejected. -/
theorem exists_error_of_isBlankLine {line : String}
    (blank : CommandLine.isBlankLine line = true) : ∃ error, parse line = .error error := by
  cases parsed : parse line with
  | error error => exact ⟨error, rfl⟩
  -- A tree would have been written with a sign, which no blank line has.
  | ok tree =>
    rw [isBlankLine_eq_false_of_parse parsed] at blank
    contradiction

end Accepted

section Shown

/-- Whether a text has nothing but signs and gaps, so that it stays in its line. -/
def IsInline (text : List Char) : Prop := ∀ c ∈ text, isGap c = true ∨ IsVisible c

/-- Signs stay in their line. -/
theorem IsInline.of_visible {text : List Char} (visible : ∀ c ∈ text, IsVisible c) :
    IsInline text :=
  fun c among => .inr (visible c among)

/-- A space stays in its line. -/
theorem isInline_space : IsInline [' '] := by simp [IsInline, isGap]

/-- Two texts in a row stay in their line if both do. -/
theorem isInline_append {front back : List Char} :
    IsInline (front ++ back) ↔ IsInline front ∧ IsInline back :=
  List.forall_mem_append

/-- No text of signs and gaps has a newline in it. -/
theorem IsInline.newline_notMem {text : List Char} (inline : IsInline text) : '\n' ∉ text := by
  intro among
  -- A newline is neither: it is no gap, and its number is too small for a sign.
  rcases inline '\n' among with gap | visible
  · contradiction
  · exact absurd visible.1 (by decide)

/-- A tree stays in its line if what is shown of it behind its heading does. -/
theorem Expr.isInline_display {tree : Expr} (inline : IsInline tree.contents) :
    IsInline tree.display.toList := by
  -- The list adds its parentheses, its heading and a space to what it contains.
  have opening : IsInline ['('] := .of_visible (List.forall_mem_singleton.mpr (by decide))
  have closing : IsInline [')'] := .of_visible (List.forall_mem_singleton.mpr (by decide))
  cases found : tree.heading? with
  | none => rwa [display_of_heading?_eq_none found]
  | some heading =>
    -- There are few headings, and the name of each is tested.
    have names : ∀ heading ∈ Heading.all,
        heading.name.toList.all (fun c => IsVisible c) = true := by decide
    have name : IsInline heading.name.toList := .of_visible fun c among =>
      of_decide_eq_true (List.all_eq_true.mp (names heading heading.mem_all) c among)
    rw [display_of_heading? found]
    exact isInline_append.mpr ⟨opening, isInline_append.mpr ⟨name,
      isInline_append.mpr ⟨isInline_space, isInline_append.mpr ⟨inline, closing⟩⟩⟩⟩

/-- A literal stays in its line. -/
theorem LiteralKind.Spells.isInline {kind : LiteralKind} {text : List Char}
    (spelled : kind.Spells text) : IsInline text := by
  -- What is visible breaks no line, and so is the sign.
  cases spelled with
  | plain matched => exact .of_visible matched.visible
  | signed matched =>
    have sign : IsVisible '-' := by decide
    exact .of_visible (List.forall_mem_cons.mpr ⟨sign, matched.visible⟩)

/-- A tree that is legible is shown in one line. -/
theorem Expr.Legible.isInline {tree : Expr} (legible : tree.Legible) :
    IsInline tree.display.toList := by
  -- Every child is shown in one line, and so is the list around the children.
  induction legible with
  | literal spelled valued => exact spelled.isInline
  | reference matched => exact .of_visible matched.visible
  | header signs =>
    -- A header is shown with its own minus signs and gaps.
    refine isInline_display fun c among => ?_
    rcases signs c among with rfl | gap
    · exact .inr (by decide)
    · exact .inl gap
  | assignment matched legible ih =>
    apply isInline_display
    have target := IsInline.of_visible matched.visible
    exact isInline_append.mpr ⟨target, isInline_append.mpr ⟨isInline_space, ih⟩⟩
  | operation leftLegible rightLegible leftIh rightIh =>
    apply isInline_display
    exact isInline_append.mpr ⟨leftIh, isInline_append.mpr ⟨isInline_space, rightIh⟩⟩
  | call legible ih | parenthesized legible ih => exact isInline_display ih

end Shown

end Reckon
