import Reckon.Proofs.Lexeme.Content

/-! A symbol with gaps around it, and lexemes that stand next to each other in a text. -/

namespace Reckon

/-- A character with any gaps around it, which keeps apart what stands on its two sides. -/
inductive Joint (c : Char) : List Char → Prop where
  | around {before after : List Char} (leading : Gaps before) (trailing : Gaps after) :
      Joint c (before ++ c :: after)

/-- A minus sign is all that its pattern matches. -/
theorem Token.matches_minus {text : List Char} : Matches .minus text ↔ text = ['-'] :=
  matches_symbol (show ofSymbol? '-' = some .minus from rfl)

namespace Joint

variable {c : Char} {joint : List Char} {token : Token}

/-- A joint is split into the lexeme that its character is. -/
theorem splits (joins : Joint c joint) (symbol : Token.ofSymbol? c = some token) (offset : Nat) :
    ∃ lexeme, lexeme.token = some token ∧ Splits offset joint [lexeme] := by
  obtain @⟨before, after, leading, trailing⟩ := joins
  -- The gaps in front of it are passed over, and those behind it are left over.
  have single := ((Token.matches_symbol symbol).mpr rfl).splits (offset + byteLength before)
  have whole := single.append (trailing.splits _) (trailing.apart [c])
  exact ⟨_, rfl, leading.splits_append_iff.mpr whole⟩

/-- What stands in front of a joint is apart from it. -/
theorem apart_left (joins : Joint c joint) (breaking : breaks c = true) (front back : List Char) :
    Apart front (joint ++ back) := by
  obtain @⟨before, after, leading, trailing⟩ := joins
  -- The first character is that of the joint itself, unless there are gaps in front of it.
  cases before with
  | nil => exact .of_head front _ breaking
  | cons gap before => exact .of_head front _ (breaks_of_gap (leading gap List.mem_cons_self))

/-- What stands behind a joint is apart from it. -/
theorem apart_right (joins : Joint c joint) (breaking : breaks c = true) (back : List Char) :
    Apart joint back := by
  obtain @⟨before, after, leading, trailing⟩ := joins
  -- The last character is that of the joint itself, unless there are gaps behind it.
  rcases List.eq_nil_or_concat' after with rfl | ⟨others, gap, rfl⟩
  · exact .of_last before back breaking
  · rw [← List.cons_append, ← List.append_assoc]
    exact .of_last _ back (breaks_of_gap (trailing gap (by simp)))

/-- Texts on the two sides of a joint are split one after the other, with its lexeme between. -/
theorem join (joins : Joint c joint) (symbol : Token.ofSymbol? c = some token) {offset : Nat}
    {front back : List Char} {former latter : List Lexeme} (first : Splits offset front former)
    (second : Splits (offset + byteLength (front ++ joint)) back latter) :
    ∃ lexeme, lexeme.token = some token ∧
      Splits offset (front ++ (joint ++ back)) (former ++ lexeme :: latter) := by
  -- Being a symbol, the character ends what is in front of it and starts what is behind it.
  have breaking := breaks_of_symbol symbol
  obtain ⟨lexeme, known, split⟩ := joins.splits symbol (offset + byteLength front)
  rw [byteLength_append, ← Nat.add_assoc] at second
  have behind := split.append second (joins.apart_right breaking back)
  exact ⟨lexeme, known, first.append behind (joins.apart_left breaking front back)⟩

end Joint

/-- The range of the lexemes of a trimmed text is that of the text. -/
theorem Splits.extent_of_trimmed {offset : Nat} {text : List Char} {lexemes : List Lexeme}
    (split : Splits offset text lexemes) (trimmed : Trimmed text) :
    extent lexemes = ⟨offset, byteLength text⟩ := by
  -- A trimmed text has no gaps around it, as one with empty gaps.
  have whole : Splits offset ([] ++ (text ++ [])) lexemes := by simpa using split
  exact (whole.extent_eq .nil trimmed .nil).2

/-- A lexeme between others stands in the text behind the gaps that the former ones leave. -/
theorem Splits.exists_joint {offset : Nat} {text : List Char} {former latter : List Lexeme}
    {sign : Lexeme} {token : Token} {c : Char} (split : Splits offset text (former ++ sign :: latter))
    (known : sign.token = some token) (symbol : Token.ofSymbol? c = some token) :
    ∃ front gap back, text = front ++ (gap ++ c :: back) ∧ Gaps gap ∧ Splits offset front former ∧
      Splits (offset + byteLength (front ++ (gap ++ [c]))) back latter := by
  -- The lexemes in front are split off, and then the one in the middle.
  obtain ⟨front, behind, rfl, firstSplit, secondSplit, _⟩ := split.exists_append
  obtain ⟨gap, back, rfl, gaps, place, matched, later⟩ := secondSplit.exists_cons
  -- The text of the lexeme is its symbol alone.
  have alone := (Token.matches_symbol symbol).mp (matched token known)
  rw [alone] at later
  refine ⟨front, gap, back, by simp [alone], gaps, firstSplit, ?_⟩
  simpa [Nat.add_assoc] using later

/-- A minus sign and the digits right behind it have no gap between them in the text. -/
theorem Splits.exists_glued {offset : Nat} {text : List Char} {minus digits : Lexeme}
    (split : Splits offset text [minus, digits]) (sign : minus.token = some .minus)
    (token : digits.token = some .decimal) (glued : digits.span.offset = minus.span.stop) :
    ∃ before after, text = before ++ ('-' :: digits.text.toList ++ after) ∧ Gaps before ∧
      Gaps after ∧ minus.text ++ digits.text = String.ofList ('-' :: digits.text.toList) ∧
      Token.Matches .decimal digits.text.toList ∧
      minus.span.cover digits.span =
        ⟨offset + byteLength before, byteLength ('-' :: digits.text.toList)⟩ := by
  obtain ⟨before, behind, rfl, leading, signPlace, isSign, rest⟩ := split.exists_cons
  obtain ⟨gap, after, rfl, gaps, place, matched, trailing⟩ := rest.exists_cons
  -- The digits start where the sign ends, so there is no gap between them.
  obtain rfl : gap = [] := by
    simp only [place, signPlace, Span.stop] at glued
    exact byteLength_eq_zero.mp (by omega)
  -- The pattern of the sign matches one character.
  have alone : minus.text.toList = ['-'] := Token.matches_minus.mp (isSign _ sign)
  refine ⟨before, after, by simp [alone], leading, trailing.gaps, ?_, matched _ token, ?_⟩
  · rw [← String.toList_inj, String.toList_append, alone, String.toList_ofList]
    rfl
  · simp only [signPlace, place, alone, Span.cover, Span.between, Span.stop, byteLength_nil,
      byteLength_cons, Span.mk.injEq]
    omega

end Reckon
