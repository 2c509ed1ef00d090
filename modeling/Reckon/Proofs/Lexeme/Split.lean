import Reckon.LexemeLaws
import Reckon.Proofs.Lexeme.LongestMatch

/-! The lexemes of a text as a relation that takes one gap or one lexeme at a time. -/

namespace Reckon

/-- The lexemes that a text which starts at a byte offset is split into, from left to right. -/
inductive Splits : Nat → List Char → List Lexeme → Prop where
  | done (offset : Nat) : Splits offset [] []
  | gap {offset : Nat} {c : Char} {rest : List Char} {lexemes : List Lexeme}
      (gap : isGap c = true) (later : Splits (offset + c.utf8Size) rest lexemes) :
      Splits offset (c :: rest) lexemes
  | unknown {offset : Nat} {c : Char} {rest : List Char} {lexemes : List Lexeme}
      (solid : isGap c = false) (nothing : Token.leading? (c :: rest) = none)
      (later : Splits (offset + c.utf8Size) rest lexemes) :
      Splits offset (c :: rest) (.ofChars none offset [c] :: lexemes)
  | known {offset : Nat} {token : Token} {taken rest : List Char} {lexemes : List Lexeme}
      (found : Token.leading? (taken ++ rest) = some (token, taken))
      (later : Splits (offset + byteLength taken) rest lexemes) :
      Splits offset (taken ++ rest) (.ofChars (some token) offset taken :: lexemes)

/-- A lexeme ends behind its characters. -/
@[simp] theorem Lexeme.stop_ofChars (token : Option Token) (offset : Nat) (taken : List Char) :
    (ofChars token offset taken).span.stop = offset + byteLength taken := rfl

/-- The characters of a lexeme that is split off are those it was made of. -/
@[simp] theorem Lexeme.toList_ofChars (token : Option Token) (offset : Nat) (taken : List Char) :
    (ofChars token offset taken).text.toList = taken := String.toList_ofList

/-- What is taken as a lexeme has a first character, and no gap there. -/
theorem exists_cons_of_leading? {text taken : List Char} {token : Token}
    (found : Token.leading? text = some (token, taken)) :
    ∃ c others, taken = c :: others ∧ isGap c = false := by
  -- What is taken matches a pattern, and no pattern of a lexeme starts with a gap.
  have matched := Token.matches_of_leading? found
  obtain ⟨c, others, rfl, _⟩ := matched.head
  exact ⟨c, others, rfl, matched.head_solid⟩

/-- Splitting a text gives lexemes that it splits into. -/
theorem splits_lexemesFrom (text : List Char) (offset : Nat) :
    Splits offset text (lexemesFrom 0 offset text) := by
  -- A lexeme may take many characters at once, so the induction is on the length of the text.
  induction length : text.length using Nat.strong_induction_on generalizing text offset with
  | h count ih =>
    cases text with
    | nil => exact .done offset
    | cons c rest =>
      have shorter : rest.length < count := by simp [← length]
      -- Either a gap is passed, or a lexeme is taken, with or without a kind.
      by_cases gap : isGap c = true
      · rw [lexemesFrom_gap offset gap]
        exact .gap gap (ih _ shorter rest _ rfl)
      · have solid : isGap c = false := by simpa using gap
        cases found : Token.leading? (c :: rest) with
        | none =>
          rw [lexemesFrom_none offset solid found]
          exact .unknown solid found (ih _ shorter rest _ rfl)
        | some result =>
          obtain ⟨token, taken⟩ := result
          obtain ⟨occupied, behind, cut⟩ := Token.leading?_append found
          rw [lexemesFrom_some offset solid cut found, cut]
          have counts := congrArg List.length cut
          have positive := List.length_pos_iff.mpr occupied
          simp only [List.length_append, List.length_cons] at counts length
          -- A lexeme takes at least one character, so what is left is shorter.
          exact .known (cut ▸ found) (ih _ (by omega) behind _ rfl)

/-- A text splits into the lexemes that splitting gives and into no others. -/
theorem splits_iff {offset : Nat} {text : List Char} {lexemes : List Lexeme} :
    Splits offset text lexemes ↔ lexemes = lexemesFrom 0 offset text := by
  constructor
  · intro split
    -- Each step of the relation is one of the splitting.
    induction split with
    | done offset => rfl
    | gap gap later ih => rw [lexemesFrom_gap _ gap, ih]
    | unknown solid nothing later ih => rw [lexemesFrom_none _ solid nothing, ih]
    | known found later ih =>
      obtain ⟨c, others, rfl, solid⟩ := exists_cons_of_leading? found
      rw [List.cons_append] at found ⊢
      rw [lexemesFrom_some _ solid rfl found, ih]
  · intro same
    exact same ▸ splits_lexemesFrom text offset

/-- The lexemes of a line are those that it splits into from its start. -/
theorem splits_lexemesOf (line : String) : Splits 0 line.toList (lexemesOf line) :=
  splits_lexemesFrom line.toList 0

/-- No lexeme stands in front of the text that it is split from. -/
theorem Splits.offset_le {offset : Nat} {text : List Char} {lexemes : List Lexeme}
    (split : Splits offset text lexemes) : ∀ lexeme ∈ lexemes, offset ≤ lexeme.span.offset := by
  -- The first lexeme starts at the offset, and the offset only grows.
  induction split with
  | done offset => simp
  | gap gap later ih =>
    intro lexeme member
    exact Nat.le_of_add_right_le (ih lexeme member)
  | unknown solid nothing later ih =>
    intro lexeme member
    rcases List.mem_cons.mp member with rfl | member
    · exact le_rfl
    · exact Nat.le_of_add_right_le (ih lexeme member)
  | known found later ih =>
    intro lexeme member
    rcases List.mem_cons.mp member with rfl | member
    · exact le_rfl
    · exact Nat.le_of_add_right_le (ih lexeme member)

/-- Lexemes stand one behind the other. -/
theorem Splits.ordered {offset : Nat} {text : List Char} {lexemes : List Lexeme}
    (split : Splits offset text lexemes) :
    lexemes.Pairwise fun left right => left.span.stop ≤ right.span.offset := by
  -- The text behind a lexeme starts where the lexeme ends.
  induction split with
  | done offset => exact .nil
  | gap gap later ih => exact ih
  | unknown solid nothing later ih => exact .cons later.offset_le ih
  | known found later ih => exact .cons later.offset_le ih

/-- Every lexeme takes at least one byte. -/
theorem Splits.length_pos {offset : Nat} {text : List Char} {lexemes : List Lexeme}
    (split : Splits offset text lexemes) : ∀ lexeme ∈ lexemes, 0 < lexeme.span.length := by
  -- Every lexeme has a first character, and that has a byte at least.
  induction split with
  | done offset => simp
  | gap gap later ih => exact ih
  | @unknown _ c _ _ solid nothing later ih =>
    intro lexeme member
    rcases List.mem_cons.mp member with rfl | member
    · exact Nat.add_pos_left c.utf8Size_pos _
    · exact ih lexeme member
  | known found later ih =>
    intro lexeme member
    rcases List.mem_cons.mp member with rfl | member
    · obtain ⟨c, others, rfl, _⟩ := exists_cons_of_leading? found
      exact Nat.add_pos_left c.utf8Size_pos _
    · exact ih lexeme member

end Reckon
