import Reckon.Lexeme
import Reckon.Text.ByteLaws
import Reckon.TokenLaws

/-! One step of splitting a text into lexemes, for each way in which the text can start. -/

namespace Reckon

/-- The characters that a lexeme has taken are passed over. -/
theorem lexemesFrom_taken (offset : Nat) (taken rest : List Char) :
    lexemesFrom taken.length offset (taken ++ rest) =
      lexemesFrom 0 (offset + byteLength taken) rest := by
  -- The count goes down and the offset goes up with each of them.
  induction taken generalizing offset with
  | nil => rfl
  | cons c taken ih =>
    rw [List.length_cons, List.cons_append, lexemesFrom, ih, byteLength_cons, Nat.add_assoc]

/-- A gap is passed over. -/
theorem lexemesFrom_gap (offset : Nat) {c : Char} (gap : isGap c = true) (rest : List Char) :
    lexemesFrom 0 offset (c :: rest) = lexemesFrom 0 (offset + c.utf8Size) rest := by
  simp [lexemesFrom, gap]

/-- A character that starts no lexeme is one by itself. -/
theorem lexemesFrom_none (offset : Nat) {c : Char} {rest : List Char} (solid : isGap c = false)
    (unknown : Token.leading? (c :: rest) = none) :
    lexemesFrom 0 offset (c :: rest) =
      Lexeme.ofChars none offset [c] :: lexemesFrom 0 (offset + c.utf8Size) rest := by
  simp [lexemesFrom, solid, unknown]

/-- The longest lexeme comes first, and splitting goes on right behind it. -/
theorem lexemesFrom_some (offset : Nat) {c : Char} {rest taken behind : List Char}
    {token : Token} (solid : isGap c = false) (cut : c :: rest = taken ++ behind)
    (found : Token.leading? (c :: rest) = some (token, taken)) :
    lexemesFrom 0 offset (c :: rest) =
      Lexeme.ofChars (some token) offset taken ::
        lexemesFrom 0 (offset + byteLength taken) behind := by
  -- The lexeme has a first character, which is the one that the splitting stands at.
  obtain ⟨occupied, _⟩ := Token.leading?_append found
  obtain ⟨first, others, rfl⟩ := List.exists_cons_of_ne_nil occupied
  obtain ⟨rfl, tail⟩ := List.cons.inj cut
  have remaining : lexemesFrom others.length (offset + c.utf8Size) rest =
      lexemesFrom 0 (offset + c.utf8Size + byteLength others) behind :=
    tail ▸ lexemesFrom_taken _ others behind
  simp [lexemesFrom, solid, found, remaining, Nat.add_assoc]

end Reckon
