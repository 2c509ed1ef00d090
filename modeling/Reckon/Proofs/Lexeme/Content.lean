import Mathlib.Data.List.DropRight
import Reckon.Proofs.Grammar.Derivation
import Reckon.Proofs.Lexeme.Join
import Reckon.Proofs.Lexeme.Tiling

/-! The content of a line reaches to the end of its last lexeme. -/

namespace Reckon

/-- Nothing but gaps has no content. -/
theorem contentLength_cons_gap {c : Char} {rest : List Char} (gap : isGap c = true)
    (nothing : contentLength rest = 0) : contentLength (c :: rest) = 0 := by
  simp [contentLength, gap, nothing]

/-- A character counts when it is no gap or has content behind it. -/
theorem contentLength_cons {c : Char} {rest : List Char}
    (counts : isGap c = false ∨ contentLength rest ≠ 0) :
    contentLength (c :: rest) = c.utf8Size + contentLength rest := by
  -- Only a gap with nothing behind it is left out.
  rcases counts with solid | more
  · simp [contentLength, solid]
  · simp [contentLength, more]

/-- Characters that are no gaps are content, whatever follows them. -/
theorem contentLength_append {taken : List Char} (solid : ∀ c ∈ taken, isGap c = false)
    (rest : List Char) : contentLength (taken ++ rest) = byteLength taken + contentLength rest := by
  -- Each character is content by itself, and the induction counts them one by one.
  induction taken with
  | nil => simp
  | cons c taken ih =>
    have own := solid c List.mem_cons_self
    have later := ih fun d member => solid d (List.mem_cons_of_mem c member)
    rw [List.cons_append, contentLength_cons (.inl own), later, byteLength_cons, Nat.add_assoc]

/-- A gap at the end of a text is not content, and any other character is. -/
theorem contentLength_concat (text : List Char) (c : Char) :
    contentLength (text ++ [c]) =
      if isGap c then contentLength text else byteLength text + c.utf8Size := by
  -- The last character is reached from the front, so the induction is on what is before it.
  induction text with
  | nil =>
    by_cases gap : isGap c = true
    · simp [contentLength, gap]
    · simp [contentLength, gap]
  | cons d text ih =>
    have positive := c.utf8Size_pos
    by_cases gap : isGap c = true
    · rw [if_pos gap] at ih ⊢
      rw [List.cons_append, contentLength, contentLength, ih]
    · rw [if_neg gap] at ih ⊢
      -- With content at its end no character of the text is left out.
      have more : contentLength (text ++ [c]) ≠ 0 := by omega
      rw [List.cons_append, contentLength_cons (.inr more), ih, byteLength_cons, Nat.add_assoc]

/-- The content of a text is what is left of it without the gaps at its end. -/
theorem contentLength_eq (text : List Char) :
    contentLength text = byteLength (text.rdropWhile isGap) := by
  -- The characters are dropped from the end, so the induction goes from there.
  induction text using List.reverseRecOn with
  | nil => rfl
  | append_singleton text c ih =>
    rw [contentLength_concat, List.rdropWhile_concat]
    by_cases gap : isGap c = true
    · simp [gap, ih]
    · simp [gap]

/-- The content of a text reaches to the end of the last lexeme that the text splits into. -/
theorem Splits.add_contentLength {offset : Nat} {text : List Char} {lexemes : List Lexeme}
    (split : Splits offset text lexemes) :
    (lexemes = [] → contentLength text = 0) ∧
      ∀ last ∈ lexemes.getLast?, offset + contentLength text = last.span.stop := by
  -- Behind the first lexeme there is another one or no content.
  have behind : ∀ {first : Lexeme} {others : List Lexeme} {start rest : Nat},
      (others = [] → rest = 0) → (∀ last ∈ others.getLast?, start + rest = last.span.stop) →
      first.span.stop = start →
      ∀ last ∈ (first :: others).getLast?, start + rest = last.span.stop := by
    intro first others start rest nothing later stop last ends
    cases others with
    | nil =>
      obtain rfl : first = last := by simpa using ends
      have empty := nothing rfl
      omega
    | cons second others => exact later last (by simpa using ends)
  induction split with
  | done offset => simp [contentLength]
  | @gap offset c rest lexemes gap later ih =>
    refine ⟨fun empty => contentLength_cons_gap gap (ih.1 empty), ?_⟩
    intro last ends
    have start := later.offset_le last (List.mem_of_getLast? ends)
    have positive := later.length_pos last (List.mem_of_getLast? ends)
    have reach := ih.2 last ends
    -- A gap in front of a lexeme counts, since the lexeme is content behind it.
    have more : contentLength rest ≠ 0 := by
      simp only [Span.stop] at reach
      omega
    rw [contentLength_cons (.inr more)]
    omega
  | @unknown offset c rest lexemes solid nothing later ih =>
    refine ⟨by simp, ?_⟩
    intro last ends
    rw [contentLength_cons (.inl solid), ← Nat.add_assoc]
    exact behind ih.1 ih.2 (by simp) last ends
  | @known offset token taken rest lexemes found later ih =>
    refine ⟨by simp, ?_⟩
    intro last ends
    rw [contentLength_append (Token.matches_of_leading? found).solid, ← Nat.add_assoc]
    exact behind ih.1 ih.2 (by simp) last ends

/-- The content of a line reaches to the end of its last lexeme. -/
theorem contentLength_line (line : String) :
    contentLength line.toList =
      ((lexemesOf line).getLast?.map fun last => last.span.stop).getD 0 := by
  obtain ⟨nothing, reach⟩ := (splits_lexemesOf line).add_contentLength
  -- A line without lexemes has no content.
  cases ends : (lexemesOf line).getLast? with
  | none => exact nothing (List.getLast?_eq_none_iff.mp ends)
  | some last =>
    have stop := reach last ends
    rw [Option.map_some, Option.getD_some]
    omega

/-- Every lexeme of a line ends within the content. -/
theorem stop_le_contentLength {line : String} {lexeme : Lexeme} (member : lexeme ∈ lexemesOf line) :
    lexeme.span.stop ≤ contentLength line.toList := by
  obtain ⟨before, after, cut⟩ := List.append_of_mem member
  -- The lexeme ends no later than the last one, and that is where the content ends.
  have ordered : Ordered (lexeme :: after) :=
    (splits_lexemesOf line).ordered.sublist (by simp [cut])
  obtain ⟨last, ends⟩ : ∃ last, (lexeme :: after).getLast? = some last :=
    ⟨_, List.getLast?_eq_some_getLast (List.cons_ne_nil lexeme after)⟩
  have whole : (lexemesOf line).getLast? = some last := by
    rw [cut, List.getLast?_append_of_ne_nil _ (List.cons_ne_nil lexeme after), ends]
  rw [contentLength_line, whole]
  exact (ordered.first_le_last ends).2

/-- Gaps in front of a text are passed over. -/
theorem Gaps.splits_append_iff {before rest : List Char} (gaps : Gaps before) {offset : Nat}
    {lexemes : List Lexeme} :
    Splits offset (before ++ rest) lexemes ↔ Splits (offset + byteLength before) rest lexemes := by
  rw [splits_iff, splits_iff]
  -- They are passed one by one.
  induction before generalizing offset with
  | nil => rfl
  | cons c before ih =>
    have own := gaps c List.mem_cons_self
    rw [List.cons_append, lexemesFrom_gap offset own, byteLength_cons, ← Nat.add_assoc]
    exact ih fun d member => gaps d (List.mem_cons_of_mem c member)

/-- Gaps behind a text add nothing to its content. -/
theorem Gaps.contentLength_append {after : List Char} (gaps : Gaps after) (text : List Char) :
    contentLength (text ++ after) = contentLength text := by
  -- The gaps are dropped one by one, the last of them first.
  induction after generalizing text with
  | nil => rw [List.append_nil]
  | cons c after ih =>
    rw [List.append_cons, ih fun d member => gaps d (List.mem_cons_of_mem c member),
      contentLength_concat, if_pos (gaps c List.mem_cons_self)]

/-- A text that neither starts nor ends with a gap. -/
structure Trimmed (text : List Char) : Prop where
  head_solid : ∃ c rest, text = c :: rest ∧ isGap c = false
  last_solid : ∃ front c, text = front ++ [c] ∧ isGap c = false

/-- What starts with one text and ends with another is trimmed if both are. -/
theorem Trimmed.append {front back : List Char} (first : Trimmed front) (between : List Char)
    (last : Trimmed back) : Trimmed (front ++ (between ++ back)) := by
  obtain ⟨c, rest, rfl, starts⟩ := first.head_solid
  obtain ⟨others, d, rfl, ends⟩ := last.last_solid
  exact ⟨⟨c, _, rfl, starts⟩, ⟨c :: rest ++ (between ++ others), d, by simp, ends⟩⟩

/-- What a pattern of a lexeme matches is trimmed. -/
theorem Token.Matches.trimmed {token : Token} {text : List Char} (matched : token.Matches text) :
    Trimmed text := by
  -- A lexeme is not empty and has no gap in it, so neither end is one.
  obtain ⟨c, rest, starts⟩ := List.exists_cons_of_ne_nil matched.ne_nil
  obtain ⟨front, d, ends⟩ := (List.eq_nil_or_concat' text).resolve_left matched.ne_nil
  exact ⟨⟨c, rest, starts, matched.solid c (by simp [starts])⟩,
    ⟨front, d, ends, matched.solid d (by simp [ends])⟩⟩

/-- The content of a text that ends with a trimmed one is all of it. -/
theorem Trimmed.contentLength_append {text : List Char} (trimmed : Trimmed text)
    (before : List Char) : contentLength (before ++ text) = byteLength (before ++ text) := by
  obtain ⟨front, d, rfl, solid⟩ := trimmed.last_solid
  rw [← List.append_assoc, contentLength_concat, solid]
  simp [Nat.add_assoc]

/-- The range of the lexemes of a text is that of the text without the gaps around it. -/
theorem Splits.extent_eq {offset : Nat} {before text after : List Char} {lexemes : List Lexeme}
    (split : Splits offset (before ++ (text ++ after)) lexemes) (leading : Gaps before)
    (trimmed : Trimmed text) (trailing : Gaps after) :
    lexemes ≠ [] ∧ extent lexemes = ⟨offset + byteLength before, byteLength text⟩ := by
  have split := leading.splits_append_iff.mp split
  -- The content of the text reaches to the end of its last character.
  have content : contentLength (text ++ after) = byteLength text :=
    (trailing.contentLength_append text).trans (trimmed.contentLength_append [])
  obtain ⟨nothing, reach⟩ := split.add_contentLength
  obtain ⟨c, rest, starts, startSolid⟩ := trimmed.head_solid
  -- The first character is no gap, so the first lexeme starts with it.
  have first : ∃ first others, lexemes = first :: others ∧
      first.span.offset = offset + byteLength before := by
    rw [starts, List.cons_append] at split
    generalize same : c :: (rest ++ after) = whole at split
    cases split with
    | done => contradiction
    | gap gap later =>
      rw [(List.cons.inj same).1] at startSolid
      simp [gap] at startSolid
    | unknown solid nothing later => exact ⟨_, _, rfl, rfl⟩
    | known found later => exact ⟨_, _, rfl, rfl⟩
  obtain ⟨first, others, rfl, place⟩ := first
  obtain ⟨last, isLast⟩ : ∃ last, (first :: others).getLast? = some last :=
    ⟨_, List.getLast?_eq_some_getLast (List.cons_ne_nil first others)⟩
  have stop := reach last isLast
  refine ⟨by simp, ?_⟩
  simp only [extent, List.head?_cons, isLast, Span.between, place, Span.mk.injEq, true_and]
  omega

section Offset

variable {line : String} {taken rest : List Lexeme}

/-- A position in a line is within the content. -/
theorem offset_le_contentLength (cut : lexemesOf line = taken ++ rest) :
    Cursor.offset ⟨line, rest, 0⟩ ≤ contentLength line.toList := by
  cases rest with
  -- Behind the last lexeme the position is the end of the content.
  | nil => exact Nat.le_refl _
  | cons next others =>
    have inside : next ∈ lexemesOf line := by simp [cut]
    have stop := stop_le_contentLength inside
    simp only [Span.stop, Cursor.offset] at stop ⊢
    omega

/-- The lexemes in front of a position end there or before. -/
theorem stop_le_offset (cut : lexemesOf line = taken ++ rest) :
    ∀ lexeme ∈ taken, lexeme.span.stop ≤ Cursor.offset ⟨line, rest, 0⟩ := by
  intro lexeme member
  have ordered := (splits_lexemesOf line).ordered
  rw [cut] at ordered
  -- The position is where the next lexeme starts, or else where the content ends.
  cases rest with
  | nil => exact stop_le_contentLength (cut ▸ List.mem_append_left _ member)
  | cons next others =>
    exact (List.pairwise_append.mp ordered).2.2 lexeme member next List.mem_cons_self

/-- The lexemes behind a position start there or later. -/
theorem offset_le_offset (cut : lexemesOf line = taken ++ rest) :
    ∀ lexeme ∈ rest, Cursor.offset ⟨line, rest, 0⟩ ≤ lexeme.span.offset := by
  intro lexeme member
  have ordered := (splits_lexemesOf line).ordered
  rw [cut] at ordered
  cases rest with
  | nil => simp at member
  | cons next others =>
    -- The next lexeme starts at the position, and the others start behind its end.
    rcases List.mem_cons.mp member with rfl | later
    · exact Nat.le_refl _
    · have behind := (List.pairwise_append.mp ordered).2.1
      have order := (List.pairwise_cons.mp behind).1 lexeme later
      simp only [Span.stop, Cursor.offset] at order ⊢
      omega

/-- The lexemes in front of a position are those that start before it. -/
theorem countP_offset_lt (cut : lexemesOf line = taken ++ rest) :
    (lexemesOf line).countP (fun lexeme => lexeme.span.offset < Cursor.offset ⟨line, rest, 0⟩) =
      taken.length := by
  -- Those in front of the position have ended there and are not empty, and the others start later.
  have front : ∀ lexeme ∈ taken, lexeme.span.offset < Cursor.offset ⟨line, rest, 0⟩ := by
    intro lexeme member
    have positive := (splits_lexemesOf line).length_pos lexeme (cut ▸ List.mem_append_left _ member)
    have stop := stop_le_offset cut lexeme member
    simp only [Span.stop] at stop
    omega
  have back : ∀ lexeme ∈ rest, ¬ lexeme.span.offset < Cursor.offset ⟨line, rest, 0⟩ := by
    intro lexeme member
    have start := offset_le_offset cut lexeme member
    omega
  rw [cut, List.countP_append, List.countP_eq_length.mpr (by simpa using front),
    List.countP_eq_zero.mpr (by simpa using back), Nat.add_zero]

/-- A position in a line stands between two characters of it. -/
theorem exists_append_of_offset (cut : lexemesOf line = taken ++ rest) :
    ∃ front back, line.toList = front ++ back ∧
      byteLength front = Cursor.offset ⟨line, rest, 0⟩ := by
  cases rest with
  | nil =>
    -- At the end of the content the gaps at the end of the line are left.
    obtain ⟨back, same⟩ := List.rdropWhile_prefix isGap (l := line.toList)
    exact ⟨_, back, same.symm, (contentLength_eq line.toList).symm⟩
  | cons next others =>
    -- A lexeme starts between two characters.
    have inside : next ∈ lexemesOf line := by simp [cut]
    obtain ⟨front, after, stands, _⟩ := (splits_lexemesOf line).longest [] rfl next inside
    exact ⟨front, _, stands.line_eq, by simp [Cursor.offset, stands.span_eq]⟩

end Offset

end Reckon
