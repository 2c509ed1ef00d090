import Reckon.Proofs.Cursor.CheckedRun
import Reckon.Text.LineLaws

/-! Errors below their sources, where what is counted in bytes is pointed at in characters. -/

namespace Reckon

/-- The offsets at which the characters of a text end, one for each of its beginnings. -/
def characterEnds (text : List Char) : List Nat := text.inits.tail.map byteLength

/-- The line that points at some characters behind others, with two spaces for the prompt. -/
def pointer (skipped marked : Nat) : String :=
  String.ofList (' ' :: ' ' :: List.replicate skipped ' ' ++ List.replicate marked '~' ++ ['^'])

section Columns

/-- The first character ends behind its own bytes, and the others end so much further on. -/
theorem characterEnds_cons (c : Char) (rest : List Char) :
    characterEnds (c :: rest) = c.utf8Size :: (characterEnds rest).map (c.utf8Size + ·) := by
  -- The beginnings of a longer text are those of the rest with the character in front.
  have first : rest.inits = [] :: rest.inits.tail := by cases rest <;> simp
  rw [characterEnds, characterEnds, List.inits_cons, List.tail_cons, List.map_map, first]
  simp [Function.comp_def]

/-- The column of an offset is the number of characters that end at or before it. -/
theorem columnAt_eq_countP (text : List Char) (offset : Nat) :
    columnAt text offset = (characterEnds text).countP fun stop => stop ≤ offset := by
  induction text generalizing offset with
  | nil => rfl
  | cons c rest ih =>
    rw [columnAt, characterEnds_cons, List.countP_cons, List.countP_map]
    by_cases fits : c.utf8Size ≤ offset
    · -- Behind the first character the others are counted up to what is left of the offset.
      have further : ∀ stop, c.utf8Size + stop ≤ offset ↔ stop ≤ offset - c.utf8Size := by omega
      simp [fits, ih, Function.comp_def, further]
    · -- If the first character does not end in time, none of the others does.
      have later : ∀ stop, ¬ c.utf8Size + stop ≤ offset := by omega
      simp [fits, Function.comp_def, later]

/-- Between two offsets there end as many characters as the columns are apart. -/
theorem columnAt_add (text : List Char) (offset length : Nat) :
    columnAt text (offset + length) = columnAt text offset +
      (characterEnds text).countP fun stop => offset < stop ∧ stop ≤ offset + length := by
  rw [columnAt_eq_countP, columnAt_eq_countP]
  -- A character that ends at or before the second offset ends on one side of the first.
  induction characterEnds text with
  | nil => rfl
  | cons stop stops ih =>
    simp only [List.countP_cons, ih, decide_eq_true_eq]
    split_ifs <;> omega

/-- Further on in a text no column is smaller. -/
theorem monotone_columnAt (text : List Char) : Monotone (columnAt text) := by
  intro offset later ordered
  rw [columnAt_eq_countP, columnAt_eq_countP]
  -- Whatever ends at or before the earlier offset does so for the later one.
  apply List.countP_mono_left
  intro stop _ counted
  exact decide_eq_true ((of_decide_eq_true counted).trans ordered)

/-- At the end of a text, and past it, all of the characters count. -/
theorem columnAt_of_byteLength_le {text : List Char} {offset : Nat}
    (reaches : byteLength text ≤ offset) : columnAt text offset = text.length := by
  -- Every character ends at or before the offset, so each of them counts.
  induction text generalizing offset with
  | nil => rfl
  | cons c rest ih =>
    rw [byteLength_cons] at reaches
    rw [columnAt, if_pos (by omega), ih (by omega), List.length_cons]

/-- The caret stands behind everything that is pointed at. -/
theorem idxOf_pointer (skipped marked : Nat) :
    (pointer skipped marked).toList.idxOf '^' = 2 + (skipped + marked) := by
  -- In front of the caret there are only spaces and tildes.
  have front : '^' ∉ ' ' :: ' ' :: List.replicate skipped ' ' ++ List.replicate marked '~' := by
    simp [List.mem_replicate]
  rw [pointer, String.toList_ofList, List.idxOf_append_of_notMem front]
  simp
  omega

/-- An error is shown on two lines, the first of which points at columns. -/
theorem textLines_diagnostic (error : SyntaxError) (source : String) :
    textLines (error.diagnostic source) =
      [pointer (columnAt source.toList error.offset)
          (columnAt source.toList (error.offset + error.length) -
            columnAt source.toList error.offset),
        "  Syntax error while parsing " ++ error.rule.name] := by
  rw [SyntaxError.diagnostic]
  generalize columnAt source.toList error.offset = first
  generalize columnAt source.toList (error.offset + error.length) - first = marked
  -- The two lines are what is in front of the newline and what is behind it.
  have cut : ("  " ++ String.ofList (List.replicate first ' ' ++ List.replicate marked '~') ++
      "^\n  Syntax error while parsing " ++ error.rule.name).toList =
        (pointer first marked).toList ++
          '\n' :: ("  Syntax error while parsing " ++ error.rule.name).toList := by
    simp [pointer]
  have inPointer (c : Char) (other : c ≠ ' ' ∧ c ≠ '~' ∧ c ≠ '^') :
      c ∉ (pointer first marked).toList := by
    simp [pointer, List.mem_replicate, other]
  have inName : '\n' ∉ ("  Syntax error while parsing " ++ error.rule.name).toList := by
    rw [String.toList_append, List.mem_append, not_or]
    refine ⟨by decide +kernel, ?_⟩
    cases error.rule <;> decide +kernel
  -- The only newline is the one behind the caret, and there is no return in front of it.
  rw [textLines, cut, splitLines_append_newline _ (inPointer '\n' (by decide)),
    dropReturn_of_notMem (inPointer '\r' (by decide)),
    splitLines_of_notMem inName (by simp), List.map_cons, List.map_singleton,
    String.ofList_toList, String.ofList_toList]

end Columns

/-- What is shown of an error below any source, whether or not it is one of that source. -/
structure PointsAt (source : String) (error : SyntaxError) : Prop where
  /-- The first line points at the characters that end in the range of the error. -/
  lines : textLines (error.diagnostic source) =
    [pointer ((characterEnds source.toList).countP fun stop => stop ≤ error.offset)
        ((characterEnds source.toList).countP fun stop =>
          error.offset < stop ∧ stop ≤ error.offset + error.length),
      "  Syntax error while parsing " ++ error.rule.name]
  /-- The same is shown where columns are told by cutting the source between two characters. -/
  checked : error.checkedDiagnostic? source = some (error.diagnostic source)

/-- What is shown of an error below the line that it was reported for. -/
structure Underlines (line : String) (error : SyntaxError) : Prop where
  /-- The range of the error is what is left of the content, and that is what is pointed at. -/
  content : ∃ front back, line.toList.rdropWhile isGap = front ++ back ∧
    byteLength front = error.offset ∧ byteLength back = error.length ∧
    textLines (error.diagnostic line) = [pointer front.length back.length,
      "  Syntax error while parsing " ++ error.rule.name]
  /-- The caret stands behind the content, wherever the error is. -/
  caret : ((textLines (error.diagnostic line)).map fun shown => shown.toList.idxOf '^').head? =
    some (2 + (line.toList.rdropWhile isGap).length)

/-- Every error points at some characters of every source. -/
theorem pointsAt (source : String) (error : SyntaxError) : PointsAt source error := by
  refine ⟨?_, checkedDiagnostic?_eq error source⟩
  -- The columns of both ends are counts, of which the second adds to the first.
  rw [textLines_diagnostic, columnAt_add, Nat.add_sub_cancel_left, columnAt_eq_countP]

/-- An error whose range is what is left of the content underlines just that. -/
theorem underlines_of_content {line : String} {error : SyntaxError}
    (content : ∃ front back, line.toList.rdropWhile isGap = front ++ back ∧
      byteLength front = error.offset ∧ byteLength back = error.length) :
    Underlines line error := by
  obtain ⟨front, back, whole, offset, length⟩ := content
  obtain ⟨trailing, text⟩ : line.toList.rdropWhile isGap <+: line.toList :=
    List.rdropWhile_prefix isGap _
  rw [whole] at text
  -- Both ends of the range stand between two characters of the line.
  have start : columnAt line.toList error.offset = front.length := by
    rw [← offset, ← text, List.append_assoc, columnAt_append]
  have stop : columnAt line.toList (error.offset + error.length) = front.length + back.length := by
    rw [← offset, ← length, ← byteLength_append, ← text, columnAt_append, List.length_append]
  have lines := textLines_diagnostic error line
  rw [start, stop, Nat.add_sub_cancel_left] at lines
  refine ⟨⟨front, back, whole, offset, length, lines⟩, ?_⟩
  rw [lines, List.map_cons, List.head?_cons, idxOf_pointer, whole, List.length_append]

/-- Whatever is reported at a position in a line underlines what is left of the content there. -/
theorem Cursor.Placed.underlines {line : String} {cursor : Cursor} (placed : cursor.Placed line)
    {action : Action} {error : SyntaxError}
    (reported : (cursor.perform action).1.error? = some error) : Underlines line error := by
  -- The error is that of a rule where the action ends, which is in the line as well.
  obtain ⟨rule, rfl⟩ := Cursor.exists_error_eq reported
  exact underlines_of_content ((placed.perform action).1.exists_content rule)

/-- The error of a line that is rejected is reported by matching the line from its start. -/
theorem error?_perform_session {line : String} {error : SyntaxError}
    (rejected : parse line = .error error) :
    ((Cursor.ofLine line).perform (.matching .session)).1.error? = some error := by
  -- Parsing is that match, from the first lexeme and with all levels free.
  have ran : Entry.session.run? (Cursor.ofLine line) =
      some (.error error, (Cursor.ofLine line).session.2) := congrArg some (Prod.ext rejected rfl)
  rw [Cursor.perform, ran]
  rfl

/--
What is pointed at below a source is the range of an error in characters.

For any error, be it past the end or inside of a character, those are the characters that end in
its range. For an error that a line is rejected with, or that is reported anywhere in it, they are
the rest of its content.
-/
theorem diagnostics_line_up :
    (∀ source error, PointsAt source error) ∧
    (∀ text, Monotone (columnAt text) ∧ ∀ offset, byteLength text ≤ offset →
      columnAt text offset = text.length) ∧
    (∀ line error, parse line = .error error → Underlines line error) ∧
    ∀ line history action error,
      (((Cursor.ofLine line).after history).perform action).1.error? = some error →
        Underlines line error := by
  refine ⟨pointsAt, fun text => ⟨monotone_columnAt text, ?_⟩, ?_, ?_⟩
  · intro offset reaches
    exact columnAt_of_byteLength_le reaches
  · -- The whole line is matched from its start, which is a position like any other.
    intro line error rejected
    exact (Cursor.placed_ofLine line).underlines (error?_perform_session rejected)
  · intro line history action error reported
    exact ((Cursor.placed_ofLine line).after history).underlines reported

/-- Characters of several bytes stand in front of an error and in its range, and gaps behind. -/
theorem diagnostics_line_up_wide :
    PointsAt "é日𝄞" ⟨.atom, 1, 7⟩ ∧
    textLines (SyntaxError.diagnostic ⟨.atom, 1, 7⟩ "é日𝄞") =
      ["  ~~^", "  Syntax error while parsing Atom"] ∧
    Monotone (columnAt "é日𝄞".toList) ∧ columnAt "é日𝄞".toList 9 = 3 ∧
    parse "é + 日𝄞 \t" = .error ⟨.atom, 0, 12⟩ ∧ Underlines "é + 日𝄞 \t" ⟨.atom, 0, 12⟩ ∧
    Underlines "é + 日𝄞 \t" ⟨.session, 5, 7⟩ := by
  obtain ⟨general, columns, rejected, reported⟩ := diagnostics_line_up
  have first : parse "é + 日𝄞 \t" = .error ⟨.atom, 0, 12⟩ := by decide +kernel
  refine ⟨general _ _, by decide +kernel, (columns _).1, (columns _).2 9 (by decide), first,
    rejected _ _ first, ?_⟩
  -- The second character that no lexeme starts with is behind the first one and the sign.
  exact reported _ [.take, .take] (.error .session) _ (by decide +kernel)

end Reckon
