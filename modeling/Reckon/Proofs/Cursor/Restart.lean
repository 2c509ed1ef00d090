import Reckon.Proofs.Cursor.Run
import Reckon.Proofs.Grammar.Shifting
import Reckon.Proofs.Lexeme.Content

/-! Matching in the middle of a line is matching at the start of what is left of the line. -/

namespace Reckon

/-- The error a number of bytes further on. -/
def SyntaxError.shift (distance : Nat) (error : SyntaxError) : SyntaxError :=
  { error with offset := error.offset + distance }

/-- A tree or an error a number of bytes further on. -/
def shiftResult (distance : Nat) : Except SyntaxError Expr → Except SyntaxError Expr
  | .ok tree => .ok (tree.shift distance)
  | .error error => .error (error.shift distance)

/-- The same lexemes and levels in a line that goes on with the cursor's from some offset on. -/
def Cursor.within (line : String) (distance : Nat) (cursor : Cursor) : Cursor :=
  ⟨line, cursor.rest.map (Lexeme.shift distance), cursor.depth⟩

/-- A text that starts further on splits into lexemes that are further on. -/
theorem Splits.shift {offset : Nat} {text : List Char} {lexemes : List Lexeme}
    (split : Splits offset text lexemes) (distance : Nat) :
    Splits (offset + distance) text (lexemes.map (Lexeme.shift distance)) := by
  -- Each step takes the same characters, and the offset stays ahead by the distance.
  induction split with
  | done offset => exact .done _
  | gap gap later ih => exact .gap gap (Nat.add_right_comm _ _ _ ▸ ih)
  | unknown solid nothing later ih =>
    exact .unknown solid nothing (Nat.add_right_comm _ _ _ ▸ ih)
  | known found later ih => exact .known found (Nat.add_right_comm _ _ _ ▸ ih)

/-- A line that goes on with a text from some offset on, up to the same end of the content. -/
structure GoesOn (line : String) (distance : Nat) (back : String) : Prop where
  cut : ∃ front, line.toList = front ++ back.toList ∧ byteLength front = distance
  content : contentLength line.toList = distance + contentLength back.toList

namespace GoesOn

variable {line back : String} {distance : Nat} (goesOn : GoesOn line distance back)

include goesOn

/-- A range of the text is a range of the line further on. -/
theorem slice?_shift (span : Span) :
    slice? line.toList (span.shift distance).offset (span.shift distance).length =
      slice? back.toList span.offset span.length := by
  obtain ⟨front, cut, rfl⟩ := goesOn.cut
  -- To drop the front and then some bytes is to drop both at once.
  rw [Span.offset_shift, Span.length_shift, slice?, slice?, cut, Nat.add_comm,
    dropBytes?_append_add]

/-- A position in the line is further on than it is in the text. -/
theorem offset_within (rest : List Lexeme) (depth other : Nat) :
    Cursor.offset ⟨line, rest.map (Lexeme.shift distance), depth⟩ =
      Cursor.offset ⟨back, rest, other⟩ + distance := by
  -- Without lexemes the position is at the end of the content, otherwise at the next of them.
  cases rest with
  | nil => exact goesOn.content.trans (Nat.add_comm _ _)
  | cons next rest => rfl

/-- A rule that fails in the line fails for the same bytes as in the text. -/
theorem error_within (rest : List Lexeme) (depth other : Nat) (rule : Rule) :
    Cursor.error ⟨line, rest.map (Lexeme.shift distance), depth⟩ rule =
      (Cursor.error ⟨back, rest, other⟩ rule).shift distance := by
  simp only [Cursor.error, SyntaxError.shift, goesOn.offset_within rest depth other,
    goesOn.content, SyntaxError.mk.injEq, true_and]
  -- What is reported reaches as far as to the content, which is as much further on.
  omega

/-- What comes of a match is settled in the line as in the text. -/
theorem settle_within {cursor : Cursor} (source : cursor.source = back) (outcome : Outcome) :
    (cursor.within line distance).settle (outcome.shift distance) =
      (shiftResult distance (cursor.settle outcome).1,
        (cursor.settle outcome).2.within line distance) := by
  subst source
  -- Only a failure is worded from the line, and with the levels that it left open.
  cases outcome with
  | matched tree rest => rfl
  | failed rule rest opened =>
    simp only [Outcome.shift, Cursor.settle, Cursor.within, shiftResult]
    rw [goesOn.error_within rest _ (cursor.depth + opened)]

/-- A rule says of the lexemes in the line what it says of those in the text. -/
theorem outcome?_shift (entry : Entry) (lexemes : List Lexeme) (free : Nat) :
    entry.outcome? line (lexemes.map (Lexeme.shift distance)) free =
      (entry.outcome? back lexemes free).map (Outcome.shift distance) := by
  -- Every rule is put together from powers, which do not look at where lexemes stand.
  have power := Grammar.moves_power distance free
  have expression := Grammar.moves_expressionOver power
  cases entry with
  | expression => exact congrArg some (expression lexemes)
  | assignment => exact Grammar.assignmentOver?_shift power lexemes
  | additive => exact congrArg some (Grammar.moves_additiveOver power lexemes)
  | multiplicative => exact congrArg some (Grammar.moves_chain _ power lexemes)
  | power => exact congrArg some (power lexemes)
  | session =>
    refine congrArg some ?_
    simp only [Grammar.session, Grammar.headerSpan?_shift]
    cases Grammar.headerSpan? lexemes with
    | some span =>
      -- The text of a header is cut from the line, where it stands further on.
      simp only [Option.map_some, goesOn.slice?_shift]
      rfl
    | none =>
      simp only [Option.map_none, Grammar.expression, expression lexemes]
      refine Outcome.shift_andThen _ fun tree rest => ?_
      cases rest <;> rfl

/-- A match in the line gives what the match in the text gives, further on. -/
theorem run?_within {cursor : Cursor} (source : cursor.source = back) (entry : Entry) :
    entry.run? (cursor.within line distance) =
      (entry.run? cursor).map fun found =>
        (shiftResult distance found.1, found.2.within line distance) := by
  -- What comes of the rule is the same but for the offsets, and settling moves with them.
  have said := goesOn.outcome?_shift entry cursor.rest cursor.free
  rw [Entry.run?_eq, Entry.run?_eq, Entry.runWith?, Entry.runWith?, source, Option.map_map]
  show (entry.outcome? line (cursor.rest.map _) cursor.free).map _ = _
  rw [said, Option.map_map]
  exact congrArg (Option.map · _) (funext (goesOn.settle_within source))

end GoesOn

namespace Cursor

variable {line : String} {cursor : Cursor}

/-- The line goes on from a position with the text that its lexemes are split from. -/
theorem Placed.exists_back (placed : cursor.Placed line) :
    ∃ back, dropBytes? cursor.offset line.toList = some back ∧
      GoesOn line cursor.offset (String.ofList back) ∧
      cursor.rest = (lexemesOf (String.ofList back)).map (Lexeme.shift cursor.offset) := by
  obtain ⟨source, rest, depth⟩ := cursor
  obtain rfl : source = line := placed.source_eq
  obtain ⟨taken, cut⟩ := placed.part
  obtain ⟨front, back, same, bytes⟩ := exists_append_of_offset cut.symm
  have bytes : byteLength front = offset ⟨source, rest, depth⟩ := bytes
  -- The lexemes in front of the position end there, and the others start behind it.
  have whole := splits_lexemesOf source
  rw [same, ← cut] at whole
  have ended : ∀ lexeme ∈ taken, lexeme.span.stop ≤ 0 + byteLength front := by
    rw [Nat.zero_add, bytes]
    exact stop_le_offset cut.symm
  have starts : ∀ lexeme ∈ rest, 0 + byteLength front ≤ lexeme.span.offset := by
    rw [Nat.zero_add, bytes]
    exact offset_le_offset cut.symm
  have split := (whole.divide ended starts).2
  -- The text behind splits into lexemes of its own, which are further on in the line.
  have again := (splits_lexemesOf (String.ofList back)).shift (byteLength front)
  rw [String.toList_ofList] at again
  refine ⟨back, by rw [same, ← bytes, dropBytes?_append], ⟨⟨front, by simpa, bytes⟩, ?_⟩, ?_⟩
  · -- The content ends where the last of the lexemes does, or else right here.
    obtain ⟨nothing, reach⟩ := split.add_contentLength
    rw [String.toList_ofList]
    cases ends : rest.getLast? with
    | none =>
      obtain rfl := List.getLast?_eq_none_iff.mp ends
      rw [nothing rfl]
      rfl
    | some last =>
      have last_eq : (lexemesOf source).getLast? = some last := by
        rw [← cut, List.getLast?_append, ends]
        rfl
      rw [contentLength_line, last_eq, ← bytes]
      simpa using (reach last ends).symm
  · rw [← bytes]
    exact (splits_iff.mp split).trans (splits_iff.mp again).symm

/-- As many levels as are free are all opened. -/
theorem openLevels_eq (cursor : Cursor) (rule : Rule) {times : Nat}
    (within : cursor.depth + times ≤ levelLimit) :
    cursor.openLevels rule times =
      (times, none, { cursor with depth := cursor.depth + times }) := by
  induction times generalizing cursor with
  | zero => rfl
  | succ times ih =>
    -- There is room for the first of them, and then for the others one level deeper.
    have room : ¬ levelLimit ≤ cursor.depth := by omega
    have deeper : cursor.depth + 1 + times ≤ levelLimit := by omega
    have below := ih { cursor with depth := cursor.depth + 1 } deeper
    simp only [openLevels, openLevel, if_neg room, below, Prod.mk.injEq, true_and]
    rw [Nat.add_right_comm, Nat.add_assoc]

end Cursor

/--
A position from which every rule gives what it gives at the start of the rest of the line.

That rest is a text of its own, in which as many levels can be opened as are open at the position.
There any rule gives the same, as far in front as the position is in the line.
-/
def Cursor.Restarts (cursor : Cursor) : Prop :=
  ∃ back fresh, dropBytes? cursor.offset cursor.source.toList = some back ∧
    (∀ rule, (Cursor.ofLine (String.ofList back)).openLevels rule cursor.depth =
      (cursor.depth, none, fresh)) ∧
    ∀ entry : Entry, entry.run? cursor = (entry.run? fresh).map fun found =>
      (shiftResult cursor.offset found.1, found.2.within cursor.source cursor.offset)

/-- No match from a position that is reached looks at what has been taken or where it stands. -/
theorem restarts_of_reachable {cursor : Cursor} (reachable : cursor.Reachable) :
    cursor.Restarts := by
  have placed := reachable.placed
  obtain ⟨back, dropped, goesOn, rest⟩ := placed.exists_back
  -- No more levels are open at the position than there are, so all can be opened afresh.
  have opened (rule : Rule) := (Cursor.ofLine (String.ofList back)).openLevels_eq rule
    (Nat.zero_add cursor.depth ▸ placed.within)
  simp only [Cursor.ofLine, Nat.zero_add] at opened
  refine ⟨back, _, dropped, opened, fun entry => ?_⟩
  -- The position is the start of the text, in the line that goes on with the text.
  have same : cursor = Cursor.within cursor.source cursor.offset
      ⟨String.ofList back, lexemesOf (String.ofList back), cursor.depth⟩ := by
    rw [Cursor.within, ← rest]
  conv_lhs => rw [same]
  exact goesOn.run?_within rfl entry

/-- In the parentheses the factor is missing at a letter of two bytes that no lexeme starts with. -/
theorem restarts_product :
    ((Cursor.ofLine "1+(2*é").after [.take, .take, .openLevel .session]).Restarts ∧
      ((Cursor.ofLine "1+(2*é").after [.take, .take, .openLevel .session]).expression.1 =
        .error ⟨.atom, 5, 2⟩ :=
  ⟨restarts_of_reachable ⟨_, _, rfl⟩, by decide +kernel⟩

end Reckon
