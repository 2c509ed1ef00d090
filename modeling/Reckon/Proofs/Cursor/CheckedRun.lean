import Reckon.Proofs.Cursor.CheckedMatch

/-! Whatever is done in a line is defined, and so is showing what fails in it. -/

namespace Reckon

/-- The last offset up to another one that stands between two characters or at an end. -/
def lastBoundary? (text : List Char) (offset : Nat) : Option Nat :=
  if (dropBytes? offset text).isSome then some offset
  else match offset with
    | 0 => none
    | less + 1 => lastBoundary? text less

/-- The number of characters in front of an offset, which are cut off between two characters. -/
def checkedColumn? (text : List Char) (offset : Nat) : Option Nat :=
  (lastBoundary? text (min offset (byteLength text))).bind fun place =>
    (slice? text 0 place).map List.length

/-- The error below its source, where both ends of the range are told by cutting the source. -/
def SyntaxError.checkedDiagnostic? (error : SyntaxError) (source : String) : Option String := do
  let first ← checkedColumn? source.toList error.offset
  let last ← checkedColumn? source.toList (error.offset + error.length)
  return "  " ++ String.ofList (List.replicate first ' ' ++ List.replicate (last - first) '~') ++
    "^\n  Syntax error while parsing " ++ error.rule.name

/-- The error that an answer reports, if it reports one. -/
def Answer.error? : Answer → Option SyntaxError
  | .error reported => some reported
  | .opened refused => refused
  | .matched (some (.error reported)) => some reported
  | _ => none

/-- The answer to a match that has been taken in steps. -/
def Answer.ofChecked : Except SyntaxError (Option Expr) → Answer
  | .ok none => .matched none
  | .ok (some tree) => .matched (some (.ok tree))
  | .error reported => .matched (some (.error reported))

namespace Reader

/-- What an action answers at an index, and the index that it leads to, if it is defined there. -/
def perform? (reader : Reader) : Action → Option (Answer × Reader)
  | .ahead places => some (.lexeme (reader.ahead? places.toNat), reader)
  | .isAt places token => some (.truth (reader.isAt places.toNat token), reader)
  | .take => some (.lexeme reader.take.1, reader.take.2)
  | .takeIf token => some (.lexeme (reader.takeIf token).1, (reader.takeIf token).2)
  | .remaining => reader.remaining?.map fun left => (.lexemes left, reader)
  | .atEnd => some (.truth reader.atEnd, reader)
  | .error rule => some (.error (reader.error rule), reader)
  | .openLevel rule =>
    match reader.openLevel rule with
    | .ok below => some (.opened none, below)
    | .error refused => some (.opened (some refused), reader)
  | .closeLevel => some (.closed, reader.closeLevel)
  | .matching entry => (entry.checked reader).map fun found => (.ofChecked found.1, found.2)

/-- The index that some actions lead to, if all of them are defined. -/
def after? (reader : Reader) (history : List Action) : Option Reader :=
  history.foldlM (fun current action => (current.perform? action).map Prod.snd) reader

end Reader

section Columns

/-- From inside of a character the last boundary is in front of it. -/
theorem lastBoundary?_append (front back : List Char) (count : Nat)
    (inside : ∀ c ∈ back.head?, count < c.utf8Size) (enough : back = [] → count = 0) :
    lastBoundary? (front ++ back) (byteLength front + count) = some (byteLength front) := by
  induction count with
  | zero =>
    rw [lastBoundary?.eq_def, Nat.add_zero, dropBytes?_append, Option.isSome_some, if_pos rfl]
  | succ count ih =>
    -- One byte less is still not past the character.
    cases back with
    | nil => exact absurd (enough rfl) (Nat.succ_ne_zero count)
    | cons c rest =>
      have short : count + 1 < c.utf8Size := inside c rfl
      have refused : dropBytes? (count + 1) (c :: rest) = none := by
        rw [dropBytes?, if_neg (by omega)]
      rw [lastBoundary?.eq_def, dropBytes?_append_add, refused, Option.isSome_none,
        if_neg Bool.false_ne_true]
      exact ih (fun d isHead => Nat.lt_of_succ_lt (inside d isHead)) (by simp)

/-- The characters that end at or before an offset are cut off in front of it. -/
theorem exists_front (text : List Char) (offset : Nat) :
    ∃ front back, text = front ++ back ∧ front.length = columnAt text offset ∧
      byteLength front ≤ offset ∧ ∀ c ∈ back.head?, offset < byteLength front + c.utf8Size := by
  induction text generalizing offset with
  | nil => exact ⟨[], [], rfl, rfl, Nat.zero_le _, by simp⟩
  | cons c rest ih =>
    -- A character that ends in time is one of the front, for which the offset goes down.
    by_cases fits : c.utf8Size ≤ offset
    · obtain ⟨front, back, rfl, column, within, inside⟩ := ih (offset - c.utf8Size)
      refine ⟨c :: front, back, rfl, by simp [columnAt, fits, column], ?_, ?_⟩
      · rw [byteLength_cons]
        omega
      · intro d isHead
        have past := inside d isHead
        rw [byteLength_cons]
        omega
    · refine ⟨[], c :: rest, rfl, by simp [columnAt, fits], Nat.zero_le _, ?_⟩
      simpa using fits

/-- The column of any offset is told by cutting the text between two characters of it. -/
theorem checkedColumn?_eq (text : List Char) (offset : Nat) :
    checkedColumn? text offset = some (columnAt text offset) := by
  obtain ⟨front, back, whole, column, within, inside⟩ := exists_front text offset
  rw [← column]
  subst whole
  -- The place is the end of the front with less than one character behind it.
  have place : min offset (byteLength (front ++ back)) =
      byteLength front + (min offset (byteLength (front ++ back)) - byteLength front) := by
    rw [byteLength_append]
    omega
  rw [checkedColumn?, place, lastBoundary?_append]
  -- Of what is left the offset reaches no further than into the first character.
  · simp [slice?, dropBytes?, takeBytes?_append]
  · intro c isHead
    have past := inside c isHead
    have positive := c.utf8Size_pos
    omega
  · intro nothing
    simp [nothing]

/-- Showing an error below any source cuts no character of the source. -/
theorem checkedDiagnostic?_eq (error : SyntaxError) (source : String) :
    error.checkedDiagnostic? source = some (error.diagnostic source) := by
  simp only [SyntaxError.checkedDiagnostic?, checkedColumn?_eq]
  rfl

end Columns

/-- An error that is reported is that of a rule at the position where its action ends. -/
theorem Cursor.exists_error_eq {cursor : Cursor} {action : Action} {error : SyntaxError}
    (reported : (cursor.perform action).1.error? = some error) :
    ∃ rule, (cursor.perform action).2.error rule = error := by
  -- Only three actions report anything.
  cases action with
  | ahead | isAt | take | takeIf | remaining | atEnd | closeLevel => contradiction
  | error rule => exact ⟨rule, Option.some.inj reported⟩
  | openLevel rule =>
    -- A level is refused where it would be opened.
    simp only [perform, openLevel] at reported ⊢
    split_ifs at reported ⊢
    · exact ⟨rule, Option.some.inj reported⟩
    · contradiction
  | matching entry =>
    simp only [perform, Entry.run?_eq, Entry.runWith?] at reported ⊢
    cases said : entry.outcome? cursor.source cursor.rest cursor.free with
    | none =>
      rw [said] at reported
      contradiction
    | some outcome =>
      rw [said] at reported
      cases outcome with
      | matched tree rest => contradiction
      -- The failure is worded where the match ends.
      | failed rule rest opened => exact ⟨rule, Option.some.inj reported⟩

namespace Cursor.Placed

variable {line : String} {cursor : Cursor} (placed : cursor.Placed line)

include placed

/-- The range of an error is what is left of the content of the line. -/
theorem exists_content (rule : Rule) :
    ∃ front back, line.toList.rdropWhile isGap = front ++ back ∧
      byteLength front = (cursor.error rule).offset ∧
      byteLength back = (cursor.error rule).length := by
  obtain ⟨left, _, goesOn, _⟩ := placed.exists_back
  obtain ⟨front, whole, bytes⟩ := goesOn.cut
  -- The content of the line is as much longer than that of the rest as the rest is further on.
  have content := goesOn.content
  rw [String.toList_ofList] at whole content
  rw [contentLength_eq left] at content
  refine ⟨front, left.rdropWhile isGap, ?_, bytes, ?_⟩
  · -- Both are beginnings of the line, and of the same number of bytes.
    apply eq_of_prefix_of_byteLength_eq (List.rdropWhile_prefix isGap _)
    · rw [whole]
      exact (List.prefix_append_right_inj front).mpr (List.rdropWhile_prefix isGap left)
    · rw [← contentLength_eq, content, byteLength_append, bytes]
  · rw [Cursor.error, placed.source_eq, content, Nat.add_sub_cancel_left]

/-- The range of an error is a text of the line. -/
theorem exists_slice?_error (rule : Rule) :
    ∃ text, Reckon.slice? line.toList (cursor.error rule).offset (cursor.error rule).length =
      some text := by
  obtain ⟨front, back, whole, offset, length⟩ := placed.exists_content rule
  -- Behind the content there are only the gaps that it leaves out.
  obtain ⟨trailing, text⟩ : line.toList.rdropWhile isGap <+: line.toList :=
    List.rdropWhile_prefix isGap _
  refine ⟨back, ?_⟩
  rw [← offset, ← length, ← text, whole, List.append_assoc, slice?_append]

/-- An action at the index is defined, and answers what it answers at the position. -/
theorem perform?_reader (action : Action) :
    cursor.reader.perform? action =
      some ((cursor.perform action).1, (cursor.perform action).2.reader) := by
  cases action with
  -- The index is the number of lexemes taken, so both look at the same place of the line.
  | ahead places => rfl
  | isAt places token => rfl
  | take => rw [Reader.perform?, placed.reader_take]; rfl
  | takeIf token => rw [Reader.perform?, placed.reader_takeIf]; rfl
  | remaining => rw [Reader.perform?, placed.reader_remaining?]; rfl
  | atEnd => rw [Reader.perform?, placed.reader_atEnd]; rfl
  | error rule => rw [Reader.perform?, placed.reader_error]; rfl
  | openLevel rule =>
    rw [Reader.perform?, placed.reader_openLevel, Cursor.perform]
    cases cursor.openLevel rule <;> rfl
  | closeLevel => rfl
  -- A match is taken in steps that are defined, each of which gives what the match does.
  | matching entry =>
    rw [Reader.perform?, entry.checked_reader placed, Cursor.perform]
    cases entry.run? cursor with
    | none => rfl
    | some found =>
      obtain ⟨result, last⟩ := found
      cases result <;> rfl

/-- Any actions from the index are defined, and lead where they lead from the position. -/
theorem after?_reader (history : List Action) :
    cursor.reader.after? history = some (cursor.after history).reader := by
  -- The index follows the position through each action.
  induction history generalizing cursor with
  | nil => rfl
  | cons action history ih =>
    rw [Reader.after?, List.foldlM_cons, placed.perform?_reader]
    exact ih (placed.perform action).1

end Cursor.Placed

/-- An action that is defined at a position that others lead to, and so is what it reports. -/
structure Defined (line : String) (history : List Action) (cursor : Cursor) (action : Action) :
    Prop where
  /-- The others are defined from the start of the line, and lead to the index of the position. -/
  reached : (Reader.ofLine line).after? history = some cursor.reader
  /-- The action is defined there, and answers and leads to what it does at the position. -/
  performed : cursor.reader.perform? action =
    some ((cursor.perform action).1, (cursor.perform action).2.reader)
  /-- The range of an error is a text of the line, and showing the error cuts no character. -/
  reported : ∀ error, (cursor.perform action).1.error? = some error →
    (∃ text, slice? line.toList error.offset error.length = some text) ∧
      error.checkedDiagnostic? line = some (error.diagnostic line)

/-- Every action is defined wherever any others lead from the start of a line. -/
theorem defined_always (line : String) (history : List Action) (action : Action) :
    Defined line history ((Cursor.ofLine line).after history) action := by
  -- At the start nothing has been taken, so the index is zero.
  have start : Reader.ofLine line = (Cursor.ofLine line).reader := by
    rw [Reader.ofLine, Cursor.reader, Cursor.taken, Cursor.ofLine, Nat.sub_self]
  have placed := (Cursor.placed_ofLine line).after history
  constructor
  case reached => exact start ▸ (Cursor.placed_ofLine line).after?_reader history
  case performed => exact placed.perform?_reader action
  case reported =>
    intro error reported
    obtain ⟨rule, rfl⟩ := Cursor.exists_error_eq reported
    exact ⟨(placed.perform action).1.exists_slice?_error rule, checkedDiagnostic?_eq _ line⟩

end Reckon
