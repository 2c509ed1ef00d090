import Reckon.Proofs.Cursor.Checked
import Reckon.Proofs.Grammar.Leaves

/-! An index into the lexemes of a line is as good as the position in front of those left. -/

namespace Reckon

/-- The reader that stands at a position. -/
def Cursor.reader (cursor : Cursor) : Reader :=
  ⟨cursor.source, lexemesOf cursor.source, cursor.taken, contentLength cursor.source.toList,
    cursor.depth⟩

/-- The index counts the lexemes that have been taken. -/
theorem Cursor.reader_eq {source : String} {taken rest : List Lexeme}
    (cut : lexemesOf source = taken ++ rest) (depth : Nat) :
    Cursor.reader ⟨source, rest, depth⟩ =
      ⟨source, taken ++ rest, taken.length, contentLength source.toList, depth⟩ := by
  rw [Cursor.reader, Cursor.taken, cut, List.length_append, Nat.add_sub_cancel_right]

namespace Checked

variable {α β : Type} {reader last : Reader}

/-- A step goes on behind the value of another. -/
theorem bind_ok {step : Checked α} {value : α} (done : step reader = some (.ok value, last))
    (next : α → Checked β) : (step >>= next) reader = next value last := by
  -- Steps are composed as the monad has it, which is by this function.
  show step.andThen next reader = _
  rw [andThen, done]

/-- A step does not go on behind an error. -/
theorem bind_error {step : Checked α} {error : SyntaxError}
    (done : step reader = some (.error error, last)) (next : α → Checked β) :
    (step >>= next) reader = some (.error error, last) := by
  show step.andThen next reader = _
  rw [andThen, done]

/-- A step goes on where what it requires holds. -/
theorem require_eq {holds : Bool} (satisfied : holds = true) (reader : Reader) :
    require holds reader = some (.ok (), reader) := by
  -- A requirement that holds is a step that does nothing.
  rw [satisfied]
  rfl

/-- No range that covers two others ends before it starts. -/
theorem cover_eq (left right : Span) (reader : Reader) :
    cover left right reader = some (.ok (left.cover right), reader) := by
  -- The smaller of the starts is not past either end, since no range has a negative length.
  have order : min left.offset right.offset ≤ max left.stop right.stop := by
    simp only [Span.stop]
    omega
  exact bind_ok (require_eq (decide_eq_true order) reader) _

end Checked

/-- A step cuts out a text that is there. -/
theorem checked_slice (cursor : Cursor) {span : Span} {text : String}
    (found : slice? cursor.source.toList span.offset span.length = some text.toList) :
    Checked.slice span cursor.reader = some (.ok text, cursor.reader) := by
  -- The text is cut out of the same line, so it is there for the reader as well.
  rw [Checked.slice, Checked.told, Reader.slice?, Cursor.reader, found, Option.map_some,
    String.ofList_toList]
  rfl

/-- A step reads a literal from a text that spells one. -/
theorem checked_literal (cursor : Cursor) {span : Span} {text : String} {kind : LiteralKind}
    (found : slice? cursor.source.toList span.offset span.length = some text.toList)
    (spelled : kind.Spells text.toList) :
    Checked.literal kind span cursor.reader =
      some (.ok (Grammar.literal kind text span), cursor.reader) := by
  -- What spells a literal of the kind has a value, so the reader does not refuse it.
  obtain ⟨value, read⟩ := LiteralKind.exists_read_eq_ok_iff.mpr spelled
  rw [Checked.literal, Checked.bind_ok (checked_slice cursor found), Grammar.literal_eq read, read]
  rfl

namespace Cursor.Placed

variable {line : String} {cursor : Cursor} (placed : cursor.Placed line)

include placed

/-- The lexemes in front of the index are those that have been taken. -/
theorem exists_taken : ∃ taken, lexemesOf cursor.source = taken ++ cursor.rest := by
  -- What is left is the end of the lexemes, behind a front that is told by its length.
  obtain ⟨taken, cut⟩ := placed.source_eq ▸ placed.part
  exact ⟨taken, cut.symm⟩

/-- The lexemes that a rule may look at are the first two of those that are left. -/
theorem reader_near? (places : Fin 2) : cursor.reader.near? places = cursor.rest[places.val]? := by
  obtain ⟨taken, cut⟩ := placed.exists_taken
  rw [Cursor.reader_eq cut, Reader.near?]
  -- The index is past all that have been taken, whatever is added to it.
  rw [List.getElem?_append_right (Nat.le_add_right _ _), Nat.add_sub_cancel_left]

/-- The first two that are left are of the same kinds. -/
theorem reader_isNear (places : Fin 2) (token : Token) :
    cursor.reader.isNear places token = cursor.rest[places.val]?.any (·.isToken token) := by
  rw [Reader.isNear, placed.reader_near?]

/-- The next lexeme is taken by moving the index. -/
theorem reader_take :
    cursor.reader.take = ((cursor.moved cursor.take?).1, (cursor.moved cursor.take?).2.reader) := by
  have next := placed.reader_near? 0
  obtain ⟨taken, cut⟩ := placed.exists_taken
  obtain ⟨source, lexemes, depth⟩ := cursor
  cases lexemes with
  -- At the end of the lexemes the index stays where it is.
  | nil =>
    rw [Reader.take, next]
    rfl
  | cons lexeme rest =>
    -- With one lexeme more in front the index is one more.
    have further : lexemesOf source = (taken ++ [lexeme]) ++ rest := by simpa using cut
    rw [Reader.take, next, Cursor.reader_eq cut, Cursor.take?, Cursor.moved,
      Cursor.reader_eq further]
    simp

/-- The next lexeme is taken if it is of a kind. -/
theorem reader_takeIf (token : Token) :
    cursor.reader.takeIf token =
      ((cursor.moved (cursor.takeIf? token)).1,
        (cursor.moved (cursor.takeIf? token)).2.reader) := by
  -- Both ask for the kind of the same lexeme before they take it.
  rw [Reader.takeIf, placed.reader_isNear, placed.reader_take, Cursor.takeIf?,
    List.head?_eq_getElem?, Fin.val_zero]
  split <;> rfl

/-- The index is never past the lexemes, so those that are left can be listed. -/
theorem reader_remaining? : cursor.reader.remaining? = some cursor.rest := by
  obtain ⟨taken, cut⟩ := placed.exists_taken
  rw [Cursor.reader_eq cut, Reader.remaining?]
  -- All that is dropped are the lexemes in front of the index.
  simp

/-- The index is at the end when no lexemes are left. -/
theorem reader_atEnd : cursor.reader.atEnd = cursor.atEnd := by
  obtain ⟨taken, cut⟩ := placed.exists_taken
  rw [Cursor.reader_eq cut, Reader.atEnd, Cursor.atEnd]
  -- The index is the number of all lexemes only if none is behind those taken.
  cases cursor.rest <;> simp

/-- A rule fails at the index as it does at the position. -/
theorem reader_error (rule : Rule) : cursor.reader.error rule = cursor.error rule := by
  have next := placed.reader_near? 0
  obtain ⟨source, lexemes, depth⟩ := cursor
  -- The error starts at the next lexeme, or where the content of the line ends.
  cases lexemes <;> simp only [Reader.error, next] <;> rfl

/-- A level is opened at the index as it is at the position. -/
theorem reader_openLevel (rule : Rule) :
    cursor.reader.openLevel rule = (cursor.openLevel rule).map Cursor.reader := by
  rw [Reader.openLevel, Cursor.openLevel, placed.reader_error]
  -- Both count the same levels, and refuse one more with the same error.
  show (if levelLimit ≤ cursor.depth then _ else _) = _
  split <;> rfl

/-- A step takes the lexeme that comes next. -/
theorem checked_take {lexeme : Lexeme} {rest : List Lexeme} (cut : cursor.rest = lexeme :: rest) :
    Checked.take cursor.reader =
      some (.ok (some lexeme), ({ cursor with rest } : Cursor).reader) := by
  -- The lexeme is off the front of those left, and the index is one further.
  rw [Checked.take, placed.reader_take, Cursor.take?, cut]
  rfl

/-- A step takes nothing where no lexeme is left. -/
theorem checked_take_nil (nothing : cursor.rest = []) :
    Checked.take cursor.reader = some (.ok none, cursor.reader) := by
  rw [Checked.take, placed.reader_take, Cursor.take?, nothing]
  rfl

/-- A step takes the lexeme that comes next where it is of a kind. -/
theorem checked_takeIf {token : Token} {lexeme : Lexeme} {rest : List Lexeme}
    (taken : Grammar.take? token cursor.rest = some (lexeme, rest)) :
    Checked.takeIf token cursor.reader =
      some (.ok (some lexeme), ({ cursor with rest } : Cursor).reader) := by
  obtain ⟨cut, isKind⟩ := Grammar.eq_of_take?_eq_some taken
  -- The matcher has taken the lexeme from the list, so it is there and of the kind.
  have found : cursor.rest.head?.any (·.isToken token) = true := by
    simp [cut, Lexeme.isToken, isKind]
  rw [Checked.takeIf, placed.reader_takeIf, Cursor.takeIf?, if_pos found, Cursor.take?, cut]
  rfl

/-- A step takes nothing where the lexeme that comes next is of another kind. -/
theorem checked_takeIf_none {token : Token} (nothing : Grammar.take? token cursor.rest = none) :
    Checked.takeIf token cursor.reader = some (.ok none, cursor.reader) := by
  -- Either nothing comes next, or what does is of a kind of its own.
  have missing : ¬ cursor.rest.head?.any (·.isToken token) = true := by
    simpa [Option.any_eq_true, Lexeme.isToken] using Grammar.take?_eq_none_iff.mp nothing
  rw [Checked.takeIf, placed.reader_takeIf, Cursor.takeIf?, if_neg missing]
  rfl

/-- A step lists the lexemes that are left. -/
theorem checked_remaining :
    Checked.remaining cursor.reader = some (.ok cursor.rest, cursor.reader) := by
  rw [Checked.remaining, Checked.told, placed.reader_remaining?]
  rfl

/-- A step looks at the lexeme that comes next. -/
theorem checked_next :
    Checked.near 0 cursor.reader = some (.ok cursor.rest.head?, cursor.reader) := by
  rw [Checked.near, placed.reader_near?, List.head?_eq_getElem?, Fin.val_zero]

/-- A step asks for the kind of one of the first two lexemes that are left. -/
theorem checked_isNear (places : Fin 2) (token : Token) :
    Checked.isNear places token cursor.reader =
      some (.ok (cursor.rest[places.val]?.any (·.isToken token)), cursor.reader) := by
  rw [Checked.isNear, placed.reader_isNear]

end Cursor.Placed

end Reckon
