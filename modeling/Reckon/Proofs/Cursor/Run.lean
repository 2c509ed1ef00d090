import Reckon.Proofs.Cursor.Entry

/-! A position in a line that is asked, moved and matched from, as often as one likes. -/

namespace Reckon

/-- What can be done at a position. -/
inductive Action where
  /-- Looks at the lexeme a number of places ahead, which is any number of a machine word. -/
  | ahead (places : UInt64)
  /-- Asks whether the lexeme a number of places ahead is of a kind. -/
  | isAt (places : UInt64) (token : Token)
  /-- Takes the next lexeme. -/
  | take
  /-- Takes the next lexeme if it is of a kind. -/
  | takeIf (token : Token)
  /-- Lists the lexemes that are left. -/
  | remaining
  /-- Asks whether no lexeme is left. -/
  | atEnd
  /-- Words the failure of a rule here. -/
  | error (rule : Rule)
  | openLevel (rule : Rule)
  | closeLevel
  /-- Matches a rule from here. -/
  | matching (entry : Entry)

/-- What an action answers. -/
inductive Answer where
  | lexeme (found : Option Lexeme)
  | truth (holds : Bool)
  | lexemes (left : List Lexeme)
  | error (error : SyntaxError)
  /-- A level is opened, or refused with an error. -/
  | opened (refused : Option SyntaxError)
  | closed
  /-- What comes of a match, if the rule says anything. -/
  | matched (result : Option (Except SyntaxError Expr))

namespace Cursor

/-- Moves to where something is found, and stays where nothing is. -/
def moved {α : Type} (cursor : Cursor) : Option (α × Cursor) → Option α × Cursor
  | some (found, next) => (some found, next)
  | none => (none, cursor)

/-- What an action answers at a position, and the position that it leads to. -/
def perform (cursor : Cursor) : Action → Answer × Cursor
  | .ahead places => (.lexeme (cursor.ahead? places.toNat), cursor)
  | .isAt places token => (.truth (cursor.isAt places.toNat token), cursor)
  | .take => (cursor.moved cursor.take?).map .lexeme id
  | .takeIf token => (cursor.moved (cursor.takeIf? token)).map .lexeme id
  | .remaining => (.lexemes cursor.rest, cursor)
  | .atEnd => (.truth cursor.atEnd, cursor)
  | .error rule => (.error (cursor.error rule), cursor)
  | .openLevel rule =>
    match cursor.openLevel rule with
    | .ok below => (.opened none, below)
    | .error refused => (.opened (some refused), cursor)
  | .closeLevel => (.closed, cursor.closeLevel)
  | .matching entry => (cursor.moved (entry.run? cursor)).map .matched id

/-- The position that some actions lead to, one after the other. -/
def after (cursor : Cursor) (history : List Action) : Cursor :=
  history.foldl (fun current action => (current.perform action).2) cursor

/-- A position that some actions lead to from the start of some line. -/
def Reachable (cursor : Cursor) : Prop :=
  ∃ line history, (ofLine line).after history = cursor

/-- A position among the lexemes of a line, with no more levels open than there are. -/
structure Placed (line : String) (cursor : Cursor) : Prop where
  source_eq : cursor.source = line
  part : cursor.rest <:+ lexemesOf line
  within : cursor.depth ≤ levelLimit

/-- Where a match leads from a position. -/
structure Lands (cursor : Cursor) (result : Except SyntaxError Expr) (last : Cursor) : Prop where
  source_eq : last.source = cursor.source
  part : last.rest <:+ cursor.rest
  /-- A tree takes one lexeme at least, and the levels that it opens it closes. -/
  matched : ∀ tree, result = .ok tree →
    last.rest.length < cursor.rest.length ∧ last.depth = cursor.depth
  /-- A failure closes none of the levels that were open. -/
  failed : ∀ error, result = .error error → cursor.depth ≤ last.depth
  within : last.depth ≤ levelLimit

variable {line : String} {cursor : Cursor}

/-- The lexemes behind a position are in order, with texts of their kinds. -/
theorem Placed.orderly (placed : cursor.Placed line) : Orderly cursor.rest :=
  (orderly_lexemesOf line).sublist placed.part.sublist

/-- The lexemes that are left are lexemes of the line. -/
theorem Placed.mem (placed : cursor.Placed line) {lexeme : Lexeme} (member : lexeme ∈ cursor.rest) :
    lexeme ∈ lexemesOf cursor.source := by
  rw [placed.source_eq]
  exact placed.part.subset member

/-- Further on among the lexemes there are positions in the line. -/
theorem Placed.of_suffix (placed : cursor.Placed line) {rest : List Lexeme}
    (part : rest <:+ cursor.rest) : ({ cursor with rest } : Cursor).Placed line :=
  ⟨placed.source_eq, part.trans placed.part, placed.within⟩

/-- Every match from a position in a line leads to such a position. -/
theorem Placed.lands (placed : cursor.Placed line) {entry : Entry}
    {result : Except SyntaxError Expr} {last : Cursor}
    (ran : entry.run? cursor = some (result, last)) : cursor.Lands result last := by
  rw [Entry.run?_eq, Entry.runWith?] at ran
  obtain ⟨outcome, said, settled⟩ := Option.map_eq_some_iff.mp ran
  obtain ⟨taken, cut, occupied⟩ := Entry.exists_taken placed.orderly said
  have bound := Entry.opened_le said
  have part : outcome.rest <:+ cursor.rest := ⟨taken, cut.symm⟩
  have within := placed.within
  -- A tree has closed the levels that it opened, and a failure has left them open.
  cases outcome with
  | matched tree rest =>
    obtain ⟨rfl, rfl⟩ := Prod.mk.inj settled
    refine ⟨rfl, part, ?_, by simp, within⟩
    intro _ _
    -- A tree has taken a lexeme, so fewer are left than before.
    have positive := List.length_pos_iff.mpr (occupied tree rest rfl)
    have lengths := congrArg List.length cut
    simp only [List.length_append, Outcome.rest] at lengths
    have shorter : rest.length < cursor.rest.length := by omega
    exact ⟨shorter, rfl⟩
  | failed rule rest opened =>
    obtain ⟨rfl, rfl⟩ := Prod.mk.inj settled
    -- The levels that are left open are among those that were free.
    refine ⟨rfl, part, by simp, fun _ _ => Nat.le_add_right _ _, ?_⟩
    have bound : opened ≤ levelLimit - cursor.depth := bound
    show cursor.depth + opened ≤ levelLimit
    omega

/-- One action leads from a position in a line to another, and gives no lexemes back. -/
theorem Placed.perform (placed : cursor.Placed line) (action : Action) :
    (cursor.perform action).2.Placed line ∧ (cursor.perform action).2.rest <:+ cursor.rest := by
  -- Where the lexemes and the levels stay nothing is to be shown.
  have same : cursor.Placed line ∧ cursor.rest <:+ cursor.rest := ⟨placed, List.suffix_refl _⟩
  have taken : (cursor.perform .take).2.Placed line ∧
      (cursor.perform .take).2.rest <:+ cursor.rest := by
    simp only [Cursor.perform, take?]
    split
    -- The lexemes behind the first one are left at the end of the line too.
    case h_1 lexeme rest cut =>
      have part : rest <:+ cursor.rest := cut ▸ List.suffix_cons lexeme rest
      exact ⟨placed.of_suffix part, part⟩
    case h_2 => exact same
  cases action with
  | ahead | isAt | remaining | atEnd | error => exact same
  | take => exact taken
  | takeIf token =>
    simp only [Cursor.perform, takeIf?]
    split
    · exact taken
    · exact same
  | openLevel rule =>
    simp only [Cursor.perform, openLevel]
    -- A level is opened only while one is free, so the limit still holds.
    split_ifs with full
    · exact same
    · exact ⟨⟨placed.source_eq, placed.part, Nat.lt_of_not_le full⟩, List.suffix_refl _⟩
  | closeLevel =>
    exact ⟨⟨placed.source_eq, placed.part, (Nat.sub_le _ _).trans placed.within⟩,
      List.suffix_refl _⟩
  | matching entry =>
    simp only [Cursor.perform]
    cases ran : entry.run? cursor with
    | none => exact same
    | some found =>
      obtain ⟨result, last⟩ := found
      -- A match stays in the line and within the levels, whatever comes of it.
      have lands := placed.lands ran
      exact ⟨⟨lands.source_eq.trans placed.source_eq, lands.part.trans placed.part, lands.within⟩,
        lands.part⟩

/-- Any number of actions lead from a position in a line to another. -/
theorem Placed.after (placed : cursor.Placed line) (history : List Action) :
    (cursor.after history).Placed line := by
  -- The position is a different one for each action, and each is in the line.
  induction history generalizing cursor with
  | nil => exact placed
  | cons action history ih => exact ih (placed.perform action).1

/-- The start of a line is a position in it. -/
theorem placed_ofLine (line : String) : (ofLine line).Placed line :=
  ⟨rfl, List.suffix_refl _, Nat.zero_le _⟩

/-- A position that is reached is one in its line. -/
theorem Reachable.placed (reachable : cursor.Reachable) : cursor.Placed cursor.source := by
  obtain ⟨line, history, rfl⟩ := reachable
  have placed := (placed_ofLine line).after history
  rwa [placed.source_eq]

end Cursor

end Reckon
