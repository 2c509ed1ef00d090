import Reckon.Proofs.Cursor.Run

/-! What can be relied on at every position that any actions lead to. -/

namespace Reckon

namespace Cursor

variable {line : String} {cursor last : Cursor} {entry : Entry}

/-- As many further levels are opened as are asked for, or as are free. -/
theorem openLevels_fst (cursor : Cursor) (rule : Rule) (times : Nat) :
    (cursor.openLevels rule times).1 = min times cursor.free := by
  induction times generalizing cursor with
  | zero => simp [openLevels]
  | succ times ih =>
    rw [openLevels, openLevel]
    by_cases full : levelLimit ≤ cursor.depth
    · -- Without a free level the first one is refused.
      have nothing : cursor.free = 0 := Nat.sub_eq_zero_of_le full
      simp [if_pos full, nothing]
    · -- One level less is free for the others, and one less is asked for.
      have below := ih { cursor with depth := cursor.depth + 1 }
      simp only [free] at below
      simp only [if_neg full, below, free]
      omega

/-- As many levels are closed as one asks for, or as are open. -/
theorem closeLevels_eq (cursor : Cursor) (times : Nat) :
    cursor.closeLevels times = { cursor with depth := cursor.depth - times } := by
  induction times generalizing cursor with
  | zero => rfl
  | succ times ih =>
    -- Where no level is open the first one closes nothing, and neither do those behind it.
    rw [closeLevels, ih, closeLevel, Nat.add_comm, ← Nat.sub_sub]

/-- Levels are closed together as they are closed one after the other. -/
theorem after_closeLevel (cursor : Cursor) (times : Nat) :
    cursor.after (List.replicate times .closeLevel) = cursor.closeLevels times := by
  -- The first action closes one level, and the others go on from there.
  induction times generalizing cursor with
  | zero => rfl
  | succ times ih => exact ih cursor.closeLevel

/-- The lexemes that are left are those behind all that have been taken. -/
theorem Placed.drop_taken (placed : cursor.Placed line) :
    (lexemesOf line).drop cursor.taken = cursor.rest := by
  rw [taken, placed.source_eq]
  exact List.suffix_iff_eq_drop.mp placed.part |>.symm

/-- A sum that stays within a word leads to the lexemes that are left. -/
theorem Placed.ahead?_eq (placed : cursor.Placed line) {places : Nat}
    (fits : cursor.taken + places < UInt64.size) : cursor.ahead? places = cursor.rest[places]? := by
  -- What is counted from the start of the line is then counted behind what has been taken.
  rw [ahead?, placed.source_eq, Nat.mod_eq_of_lt fits, ← List.getElem?_drop, placed.drop_taken]

/-- A sum that passes the word is less than the number of lexemes that have been taken. -/
theorem mod_lt_taken (cursor : Cursor) (places : UInt64)
    (wraps : UInt64.size ≤ cursor.taken + places.toNat) :
    (cursor.taken + places.toNat) % UInt64.size < cursor.taken := by
  have bound := places.toNat_lt_size
  by_cases many : UInt64.size ≤ cursor.taken
  · exact (Nat.mod_lt _ (by decide)).trans_le many
  · -- Two numbers of a word are less than two words together, so only one is taken off.
    have once : cursor.taken + places.toNat - UInt64.size < UInt64.size := by omega
    rw [Nat.mod_eq_sub_mod wraps, Nat.mod_eq_of_lt once]
    omega

/-- A sum that passes the word leads back to a lexeme that has been taken. -/
theorem Placed.exists_ahead?_eq (placed : cursor.Placed line) (places : UInt64)
    (wraps : UInt64.size ≤ cursor.taken + places.toNat) : ∃ lexeme,
      ((lexemesOf line).take cursor.taken)[(cursor.taken + places.toNat) % UInt64.size]? =
          some lexeme ∧
        cursor.ahead? places.toNat = some lexeme := by
  -- The index is among those that have been taken, so none of them is left.
  have behind := cursor.mod_lt_taken places wraps
  have inside : cursor.taken ≤ (lexemesOf line).length := by
    rw [taken, placed.source_eq]
    exact Nat.sub_le _ _
  -- All that have been taken are lexemes of the line, so there is one at any index below them.
  have found := List.getElem?_eq_getElem (behind.trans_le inside)
  rw [List.getElem?_take_of_lt behind, ahead?, placed.source_eq]
  exact ⟨_, found, found⟩

/-- The next lexeme is taken off the front, and from an empty list nothing is. -/
theorem perform_take (cursor : Cursor) :
    ∃ rest, cursor.perform .take = (.lexeme cursor.rest.head?, { cursor with rest }) ∧
      cursor.rest = cursor.rest.head?.toList ++ rest := by
  obtain ⟨source, lexemes, depth⟩ := cursor
  cases lexemes with
  | nil => exact ⟨[], rfl, rfl⟩
  | cons first rest => exact ⟨rest, rfl, rfl⟩

/-- The next lexeme is taken off the front if it is of a kind, and otherwise nothing is. -/
theorem perform_takeIf (cursor : Cursor) (token : Token) :
    ∃ found rest, cursor.perform (.takeIf token) = (.lexeme found, { cursor with rest }) ∧
      found = cursor.rest.head?.filter (·.isToken token) ∧ cursor.rest = found.toList ++ rest := by
  obtain ⟨source, lexemes, depth⟩ := cursor
  cases lexemes with
  | nil => exact ⟨none, [], rfl, rfl, rfl⟩
  | cons first rest =>
    -- The two answers differ in whether the first lexeme is left.
    by_cases isKind : first.isToken token = true
    · exact ⟨some first, rest, by simp [perform, takeIf?, isKind, take?, moved],
        by simp [Option.filter, isKind], rfl⟩
    · exact ⟨none, first :: rest, by simp [perform, takeIf?, isKind, moved],
        by simp [Option.filter, isKind], rfl⟩

/-- A match answers what the rule makes of the position, and moves where the rule does. -/
theorem run?_of_perform {result : Except SyntaxError Expr}
    (performed : cursor.perform (.matching entry) = (.matched (some result), last)) :
    entry.run? cursor = some (result, last) := by
  simp only [perform] at performed
  cases ran : entry.run? cursor with
  -- Where the rule says nothing, nothing is what is answered.
  | none =>
    rw [ran] at performed
    cases performed
  | some found =>
    rw [ran] at performed
    obtain ⟨answer, next⟩ := found
    obtain ⟨same, rfl⟩ := Prod.mk.inj performed
    obtain rfl := Option.some.inj (Answer.matched.inj same)
    rfl

/-- A match answers nothing where the rule says nothing, and stays there. -/
theorem perform_eq_none_iff :
    cursor.perform (.matching entry) = (.matched none, last) ↔
      entry.run? cursor = none ∧ last = cursor := by
  simp only [perform]
  -- Only an assignment may be missing, and then the cursor stays.
  cases ran : entry.run? cursor with
  | none => simp [moved, eq_comm]
  | some found => simp [moved]

/-- Only an assignment may be absent, and it is where no name with an equals sign comes next. -/
theorem run?_eq_none_iff :
    entry.run? cursor = none ↔ entry = .assignment ∧ ¬ ∃ name equals rest,
      cursor.rest = name :: equals :: rest ∧ name.token = some .name ∧
        equals.token = some .equals := by
  -- All other rules match or fail, and what they say is settled.
  cases entry with
  | session | expression | additive | multiplicative | power => simp [Entry.run?]
  | assignment =>
    simp only [Entry.run?, assignment?, Option.map_eq_none_iff, true_and, Grammar.assignment?]
    constructor
    · -- Two lexemes of these kinds would be the start of an assignment.
      rintro absent ⟨name, equals, rest, cut, target, token⟩
      simp [cut, Grammar.assignmentOver?, Lexeme.isToken, target, token] at absent
    · intro missing
      -- Conversely any outcome comes from an assignment that starts with them.
      rw [Option.eq_none_iff_forall_ne_some]
      intro outcome assigned
      obtain ⟨name, equals, rest, cut, target, token, _⟩ :=
        Grammar.eq_of_assignmentOver?_eq_some assigned
      exact missing ⟨name, equals, rest, cut, target, token⟩

end Cursor

/-- What can be relied on at a position in a line. -/
structure Lawful (line : String) (cursor : Cursor) : Prop where
  /-- What is left is the end of the lexemes of the line. -/
  part : cursor.perform .remaining = (.lexemes cursor.rest, cursor) ∧
    cursor.source = line ∧ cursor.rest <:+ lexemesOf line
  /-- No action gives lexemes back. -/
  shrinks : ∀ action, (cursor.perform action).2.rest <:+ cursor.rest
  /-- Within a machine word the lexemes ahead are those that are left, and nothing moves. -/
  ahead : ∀ places : UInt64, cursor.taken + places.toNat < UInt64.size →
    cursor.perform (.ahead places) = (.lexeme cursor.rest[places.toNat]?, cursor)
  /-- Past the last number of a word they are lexemes that have been taken, from the first one. -/
  wrapped : ∀ places : UInt64, UInt64.size ≤ cursor.taken + places.toNat → ∃ lexeme,
    ((lexemesOf line).take cursor.taken)[(cursor.taken + places.toNat) % UInt64.size]? =
        some lexeme ∧
      cursor.perform (.ahead places) = (.lexeme (some lexeme), cursor)
  /-- What is asked for a kind is the lexeme that a look finds. -/
  isAt : ∀ places token, ∃ holds, cursor.perform (.isAt places token) = (.truth holds, cursor) ∧
    (holds = true ↔ ∃ lexeme,
      cursor.perform (.ahead places) = (.lexeme (some lexeme), cursor) ∧
        lexeme.token = some token)
  /-- To ask for the end or to word a failure moves nothing. -/
  atEnd : ∃ holds, cursor.perform .atEnd = (.truth holds, cursor) ∧
    (holds = true ↔ cursor.rest = [])
  error : ∀ rule, cursor.perform (.error rule) = (.error (cursor.error rule), cursor)
  /-- What is taken is what is answered, and nothing where nothing is. -/
  take : ∃ rest, cursor.perform .take = (.lexeme cursor.rest.head?, { cursor with rest }) ∧
    cursor.rest = cursor.rest.head?.toList ++ rest
  takeIf : ∀ token, ∃ found rest,
    cursor.perform (.takeIf token) = (.lexeme found, { cursor with rest }) ∧
      found = cursor.rest.head?.filter (·.isToken token) ∧ cursor.rest = found.toList ++ rest
  /-- The levels that are open and those that can still be opened are all there are. -/
  levels : cursor.depth ≤ levelLimit ∧
    ∀ rule times, (cursor.openLevels rule times).1 = min times (levelLimit - cursor.depth)
  /-- Levels are closed as far as any are open, also where none has been opened. -/
  closes : ∀ times, cursor.after (List.replicate times .closeLevel) = cursor.closeLevels times ∧
    cursor.closeLevels times = { cursor with depth := cursor.depth - times }
  /-- Nothing but an assignment is ever absent, and then nothing moves. -/
  absent : ∀ entry last, cursor.perform (.matching entry) = (.matched none, last) ↔
    last = cursor ∧ entry = .assignment ∧ ¬ ∃ name equals rest,
      cursor.rest = name :: equals :: rest ∧ name.token = some .name ∧ equals.token = some .equals
  /-- A match of a tree takes a lexeme at least, and closes the levels that it opens. -/
  matched : ∀ entry tree last,
    cursor.perform (.matching entry) = (.matched (some (.ok tree)), last) →
      last.rest.length < cursor.rest.length ∧ last.depth = cursor.depth
  /-- A match that fails closes none of the levels that were open. -/
  failed : ∀ entry error last,
    cursor.perform (.matching entry) = (.matched (some (.error error)), last) →
      cursor.depth ≤ last.depth

/-- Whatever has been asked, taken, opened, closed and matched in a line, its position is lawful. -/
theorem lawful_after (line : String) (history : List Action) :
    Lawful line ((Cursor.ofLine line).after history) := by
  have placed := (Cursor.placed_ofLine line).after history
  -- Of the history nothing is used but that it leads to a position in the line.
  generalize (Cursor.ofLine line).after history = cursor at placed
  constructor
  case part => exact ⟨rfl, placed.source_eq, placed.part⟩
  case shrinks => exact fun action => (placed.perform action).2
  case ahead =>
    intro places fits
    rw [Cursor.perform, placed.ahead?_eq fits]
  case wrapped =>
    intro places wraps
    obtain ⟨lexeme, taken, found⟩ := placed.exists_ahead?_eq places wraps
    exact ⟨lexeme, taken, by rw [Cursor.perform, found]⟩
  case isAt =>
    refine fun places token => ⟨_, rfl, ?_⟩
    simp [Cursor.perform, Cursor.isAt, Option.any_eq_true, Lexeme.isToken]
  case atEnd => exact ⟨_, rfl, by simp [Cursor.atEnd]⟩
  case error => exact fun rule => rfl
  case take => exact cursor.perform_take
  case takeIf => exact cursor.perform_takeIf
  case levels => exact ⟨placed.within, cursor.openLevels_fst⟩
  case closes => exact fun times => ⟨cursor.after_closeLevel times, cursor.closeLevels_eq times⟩
  case absent =>
    intro entry last
    -- Nothing is answered where the rule says nothing, which no rule but an assignment does.
    rw [Cursor.perform_eq_none_iff, Cursor.run?_eq_none_iff, and_comm]
  case matched =>
    intro entry tree last performed
    exact (placed.lands (Cursor.run?_of_perform performed)).matched tree rfl
  case failed =>
    intro entry error last performed
    exact (placed.lands (Cursor.run?_of_perform performed)).failed error rfl

/-- Behind the only lexeme of a line nothing is left, but the last number of a word finds it. -/
theorem ahead_finds_taken :
    let cursor := (Cursor.ofLine "1").after [.take]
    let places : UInt64 := 18446744073709551615
    cursor.perform .remaining = (.lexemes [], cursor) ∧
      cursor.perform (.ahead places) = (.lexeme (some ⟨some .decimal, ⟨0, 1⟩, "1"⟩), cursor) ∧
      cursor.perform (.ahead places) ≠ (.lexeme cursor.rest[places.toNat]?, cursor) := by
  intro cursor places
  -- The place and the lexeme that was taken add up to a whole word, so the index is zero.
  have nothing : cursor.rest = [] := by decide +kernel
  have found : cursor.ahead? places.toNat = some ⟨some .decimal, ⟨0, 1⟩, "1"⟩ := by
    decide +kernel
  refine ⟨?_, ?_, ?_⟩
  · rw [Cursor.perform, nothing]
  · rw [Cursor.perform, found]
  · rw [Cursor.perform, found, nothing]
    simp

end Reckon
