import Reckon.Proofs.Grammar.Levels
import Reckon.Proofs.Grammar.Parsing

/-! What the limit on levels does to a rule, wherever in a line it is matched. -/

namespace Reckon

namespace Outcome

/-- What goes on behind a match keeps its tree or fails, and takes nothing. -/
def Keeps (next : Expr → Matcher) : Prop :=
  ∀ tree rest, next tree rest = .matched tree rest ∨ ∃ rule, next tree rest = .failed rule rest 0

variable {next : Expr → Matcher}

/-- Where nothing more is taken the same lexemes are left. -/
theorem Keeps.rest_andThen (keeps : Keeps next) (outcome : Outcome) :
    (outcome.andThen next).rest = outcome.rest := by
  -- A failure does not go on, and a match goes on to its own tree or to a failure there.
  cases outcome with
  | failed => rfl
  | matched tree rest =>
    rcases keeps tree rest with same | ⟨rule, failed⟩
    · simp only [andThen, same, Outcome.rest]
    · simp only [andThen, failed, Outcome.rest]

/-- Only a match goes on to a match, which has its tree. -/
theorem Keeps.eq_of_andThen (keeps : Keeps next) {outcome : Outcome} {tree : Expr}
    {rest : List Lexeme} (found : outcome.andThen next = .matched tree rest) :
    outcome = .matched tree rest := by
  cases outcome with
  | failed => contradiction
  | matched other left =>
    rcases keeps other left with same | ⟨rule, failed⟩
    · exact same.symm.trans found
    · have goes : next other left = .matched tree rest := found
      -- A match that goes on to a failure is none.
      rw [failed] at goes
      contradiction

/-- What is left over fails a line where the expression has ended. -/
theorem keeps_whole : Keeps fun tree rest =>
    if rest.isEmpty then .matched tree rest else .failed .session rest 0 := by
  intro tree rest
  -- The test takes nothing, whatever it finds.
  by_cases ended : rest.isEmpty
  · exact .inl (if_pos ended)
  · exact .inr ⟨.session, if_neg ended⟩

end Outcome

namespace Limited

variable {lexemes : List Lexeme} {outcome : (free : Nat) → Outcome}

/-- With too few levels a match fails, so only one with enough of them goes on to a tree. -/
theorem eq_of_matched (limited : Limited lexemes outcome) {free : Nat} {tree : Expr}
    {rest : List Lexeme} (matched : outcome free = .matched tree rest) :
    outcome free = outcome lexemes.length := by
  -- Either the levels were enough, or the match has failed for the lack of one.
  obtain ⟨taken, _, ⟨_, same⟩ | ⟨before, rule, after, _, failed⟩⟩ := limited.effect free
  · exact same
  · rw [matched] at failed
    contradiction

/-- What goes on behind a match without taking anything is limited as the match is. -/
theorem andThen (limited : Limited lexemes outcome) {next : Expr → Matcher}
    (keeps : Outcome.Keeps next) : Limited lexemes (fun free => (outcome free).andThen next) := by
  refine ⟨?_, ?_, ?_⟩
  · intro more enough
    -- More levels than lexemes change nothing of the match, and so nothing behind it.
    simp only [limited.stable more enough]
  · intro free
    -- The same lexemes are taken, so the same levels decide.
    obtain ⟨taken, cut, effect⟩ := limited.effect free
    rw [keeps.rest_andThen]
    refine ⟨taken, cut, ?_⟩
    rcases effect with ⟨within, same⟩ | ⟨before, rule, after, beyond, failed⟩
    · exact .inl ⟨within, by simp only [same]⟩
    · exact .inr ⟨before, rule, after, beyond, by simp only [failed, Outcome.andThen]⟩
  · intro free tree rest found
    -- What is matched behind it is the tree of the match itself.
    rw [← limited.nest free tree rest (keeps.eq_of_andThen found)]
    constructor
    · intro same
      exact limited.eq_of_matched (keeps.eq_of_andThen (same.trans found))
    · intro same
      simp only [same]

end Limited

/-- A header opens no level. -/
theorem limited_header {lexemes : List Lexeme}
    (signs : ∀ lexeme ∈ lexemes, lexeme.token = some .minus) (text : String) (span : Span) :
    Limited lexemes (fun _ => .matched (.header text span) []) := by
  refine ⟨fun _ _ => rfl, ?_, ?_⟩
  · intro free
    -- All lexemes are taken, and none of them is one that opens a level.
    refine ⟨lexemes, (List.append_nil lexemes).symm, .inl ⟨?_, rfl⟩⟩
    rintro before opener after rfl opens
    exact absurd (by simp [Lexeme.opens?, signs opener (by simp)]) opens
  · intro free tree rest found
    cases found
    simp [Expr.nest]

/-- A match of a product explains what stands there, with any number of levels. -/
theorem sound_multiplicative (free : Nat) :
    Sound free .multiplyingExpression (Grammar.multiplicative free) :=
  sound_chain rfl (sound_expression_and_power free).2

section Layers

variable {lexemes : List Lexeme} (orderly : Orderly lexemes)

include orderly

/-- Levels matter to a power only where one is missing. -/
theorem limited_power : Limited lexemes (fun free => Grammar.power free lexemes) :=
  limited_of_sound (fun free => (sound_expression_and_power free).2) rfl orderly cutsOff_power

/-- Levels matter to a product only where one is missing. -/
theorem limited_multiplicative :
    Limited lexemes (fun free => Grammar.multiplicative free lexemes) :=
  limited_of_sound sound_multiplicative ⟨rfl, rfl⟩ orderly fun bound =>
    cutsOff_chain _ (cutsOff_power bound)

/-- Levels matter to a sum only where one is missing. -/
theorem limited_additive : Limited lexemes (fun free => Grammar.additive free lexemes) := by
  -- The operands of a sum are products, which are sound when their powers are.
  have sound (free : Nat) := (sound_expression_and_power free).2.additive
  exact limited_of_sound sound ⟨rfl, rfl⟩ orderly fun bound =>
    cutsOff_additiveOver (cutsOff_power bound)

/-- Levels matter to an expression only where one is missing. -/
theorem limited_expression : Limited lexemes (fun free => Grammar.expression free lexemes) :=
  limited_of_sound (fun free => (sound_expression_and_power free).1) ⟨rfl, rfl⟩ orderly
    fun bound => cutsOff_expressionOver (cutsOff_power bound)

/-- Levels matter to a line only where one is missing. -/
theorem limited_session (source : String) :
    Limited lexemes (fun free => Grammar.session source free lexemes) := by
  cases header : Grammar.headerSpan? lexemes with
  | some span =>
    -- Where only minus signs stand, the line is a header with any number of levels.
    obtain ⟨_, signs, _⟩ := (Grammar.headerSpan?_eq_some_iff orderly.ordered).mp header
    simp only [Grammar.session, header]
    exact limited_header signs _ span
  | none =>
    simp only [Grammar.session, header]
    -- Behind the expression it is only asked whether anything is left.
    exact (limited_expression orderly).andThen Outcome.keeps_whole

end Layers

/-- With any number of levels there is no assignment, or it is what the expression is. -/
theorem Grammar.assignment?_cases (lexemes : List Lexeme) :
    (∀ free, assignment? free lexemes = none) ∨
      ∀ free, assignment? free lexemes = some (expression free lexemes) := by
  -- Whether an assignment starts here is told by the lexemes alone.
  have related (free : Nat) := cutOff_assignmentOver? (cutsOff_power (Nat.zero_le free)) lexemes
  generalize former : assignmentOver? (power 0) lexemes = least at related
  cases least with
  | none =>
    -- With no level there is no assignment, so there is none with more of them.
    refine .inl fun free => ?_
    have related := related free
    generalize latter : assignmentOver? (power free) lexemes = more at related
    cases related
    exact latter
  | some outcome =>
    -- An assignment that starts is tried as the expression, whatever comes of its value.
    refine .inr fun free => ?_
    have related := related free
    generalize latter : assignmentOver? (power free) lexemes = more at related
    cases related
    simp only [assignment?, expression, expressionOver, latter]

/-- The rules that are matched from a position in a line. -/
inductive Entry where
  | session
  | expression
  | assignment
  | additive
  | multiplicative
  | power
  deriving DecidableEq

namespace Entry

/-- What comes of a rule from a position, if the rule says anything of it. -/
def run? (entry : Entry) (cursor : Cursor) : Option (Except SyntaxError Expr × Cursor) :=
  match entry with
  | session => some cursor.session
  | expression => some cursor.expression
  | assignment => cursor.assignment?
  | additive => some cursor.additive
  | multiplicative => some cursor.multiplicative
  | power => some cursor.power

/-- What comes of matching a rule with a number of levels, if the rule says anything. -/
def outcome? (entry : Entry) (source : String) (lexemes : List Lexeme) (free : Nat) :
    Option Outcome :=
  match entry with
  | session => some (Grammar.session source free lexemes)
  | expression => some (Grammar.expression free lexemes)
  | assignment => Grammar.assignment? free lexemes
  | additive => some (Grammar.additive free lexemes)
  | multiplicative => some (Grammar.multiplicative free lexemes)
  | power => some (Grammar.power free lexemes)

/-- What comes of a rule from a position with a number of levels, whatever the limit is. -/
def runWith? (entry : Entry) (cursor : Cursor) (free : Nat) :
    Option (Except SyntaxError Expr × Cursor) :=
  (entry.outcome? cursor.source cursor.rest free).map cursor.settle

/-- What comes of a rule from a position without a limit on levels. -/
def unlimited? (entry : Entry) (cursor : Cursor) : Option (Except SyntaxError Expr × Cursor) :=
  entry.runWith? cursor cursor.rest.length

/-- The limit leaves the levels that are free. -/
theorem run?_eq (entry : Entry) (cursor : Cursor) :
    entry.run? cursor = entry.runWith? cursor cursor.free := by
  cases entry <;> rfl

/-- Whether a rule says anything does not depend on the levels, and what it says is limited. -/
theorem outcome?_cases (entry : Entry) (source : String) {lexemes : List Lexeme}
    (orderly : Orderly lexemes) :
    (∀ free, entry.outcome? source lexemes free = none) ∨
      ∃ outcome, Limited lexemes outcome ∧
        ∀ free, entry.outcome? source lexemes free = some (outcome free) := by
  -- Only an assignment may be absent, and where it starts it is the expression.
  cases entry with
  | session => exact .inr ⟨_, limited_session orderly source, fun _ => rfl⟩
  | expression => exact .inr ⟨_, limited_expression orderly, fun _ => rfl⟩
  | additive => exact .inr ⟨_, limited_additive orderly, fun _ => rfl⟩
  | multiplicative => exact .inr ⟨_, limited_multiplicative orderly, fun _ => rfl⟩
  | power => exact .inr ⟨_, limited_power orderly, fun _ => rfl⟩
  | assignment =>
    rcases Grammar.assignment?_cases lexemes with absent | starts
    · exact .inl absent
    · exact .inr ⟨_, limited_expression orderly, starts⟩

end Entry

namespace Cursor

/-- The failure of a rule in front of some lexemes, with all levels open. -/
def refusal (cursor : Cursor) (rule : Rule) (rest : List Lexeme) :
    Except SyntaxError Expr × Cursor :=
  let stopped := { cursor with rest, depth := levelLimit }
  (.error (stopped.error rule), stopped)

/-- What is settled leaves the lexemes that the match has left. -/
theorem settle_rest (cursor : Cursor) (outcome : Outcome) :
    (cursor.settle outcome).2.rest = outcome.rest := by
  cases outcome <;> rfl

/-- A match is settled as a tree only where it is one. -/
theorem eq_of_settle {cursor last : Cursor} {outcome : Outcome} {tree : Expr}
    (settled : cursor.settle outcome = (.ok tree, last)) :
    outcome = .matched tree last.rest := by
  -- A failure is settled as an error.
  cases outcome with
  | failed => cases settled
  | matched other rest =>
    cases settled
    rfl

end Cursor

/-- What a rule makes of a position with the limit on levels, told by what it does without one. -/
structure LevelReport (entry : Entry) (cursor : Cursor) : Prop where
  /-- More levels than there are lexemes are of no use, so with that many there is no limit. -/
  unlimited : ∀ free, cursor.rest.length ≤ free →
    entry.runWith? cursor free = entry.unlimited? cursor
  absent : entry.unlimited? cursor = none → entry.run? cursor = none
  /--
  The limit has no effect where every level that is opened is free.

  Otherwise the rule fails right behind the first lexeme that opens one which is not.
  -/
  effect : ∀ result last, entry.unlimited? cursor = some (result, last) →
    ∃ taken, cursor.rest = taken ++ last.rest ∧
      (OpensWithin cursor.free taken → entry.run? cursor = some (result, last)) ∧
      (¬ OpensWithin cursor.free taken → ∃ before rule after,
        OpensBeyond cursor.free taken before rule after ∧
          entry.run? cursor = some (cursor.refusal rule (after ++ last.rest)))
  /-- A tree is matched exactly if its levels are within the limit, with those that are open. -/
  accepts : ∀ tree last, entry.unlimited? cursor = some (.ok tree, last) →
    ((∃ other final, entry.run? cursor = some (.ok other, final)) ↔
      cursor.depth + tree.nest ≤ levelLimit)

/-- A rule that says nothing with any number of levels says nothing with the limit. -/
theorem levelReport_of_absent {entry : Entry} {cursor : Cursor}
    (absent : ∀ free, entry.outcome? cursor.source cursor.rest free = none) :
    LevelReport entry cursor := by
  -- All that could be asked of it is about a rule that says nothing.
  have nothing (free : Nat) : entry.runWith? cursor free = none := by
    rw [Entry.runWith?, absent, Option.map_none]
  refine ⟨?_, ?_, ?_, ?_⟩
  · intro free _
    rw [Entry.unlimited?, nothing, nothing]
  · intro _
    rw [Entry.run?_eq, nothing]
  · intro result last found
    rw [Entry.unlimited?, nothing] at found
    contradiction
  · intro tree last found
    rw [Entry.unlimited?, nothing] at found
    contradiction

/-- The outcomes with any number of levels tell those of the rule with the limit. -/
theorem levelReport_of_limited {entry : Entry} {cursor : Cursor} {outcome : Nat → Outcome}
    (within : cursor.depth ≤ levelLimit) (limited : Limited cursor.rest outcome)
    (said : ∀ free, entry.outcome? cursor.source cursor.rest free = some (outcome free)) :
    LevelReport entry cursor := by
  have levels : cursor.depth + cursor.free = levelLimit := Nat.add_sub_of_le within
  -- The rule says something with any number of levels, and that is settled in one way.
  have run_eq (free : Nat) : entry.runWith? cursor free = some (cursor.settle (outcome free)) := by
    rw [Entry.runWith?, said, Option.map_some]
  have matched {free : Nat} {tree : Expr} {last : Cursor}
      (found : entry.runWith? cursor free = some (.ok tree, last)) :
      outcome free = .matched tree last.rest := by
    rw [run_eq, Option.some.injEq] at found
    exact Cursor.eq_of_settle found
  refine ⟨?_, ?_, ?_, ?_⟩
  · intro free enough
    rw [Entry.unlimited?, run_eq, run_eq, limited.stable free enough]
  · intro nothing
    rw [Entry.unlimited?, run_eq] at nothing
    contradiction
  · intro result last found
    obtain ⟨taken, cut, effect⟩ := limited.effect cursor.free
    rw [Entry.unlimited?, run_eq, Option.some.injEq] at found
    -- What is left in the end is what the match without a limit has left.
    have left : (outcome cursor.rest.length).rest = last.rest := by
      rw [← cursor.settle_rest, found]
    rw [left] at cut effect
    rw [Entry.run?_eq, run_eq]
    -- What is taken without a limit either needs no more levels than are free, or it does.
    rcases effect with ⟨inside, same⟩ | ⟨before, rule, after, beyond, failed⟩
    · exact ⟨taken, cut, fun _ => by rw [same, found], fun outside => absurd inside outside⟩
    · refine ⟨taken, cut, fun inside => absurd inside beyond.not_within, fun _ => ?_⟩
      -- The levels that were open and those that were free are all there are.
      refine ⟨before, rule, after, beyond, ?_⟩
      rw [failed, Cursor.settle, levels, Cursor.refusal]
  · intro tree last found
    have fits := limited.nest cursor.free tree last.rest (matched found)
    rw [Entry.run?_eq]
    -- A tree is matched with the limit only as it is without one.
    constructor
    · rintro ⟨other, final, accepted⟩
      have bound := fits.mp (limited.eq_of_matched (matched accepted))
      omega
    · intro bound
      have same := fits.mpr (by omega)
      refine ⟨tree, last, ?_⟩
      rw [run_eq, same, ← run_eq]
      exact found

/-- The limit on levels has no other effect than to stop a rule where it is exceeded. -/
theorem levelReport (entry : Entry) {cursor : Cursor}
    (part : cursor.rest <:+ lexemesOf cursor.source) (within : cursor.depth ≤ levelLimit) :
    LevelReport entry cursor := by
  -- What is left at a position is in order as the whole line is.
  have orderly : Orderly cursor.rest := (orderly_lexemesOf cursor.source).sublist part.sublist
  -- Whether the rule says anything is told by the lexemes alone.
  rcases entry.outcome?_cases cursor.source orderly with absent | ⟨outcome, limited, said⟩
  · exact levelReport_of_absent absent
  · exact levelReport_of_limited within limited said

/-- With one level free a sum ends behind the parenthesis in its exponent, which needs another. -/
theorem levelReport_exponent :
    LevelReport .additive ⟨"2^(3)+1", lexemesOf "2^(3)+1", 255⟩ ∧
      (Cursor.additive ⟨"2^(3)+1", lexemesOf "2^(3)+1", 255⟩).1 = .error ⟨.parenthesized, 3, 4⟩ :=
  ⟨levelReport .additive (List.suffix_refl _) (by decide), by decide +kernel⟩

end Reckon
