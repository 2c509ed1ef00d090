import Reckon.Proofs.Grammar.Blockage
import Reckon.Proofs.Grammar.Cutoff

/-! The limit on levels has no effect but at the first lexeme that opens a level past it. -/

namespace Reckon

namespace Place

variable {limit : Nat} {place next : Place}

/-- A lexeme opens one level at most. -/
theorem Step.levels_le {lexeme : Lexeme} (step : Step limit place lexeme next) :
    next.levels ≤ place.levels + 1 := by
  cases step with
  | literal | name | sign | equals => exact Nat.le_succ _
  | operator operator token loose complete =>
    -- An operator ends the exponents that are open.
    simp only [levels]
    omega
  | caret token complete free => exact Nat.le_of_eq (levels_caret .operand place)
  | opening token fits free => exact Nat.le_of_eq (levels_opening .beginning place)
  -- A closing parenthesis takes the level away that is nested.
  | closing token complete nested =>
    simp only [levels, nested, List.foldr_cons]
    omega

/-- A step that opens a level needs it to be free, and any other step does not look at the limit. -/
theorem Step.of_levels_lt {lexeme : Lexeme} {other : Nat} (step : Step limit place lexeme next)
    (free : place.levels < other) : Step other place lexeme next := by
  -- Only a caret and an opening parenthesis ask for a level, which is free here.
  cases step with
  | literal kind token fits => exact .literal kind token fits
  | name token wants => exact .name token wants
  | sign token wants => exact .sign token wants
  | operator operator token loose complete => exact .operator operator token loose complete
  | caret token complete _ => exact .caret token complete free
  | equals token assignable => exact .equals token assignable
  | opening token fits _ => exact .opening token fits free
  | closing token complete nested => exact .closing token complete nested

/-- Some lexemes open no more levels than they are, so a limit of as many is no limit to them. -/
theorem Reaches.of_length {lexemes : List Lexeme} (scanned : place.Reaches limit lexemes next) :
    place.Reaches (place.levels + lexemes.length) lexemes next ∧
      next.levels ≤ place.levels + lexemes.length := by
  -- Each lexeme opens one level at most, and is one of those that are counted.
  induction lexemes generalizing place with
  | nil =>
    obtain rfl := Option.some.inj scanned
    exact ⟨rfl, Nat.le_refl _⟩
  | cons first others ih =>
    obtain ⟨middle, step, later⟩ := reaches_cons.mp scanned
    obtain ⟨again, bound⟩ := ih later
    have level := step.levels_le
    rw [List.length_cons]
    refine ⟨reaches_cons.mpr ⟨middle, step.of_levels_lt (by omega), again.mono (by omega)⟩, ?_⟩
    omega

end Place

/--
How many parentheses and exponents are open behind some lexemes at the start of an expression.

The lexemes open no more levels than they are, so that none is refused for a level that is not free.
-/
def openLevels? (lexemes : List Lexeme) : Option Nat :=
  (Place.start.scan? lexemes.length (lexemes.map Lexeme.spelling)).map Place.levels

/-- The open levels are those of the place that the lexemes lead to, whatever the limit is. -/
theorem openLevels?_eq {limit : Nat} {lexemes : List Lexeme} {place : Place}
    (scanned : Place.start.Reaches limit lexemes place) :
    openLevels? lexemes = some place.levels := by
  -- As many levels as lexemes are enough, and the place is the same under that limit.
  have again : Place.start.Reaches (0 + lexemes.length) lexemes place := scanned.of_length.1
  rw [Nat.zero_add] at again
  rw [openLevels?, show Place.start.scan? _ _ = some place from again, Option.map_some]

/-- No more levels are open behind some lexemes than they are. -/
theorem levels_le_length {limit : Nat} {lexemes : List Lexeme} {place : Place}
    (scanned : Place.start.Reaches limit lexemes place) : place.levels ≤ lexemes.length := by
  have bound : place.levels ≤ 0 + lexemes.length := scanned.of_length.2
  omega

/-- Every one of some lexemes that opens a level has fewer than so many open in front of it. -/
def OpensWithin (free : Nat) (taken : List Lexeme) : Prop :=
  ∀ before opener after, taken = before ++ opener :: after → opener.opens? ≠ none →
    ∃ levels, openLevels? before = some levels ∧ levels < free

/-- A lexeme opens a level on behalf of a rule where so many are open, and is the first to do so. -/
structure OpensBeyond (free : Nat) (taken before : List Lexeme) (rule : Rule)
    (after : List Lexeme) : Prop where
  cut : ∃ opener, taken = before ++ opener :: after ∧ opener.opens? = some rule
  full : openLevels? before = some free
  first : OpensWithin free before

/-- A lexeme that opens a level beyond the free ones is none of those that open them within. -/
theorem OpensBeyond.not_within {free : Nat} {taken before after : List Lexeme} {rule : Rule}
    (beyond : OpensBeyond free taken before rule after) : ¬ OpensWithin free taken := by
  intro within
  obtain ⟨opener, cut, opens⟩ := beyond.cut
  -- The lexeme has all levels open in front of it, which is not fewer than there are.
  obtain ⟨levels, counted, fewer⟩ := within before opener after cut (by simp [opens])
  rw [beyond.full, Option.some.injEq] at counted
  omega

/-- A lexeme that opens a level is a parenthesis or a caret. -/
theorem Lexeme.token_of_opens? {lexeme : Lexeme} {rule : Rule} (opens : lexeme.opens? = some rule) :
    lexeme.token = some .leftParen ∧ rule = .parenthesized ∨
      lexeme.token = some .caret ∧ rule = .powerExpression := by
  -- Only two kinds of lexeme open a level.
  unfold opens? at opens
  split at opens
  · exact .inl ⟨‹_›, (Option.some.inj opens).symm⟩
  · exact .inr ⟨‹_›, (Option.some.inj opens).symm⟩
  · contradiction

/-- What is scanned under a limit opens its levels within it. -/
theorem Place.Reaches.opensWithin {limit : Nat} {taken : List Lexeme} {next : Place}
    (scanned : Place.start.Reaches limit taken next) : OpensWithin limit taken := by
  rintro before opener after rfl opens
  -- The scan has gone past the lexeme, so a level was free for it.
  obtain ⟨middle, front, behind⟩ := Place.reaches_append.mp scanned
  obtain ⟨_, step, _⟩ := Place.reaches_cons.mp behind
  obtain ⟨rule, opens⟩ := Option.ne_none_iff_exists'.mp opens
  refine ⟨_, openLevels?_eq front, step.levels_lt ?_⟩
  rcases Lexeme.token_of_opens? opens with ⟨token, _⟩ | ⟨token, _⟩
  · exact .inl token
  · exact .inr token

/-- What is blocked right behind a lexeme that opens a level for the rule has all levels open. -/
theorem Blocked.full {limit : Nat} {before rest : List Lexeme} {opener : Lexeme} {cause : Cause}
    (blocked : Blocked limit .start (before ++ [opener]) rest cause)
    (opens : opener.opens? = some cause.rule) :
    ∃ place, Place.start.Reaches limit before place ∧ place.levels = limit := by
  generalize taken_eq : before ++ [opener] = taken at blocked
  cases blocked with
  -- An operand that is missing is not reported for a rule that opens a level.
  | operand scanned wants missing =>
    rcases Lexeme.token_of_opens? opens with ⟨_, same⟩ | ⟨_, same⟩ <;> contradiction
  | @unclosed front inner rest opening tree middle next left scanned derived inside passes settled
      missing =>
    -- The expression in an unclosed parenthesis does not end with another one.
    obtain ⟨start, last, rfl⟩ := (List.eq_nil_or_concat' inner).resolve_left derived.ne_nil
    have cut : before ++ [opener] = front ++ opening :: start ++ [last] := by simpa using taken_eq
    obtain rfl := List.singleton_inj.mp (List.append_inj' cut rfl).2
    rcases Lexeme.token_of_opens? opens with ⟨token, _⟩ | ⟨_, same⟩
    · exact absurd token derived.not_opening.2.1
    · contradiction
  -- The lexeme that was refused is this one.
  | deepParenthesis front left scanned full =>
    obtain ⟨rfl, _⟩ := List.append_inj' taken_eq rfl
    exact ⟨_, scanned, full⟩
  | deepExponent front token scanned full =>
    obtain ⟨rfl, _⟩ := List.append_inj' taken_eq rfl
    exact ⟨_, scanned, full⟩

/-- What is blocked for another reason has been scanned. -/
theorem Blocked.scanned {limit : Nat} {place : Place} {taken rest : List Lexeme} {cause : Cause}
    (blocked : Blocked limit place taken rest cause) :
    (∃ next, place.Reaches limit taken next) ∨
      ∃ before opener, taken = before ++ [opener] ∧ opener.opens? = some cause.rule := by
  cases blocked with
  | operand scanned wants missing => exact .inl ⟨_, scanned⟩
  -- An unclosed parenthesis is reached, and so is the end of what is in it.
  | @unclosed before inner rest opening tree middle next left scanned derived inside passes settled
      missing =>
    exact .inl ⟨next, by simpa using scanned.append inside⟩
  | @deepParenthesis before rest opener last left scanned full =>
    exact .inr ⟨before, opener, rfl, by simp only [Lexeme.opens?, left, Cause.rule]⟩
  | @deepExponent before rest caret last token scanned full =>
    exact .inr ⟨before, caret, rfl, by simp only [Lexeme.opens?, token, Cause.rule]⟩

/--
What comes of matching some lexemes, told by how many levels are free.

With as many as there are lexemes no more are of use, and with fewer it is the same up to the first
lexeme that opens a level beyond them.
-/
structure Limited (lexemes : List Lexeme) (outcome : (free : Nat) → Outcome) : Prop where
  stable : ∀ more, lexemes.length ≤ more → outcome more = outcome lexemes.length
  effect : ∀ free, ∃ taken, lexemes = taken ++ (outcome lexemes.length).rest ∧
    (OpensWithin free taken ∧ outcome free = outcome lexemes.length ∨
      ∃ before rule after, OpensBeyond free taken before rule after ∧
        outcome free = .failed rule (after ++ (outcome lexemes.length).rest) free)
  nest : ∀ free tree rest, outcome lexemes.length = .matched tree rest →
    (outcome free = outcome lexemes.length ↔ tree.nest ≤ free)

section

variable {rule : Rule} {matcher : (free : Nat) → Matcher} {lexemes : List Lexeme}
  (sound : ∀ free, Sound free rule (matcher free)) (ready : Place.start.Ready rule)
  (orderly : Orderly lexemes)

include sound ready orderly

/-- A failure right behind a lexeme that opens a level for the rule has all levels open. -/
theorem full_of_failed {free opened : Nat} {before rest : List Lexeme} {opener : Lexeme}
    {reported : Rule} (cut : lexemes = before ++ opener :: rest)
    (opens : opener.opens? = some reported)
    (failed : matcher free lexemes = .failed reported rest opened) :
    ∃ place, Place.start.Reaches free before place ∧ place.levels = free := by
  have explains := sound free lexemes orderly
  rw [failed] at explains
  obtain ⟨taken, cause, cut', stuck, rfl⟩ := explains
  -- What was given up behind the lexeme was taken up to it.
  have whole : taken ++ rest = before ++ [opener] ++ rest := by
    rw [← cut', cut, List.append_assoc, List.singleton_append]
  obtain rfl := List.append_cancel_right whole
  exact (stuck.blocked free .start ready (by simp [Place.levels, Place.start])).full opens

/-- What has been matched or given up opens its levels within the free ones, or fails at once. -/
theorem opensWithin_or_failed (free : Nat) :
    ∃ taken, lexemes = taken ++ (matcher free lexemes).rest ∧ (OpensWithin free taken ∨
      ∃ before opener reported opened, taken = before ++ [opener] ∧ opener.opens? = some reported ∧
        matcher free lexemes = .failed reported (matcher free lexemes).rest opened) := by
  have explains := sound free lexemes orderly
  cases outcome : matcher free lexemes with
  -- What derives a tree of few enough levels can be scanned under the limit.
  | matched tree rest =>
    rw [outcome] at explains
    obtain ⟨taken, cut, derived, bound, _⟩ := explains
    obtain ⟨next, scanned, _⟩ :=
      derived.scan free .start ready (by simpa [Place.levels, Place.start] using bound)
    exact ⟨taken, cut, .inl scanned.opensWithin⟩
  | failed reported rest opened =>
    rw [outcome] at explains
    obtain ⟨taken, cause, cut, stuck, rfl⟩ := explains
    refine ⟨taken, cut, ?_⟩
    -- A failure has scanned all that it took, but for a lexeme that opens a level.
    have blocked := stuck.blocked free .start ready (by simp [Place.levels, Place.start])
    rcases blocked.scanned with ⟨next, scanned⟩ | ⟨before, opener, same, opens⟩
    · exact .inl scanned.opensWithin
    · exact .inr ⟨before, opener, _, opened, same, opens, rfl⟩

variable (cutsOff : ∀ {free more : Nat}, free ≤ more → CutsOff free (matcher free) (matcher more))

include cutsOff

/-- More levels than there are lexemes are of no use. -/
theorem matcher_eq_of_length_le {more : Nat} (bound : lexemes.length ≤ more) :
    matcher more lexemes = matcher lexemes.length lexemes := by
  have cutOff := cutsOff bound lexemes
  generalize former : matcher lexemes.length lexemes = limited at cutOff ⊢
  cases cutOff with
  | same suffix => rfl
  | @stopped before rest opener reported _ cut opens suffix =>
    -- There are fewer lexemes in front of the one that opens a level than there are levels.
    obtain ⟨place, scanned, full⟩ := full_of_failed sound ready orderly cut opens former
    have few := levels_le_length scanned
    have length := congrArg List.length cut
    simp only [List.length_append, List.length_cons] at length
    omega

/-- With fewer levels a match is the same up to the first lexeme that opens a level beyond them. -/
theorem eq_or_opensBeyond (free : Nat) :
    ∃ taken, lexemes = taken ++ (matcher lexemes.length lexemes).rest ∧
      (OpensWithin free taken ∧ matcher free lexemes = matcher lexemes.length lexemes ∨
        ∃ before reported after, OpensBeyond free taken before reported after ∧
          matcher free lexemes =
            .failed reported (after ++ (matcher lexemes.length lexemes).rest) free) := by
  -- Matching with more levels than either is matching with as many as lexemes.
  have enough := matcher_eq_of_length_le sound ready orderly cutsOff (Nat.le_max_right free _)
  have cutOff := cutsOff (Nat.le_max_left free lexemes.length) lexemes
  rw [enough] at cutOff
  generalize former : matcher free lexemes = limited at cutOff ⊢
  cases cutOff with
  | same suffix =>
    obtain ⟨taken, cut, within | ⟨before, opener, reported, opened, rfl, opens, failed⟩⟩ :=
      opensWithin_or_failed sound ready orderly free
    · exact ⟨taken, former ▸ cut, .inl ⟨within, rfl⟩⟩
    · -- The match with enough levels does not fail at one of them.
      have cut : lexemes = before ++ opener :: (matcher free lexemes).rest := by simpa using cut
      obtain ⟨place, scanned, full⟩ :=
        full_of_failed sound ready orderly cut opens (former.symm.trans failed)
      have few := levels_le_length scanned
      have length := congrArg List.length cut
      simp only [List.length_append, List.length_cons] at length
      omega
  | @stopped before rest opener reported _ cut opens suffix =>
    -- All levels are open in front of the lexeme where the match was cut short.
    obtain ⟨after, rfl⟩ := suffix
    obtain ⟨place, scanned, full⟩ := full_of_failed sound ready orderly cut opens former
    refine ⟨before ++ opener :: after, by simpa using cut, .inr ⟨before, reported, after, ?_, rfl⟩⟩
    exact ⟨⟨opener, rfl, opens⟩, full ▸ openLevels?_eq scanned, scanned.opensWithin⟩

/-- A tree that is matched with enough levels is matched with those that it nests. -/
theorem eq_iff_nest_le {tree : Expr} {rest : List Lexeme}
    (matched : matcher lexemes.length lexemes = .matched tree rest) (free : Nat) :
    matcher free lexemes = matcher lexemes.length lexemes ↔ tree.nest ≤ free := by
  constructor
  · intro same
    -- A match explains its tree, which nests no more than the free levels.
    have explains := sound free lexemes orderly
    rw [same, matched] at explains
    obtain ⟨_, _, _, bound, _⟩ := explains
    exact bound
  · intro bound
    have explains := sound lexemes.length lexemes orderly
    rw [matched] at explains
    obtain ⟨own, cut, derived, _, _⟩ := explains
    obtain ⟨next, scanned, _⟩ :=
      derived.scan free .start ready (by simpa [Place.levels, Place.start] using bound)
    obtain ⟨taken, taken_cut, ⟨_, same⟩ | ⟨before, reported, after, beyond, _⟩⟩ :=
      eq_or_opensBeyond sound ready orderly cutsOff free
    · exact same
    · -- What is derived within the levels opens none beyond them.
      rw [matched] at taken_cut
      obtain rfl := List.append_cancel_right (cut.symm.trans taken_cut)
      exact absurd scanned.opensWithin beyond.not_within

/-- Every matcher that is sound and cut short is limited so. -/
theorem limited_of_sound : Limited lexemes (fun free => matcher free lexemes) where
  stable _ := matcher_eq_of_length_le sound ready orderly cutsOff
  effect := eq_or_opensBeyond sound ready orderly cutsOff
  nest free _ _ matched := eq_iff_nest_le sound ready orderly cutsOff matched free

end

end Reckon
