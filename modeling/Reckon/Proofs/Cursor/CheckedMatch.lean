import Reckon.Proofs.Cursor.Reading
import Reckon.Proofs.Cursor.Restart

/-! Every step of a match is defined, and gives what the match comes to. -/

namespace Reckon

/-- A step from a position is defined there, and gives what a match comes to. -/
structure Follows (step : Checked Expr) (cursor : Cursor) (outcome : Outcome) : Prop where
  suffix : outcome.rest <:+ cursor.rest
  gives : step cursor.reader = some ((cursor.settle outcome).1, (cursor.settle outcome).2.reader)

/-- A step gives what a matcher comes to, wherever in a line a number of levels is free. -/
def Tracks (line : String) (free : Nat) (step : Checked Expr) (matcher : Matcher) : Prop :=
  ∀ cursor : Cursor, cursor.Placed line → cursor.free = free →
    Follows step cursor (matcher cursor.rest)

namespace Follows

variable {line : String} {cursor : Cursor} {step later : Checked Expr} {outcome : Outcome}

/-- What is given behind some lexemes is given in front of them, once they have been taken. -/
theorem of_suffix {rest : List Lexeme} (follows : Follows later { cursor with rest } outcome)
    (part : rest <:+ cursor.rest)
    (same : step cursor.reader = later ({ cursor with rest } : Cursor).reader) :
    Follows step cursor outcome := by
  refine ⟨follows.suffix.trans part, ?_⟩
  rw [same, follows.gives]
  -- The settled outcome keeps only the lexemes that it leaves.
  cases outcome <;> rfl

/-- A step that takes nothing leaves what is given to the next one. -/
theorem congr (follows : Follows later cursor outcome)
    (same : step cursor.reader = later cursor.reader) : Follows step cursor outcome :=
  follows.of_suffix (List.suffix_refl _) same

/-- Steps go on behind a tree as a match does. -/
theorem andThen (follows : Follows step cursor outcome) {next : Expr → Checked Expr}
    {following : Expr → Matcher}
    (onwards : ∀ tree rest, rest <:+ cursor.rest →
      Follows (next tree) { cursor with rest } (following tree rest)) :
    Follows (step >>= next) cursor (outcome.andThen following) := by
  have gives := follows.gives
  cases outcome with
  -- A step that fails is the last one.
  | failed rule rest opened => exact ⟨follows.suffix, Checked.bind_error gives next⟩
  | matched tree rest =>
    exact (onwards tree rest follows.suffix).of_suffix follows.suffix (Checked.bind_ok gives next)

/-- A tree by itself takes nothing more. -/
theorem matched (tree : Expr) (cursor : Cursor) :
    Follows (pure tree) cursor (.matched tree cursor.rest) :=
  ⟨List.suffix_refl _, rfl⟩

/-- A rule that fails takes nothing more. -/
theorem failed (placed : cursor.Placed line) (rule : Rule) :
    Follows (Checked.fail rule) cursor (.failed rule cursor.rest 0) := by
  refine ⟨List.suffix_refl _, ?_⟩
  rw [Checked.fail, placed.reader_error]
  rfl

/-- What a step gives is wrapped behind it. -/
theorem map_some (follows : Follows step cursor outcome) :
    (some <$> step) cursor.reader =
      some ((cursor.settle outcome).1.map some, (cursor.settle outcome).2.reader) := by
  have gives := follows.gives
  cases outcome with
  | matched tree rest => exact Checked.bind_ok gives _
  | failed rule rest opened => exact Checked.bind_error gives _

end Follows

/-- An assignment starts where a name and an equals sign come next. -/
theorem Grammar.isSome_assignmentOver? (matcher : Matcher) (lexemes : List Lexeme) :
    (Grammar.assignmentOver? matcher lexemes).isSome =
      (lexemes[0]?.any (·.isToken .name) && lexemes[1]?.any (·.isToken .equals)) := by
  -- Fewer than two lexemes are no start, whatever kind the one of them is of.
  rcases lexemes with _ | ⟨name, _ | ⟨equals, rest⟩⟩
  · rfl
  · simp [Grammar.assignmentOver?]
  · simp [Grammar.assignmentOver?, apply_ite Option.isSome]

namespace Cursor.Placed

variable {line : String} {cursor : Cursor} (placed : cursor.Placed line)

include placed

/-- Whether a minus is a sign is told by the lexeme right behind it. -/
theorem checked_isSign {minus : Lexeme} {rest : List Lexeme} (cut : cursor.rest = minus :: rest) :
    Checked.isSign minus cursor.reader =
      some (.ok (Grammar.gluedDecimal? minus rest).isSome, cursor.reader) := by
  rw [Checked.isSign, placed.reader_near?, Fin.val_one, cut, List.getElem?_cons_succ]
  cases rest with
  | nil => rfl
  | cons digits rest =>
    -- The lexeme behind has to be a decimal literal, and to start where the sign ends.
    by_cases token : digits.token = some .decimal
    · by_cases glued : digits.span.offset = minus.span.stop <;>
        simp [Grammar.gluedDecimal?, Grammar.take?, Lexeme.isToken, token, Option.filter, glued]
    · simp [Grammar.gluedDecimal?, Grammar.take?, Lexeme.isToken, token]

/-- A literal that comes next is a number. -/
theorem follows_number (kind : LiteralKind) {lexeme : Lexeme} {rest : List Lexeme}
    (cut : cursor.rest = lexeme :: rest) (token : lexeme.token = some kind.token) :
    Follows Checked.number cursor
      (.matched (Grammar.literal kind lexeme.text lexeme.span) rest) := by
  have inside := placed.mem (cut ▸ List.mem_cons_self)
  have part : rest <:+ cursor.rest := cut ▸ List.suffix_cons lexeme rest
  have next : cursor.rest.head? = some lexeme := by rw [cut, List.head?_cons]
  -- Each kind of literal is a start of a number.
  have starts : Checked.startsNumber cursor.reader = some (.ok true, cursor.reader) := by
    rw [Checked.startsNumber, Checked.bind_ok (placed.checked_next), next]
    cases kind <;> simp only [token, LiteralKind.token] <;> rfl
  -- What the lexer takes for a literal of the kind its reader does not refuse.
  have read : Checked.literal kind lexeme.span ({ cursor with rest } : Cursor).reader =
      some (.ok (Grammar.literal kind lexeme.text lexeme.span),
        ({ cursor with rest } : Cursor).reader) :=
    checked_literal _ (spells_of_mem inside token).1 (spells_of_mem inside token).2
  refine ⟨part, ?_⟩
  -- The checks pass, the lexeme is taken, and the text of its range is read.
  rw [Checked.number, Checked.bind_ok starts, Checked.bind_ok (Checked.require_eq rfl _),
    Checked.bind_ok (placed.checked_take cut)]
  cases kind <;> simp only [token, LiteralKind.token] <;> exact read

/-- A minus that comes next with its decimal literal is a number. -/
theorem follows_signed {minus digits : Lexeme} {rest : List Lexeme}
    (cut : cursor.rest = minus :: digits :: rest) (sign : minus.token = some .minus)
    (token : digits.token = some .decimal) (glued : digits.span.offset = minus.span.stop) :
    Follows Checked.number cursor (.matched (Grammar.literal .decimal (minus.text ++ digits.text)
      (minus.span.cover digits.span)) rest) := by
  -- The two lexemes stand side by side in the line, so their common range is one text.
  have inside : [minus, digits] <:+: lexemesOf cursor.source := by
    obtain ⟨taken, whole⟩ := placed.exists_taken
    exact ⟨taken, rest, by simp [whole, cut]⟩
  have behind : digits :: rest <:+ cursor.rest := cut ▸ List.suffix_cons minus _
  have next : cursor.rest.head? = some minus := by rw [cut, List.head?_cons]
  have starts : Checked.startsNumber cursor.reader = some (.ok true, cursor.reader) := by
    rw [Checked.startsNumber, Checked.bind_ok (placed.checked_next), next]
    simp only [sign]
    rw [placed.checked_isSign cut, Grammar.gluedDecimal?_cons token glued, Option.isSome_some]
  have taken := (placed.of_suffix behind).checked_takeIf (Grammar.take?_cons token rest)
  refine ⟨(List.suffix_cons digits rest).trans behind, ?_⟩
  rw [Checked.number, Checked.bind_ok starts, Checked.bind_ok (Checked.require_eq rfl _),
    Checked.bind_ok (placed.checked_take cut)]
  simp only [sign]
  -- The sign and the digits are cut out as one text.
  refine (Checked.bind_ok taken _).trans ?_
  refine (Checked.bind_ok (Checked.cover_eq _ _ _) _).trans ?_
  exact checked_literal _ (spells_of_glued inside sign token glued).1
    (spells_of_glued inside sign token glued).2

/-- What is read as a name among the lexemes that are left is one. -/
theorem isName_text {name : Lexeme} (member : name ∈ cursor.rest)
    (token : name.token = some .name) : isName name.text = true :=
  isName_iff.mpr (placed.orderly.spelled name member _ token)

/-- A name that comes next is a variable. -/
theorem follows_reference {lexeme : Lexeme} {rest : List Lexeme}
    (cut : cursor.rest = lexeme :: rest) (token : lexeme.token = some .name) :
    Follows (Checked.reference lexeme) cursor
      (.matched (.reference lexeme.text lexeme.span) rest) := by
  have member : lexeme ∈ cursor.rest := cut ▸ List.mem_cons_self
  -- The text of the name is cut out of the line, and is a name.
  have inside := slice?_of_mem (placed.mem member)
  refine ⟨cut ▸ List.suffix_cons lexeme rest, ?_⟩
  rw [Checked.reference, Checked.bind_ok (placed.checked_take cut),
    Checked.bind_ok (checked_slice { cursor with rest } inside),
    Checked.bind_ok (Checked.require_eq (placed.isName_text member token) _)]
  rfl

/-- Whether a function is called is told by the name and the lexeme behind it. -/
theorem checked_called? :
    Checked.called? cursor.reader =
      some (.ok ((Grammar.called? cursor.rest).map Prod.fst), cursor.reader) := by
  refine (Checked.bind_ok (placed.checked_next) _).trans ?_
  cases cut : cursor.rest with
  | nil => rfl
  | cons name rest =>
    have inside := slice?_of_mem (placed.mem (cut ▸ List.mem_cons_self))
    refine (Checked.bind_ok (placed.checked_isNear 1 .leftParen) _).trans ?_
    rw [Fin.val_one, cut, List.getElem?_cons_succ, ← List.head?_eq_getElem?]
    -- The name is cut out only where a parenthesis stands behind it.
    cases rest with
    | nil =>
      simp only [List.head?_nil, Option.any_none, Bool.and_false]
      rfl
    | cons opening rest =>
      rw [List.head?_cons, Option.any_some, Grammar.called?]
      -- Both look at the same two kinds before the name is compared.
      by_cases calls : (name.isToken .name && opening.isToken .leftParen) = true
      · rw [if_pos calls, if_pos calls, Option.map_map]
        refine (Checked.bind_ok (checked_slice cursor inside) _).trans ?_
        cases NamedFunction.called? name.text <;> rfl
      · rw [if_neg calls, if_neg calls]
        rfl

/-- The operator that comes next is told in one step. -/
theorem checked_operator? (accepted : List Operator) :
    Checked.operator? accepted cursor.reader =
      some (.ok ((Grammar.operator? accepted cursor.rest).map Prod.fst), cursor.reader) := by
  rw [Checked.operator?, placed.reader_near?, Fin.val_zero]
  -- Without a lexeme there is no operator.
  cases cursor.rest with
  | nil => rfl
  | cons sign rest =>
    rw [Grammar.operator?, Option.map_map, List.getElem?_cons_zero, Option.bind_some]
    simp [Function.comp_def]

/-- An assignment is looked for in steps, and taken where one starts. -/
theorem checked_assignmentOver? (power : Checked Expr) (matcher : Matcher) :
    Checked.assignmentOver? power cursor.reader =
      (if (Grammar.assignmentOver? matcher cursor.rest).isSome then
        some <$> Checked.assignment power else pure none) cursor.reader := by
  rw [Grammar.isSome_assignmentOver?]
  exact (Checked.bind_ok (placed.checked_isNear 0 .name) _).trans
    (Checked.bind_ok (placed.checked_isNear 1 .equals) _)

/-- All lexemes that are left are taken within one more round than they are. -/
theorem checked_takeAll {rounds : Nat} (enough : cursor.rest.length < rounds) :
    Checked.takeAll rounds cursor.reader =
      some (.ok (), ({ cursor with rest := [] } : Cursor).reader) := by
  -- The round that finds nothing left is the one more.
  induction rounds generalizing cursor with
  | zero => contradiction
  | succ rounds ih =>
    cases cut : cursor.rest with
    | nil =>
      have same : ({ cursor with rest := [] } : Cursor) = cursor := by rw [← cut]
      rw [same]
      exact Checked.bind_ok (placed.checked_take_nil cut) _
    | cons lexeme rest =>
      -- A round takes one lexeme, so one round less is enough for the others.
      have fewer : rest.length < rounds := by
        rw [cut, List.length_cons] at enough
        omega
      refine (Checked.bind_ok (placed.checked_take cut) _).trans ?_
      exact ih (placed.of_suffix (cut ▸ List.suffix_cons lexeme rest)) fewer

/-- The text of a header can be cut out, wherever the header starts. -/
theorem exists_slice?_header {span : Span}
    (header : Grammar.headerSpan? cursor.rest = some span) :
    ∃ text, Reckon.slice? cursor.source.toList span.offset span.length = some text := by
  rw [placed.source_eq]
  obtain ⟨back, _, goesOn, rest⟩ := placed.exists_back
  rw [rest, Grammar.headerSpan?_shift] at header
  obtain ⟨inner, found, rfl⟩ := Option.map_eq_some_iff.mp header
  -- The header is one of the rest of the line by itself, all of which it takes.
  have ordered := (orderly_lexemesOf (String.ofList back)).ordered
  obtain ⟨occupied, _, rfl⟩ := (Grammar.headerSpan?_eq_some_iff ordered).mp found
  rw [goesOn.slice?_shift]
  exact exists_slice?_extent occupied

/-- A header is looked for in steps. -/
theorem checked_header?_none (other : Grammar.headerSpan? cursor.rest = none) :
    Checked.header? cursor.reader = some (.ok none, cursor.reader) := by
  -- The header is told by the first and the last of all lexemes that are left.
  refine (Checked.bind_ok placed.checked_remaining _).trans ?_
  rw [Grammar.headerSpan?] at other
  cases starts : cursor.rest.head? with
  | none => rfl
  | some first =>
    cases ends : cursor.rest.getLast? with
    | none => rfl
    | some last =>
      simp only [starts, ends, ite_eq_right_iff, reduceCtorEq, imp_false] at other ⊢
      rw [if_neg other]
      rfl

/-- A header takes all lexemes that are left. -/
theorem checked_header? {span : Span}
    (header : Grammar.headerSpan? cursor.rest = some span) {text : List Char}
    (found : Reckon.slice? cursor.source.toList span.offset span.length = some text) :
    Checked.header? cursor.reader =
      some (.ok (some (.header (String.ofList text) span)),
        ({ cursor with rest := [] } : Cursor).reader) := by
  refine (Checked.bind_ok placed.checked_remaining _).trans ?_
  rw [Grammar.headerSpan?] at header
  cases starts : cursor.rest.head? with
  | none => simp [starts] at header
  | some first =>
    cases ends : cursor.rest.getLast? with
    | none => simp [starts, ends] at header
    | some last =>
      simp only [starts, ends, Option.ite_none_right_eq_some, Option.some.injEq] at header ⊢
      obtain ⟨signs, rfl⟩ := header
      have cut : Reckon.slice? cursor.source.toList (first.span.cover last.span).offset
          (first.span.cover last.span).length = some (String.ofList text).toList := by
        rw [found, String.toList_ofList]
      -- Between the first and the last sign the text is cut out, and then all signs are taken.
      rw [if_pos signs]
      refine (Checked.bind_ok (Checked.cover_eq _ _ _) _).trans ?_
      refine (Checked.bind_ok (checked_slice cursor cut) _).trans ?_
      exact Checked.bind_ok (placed.checked_takeAll (Nat.lt_succ_self _)) _

end Cursor.Placed

/-- An operation is made in one step. -/
theorem follows_operation (left : Expr) (operator : Operator) (right : Expr) (cursor : Cursor) :
    Follows (Checked.operation left operator right) cursor
      (.matched (Grammar.operation left operator right) cursor.rest) :=
  (Follows.matched _ _).congr (Checked.bind_ok (Checked.cover_eq _ _ _) _)

section Atoms

variable {line : String} {free : Nat} {step : Checked Expr}

/-- A step one level deeper is taken where a level is free, and fails where none is. -/
theorem tracks_deeper (rule : Rule) {matcher : Nat → Matcher}
    (below : ∀ lower, free = lower + 1 → Tracks line lower step (matcher lower)) :
    Tracks line free (Checked.deeper rule step)
      (Grammar.deeper rule (Grammar.within matcher free)) := by
  intro cursor placed levels
  have within := placed.within
  simp only [Cursor.free] at levels
  cases free with
  | zero =>
    -- Without a free level the limit has been reached.
    have full : levelLimit ≤ cursor.depth := Nat.sub_eq_zero_iff_le.mp levels
    refine (Follows.failed placed rule).congr ?_
    rw [Checked.deeper, placed.reader_openLevel, Cursor.openLevel, if_pos full, Checked.fail,
      placed.reader_error]
    rfl
  | succ lower =>
    have room : ¬ levelLimit ≤ cursor.depth := by omega
    have bound : cursor.depth + 1 ≤ levelLimit := by omega
    have fewer : levelLimit - (cursor.depth + 1) = lower := by omega
    -- Inside of the level there is one level less.
    have inside := below lower rfl { cursor with depth := cursor.depth + 1 }
      ⟨placed.source_eq, placed.part, bound⟩ fewer
    have gives := inside.gives
    refine ⟨by simpa [Grammar.deeper, Grammar.within] using inside.suffix, ?_⟩
    rw [Checked.deeper, placed.reader_openLevel, Cursor.openLevel, if_neg room]
    simp only [Grammar.deeper, Grammar.within]
    generalize matcher lower cursor.rest = outcome at gives
    cases outcome with
    | matched tree rest => exact Checked.bind_ok gives _
    -- A failure has left its levels open, one more of them out here.
    | failed reported rest opened =>
      refine (Checked.bind_error gives _).trans ?_
      simp only [Outcome.inLevel, Cursor.settle, Nat.add_assoc, Nat.add_comm 1 opened]

variable (below : ∀ lower, free = lower + 1 → Tracks line lower step (Grammar.expression lower))

include below

/-- An expression between parentheses is taken in steps. -/
theorem tracks_parenthesized :
    Tracks line free (Checked.parenthesized step)
      (Grammar.parenthesized (Grammar.within Grammar.expression free)) := by
  intro cursor placed levels
  rw [Grammar.parenthesized]
  cases taken : Grammar.take? .leftParen cursor.rest with
  | none =>
    exact (Follows.failed placed _).congr (Checked.bind_ok (placed.checked_takeIf_none taken) _)
  | some found =>
    obtain ⟨opening, rest⟩ := found
    have cut := (Grammar.eq_of_take?_eq_some taken).1
    have part : rest <:+ cursor.rest := cut ▸ List.suffix_cons opening rest
    refine Follows.of_suffix ?_ part (Checked.bind_ok (placed.checked_takeIf taken) _)
    have inside := tracks_deeper .parenthesized below _ (placed.of_suffix part) levels
    refine inside.andThen fun tree left behind => ?_
    have placed := (placed.of_suffix part).of_suffix behind
    -- Behind the expression there is the closing parenthesis, or the rule fails.
    cases closed : Grammar.take? .rightParen left with
    | none =>
      exact (Follows.failed placed _).congr (Checked.bind_ok (placed.checked_takeIf_none closed) _)
    | some found =>
      obtain ⟨closing, left⟩ := found
      have cut := (Grammar.eq_of_take?_eq_some closed).1
      refine Follows.of_suffix ?_ (cut ▸ List.suffix_cons closing left)
        (Checked.bind_ok (placed.checked_takeIf closed) _)
      exact (Follows.matched _ _).congr (Checked.bind_ok (Checked.cover_eq _ _ _) _)

/-- An atom is taken in steps. -/
theorem tracks_atom :
    Tracks line free (Checked.atom step)
      (Grammar.atom (Grammar.within Grammar.expression free)) := by
  intro cursor placed levels
  -- The step looks at the next lexeme, and moves only once its kind is known.
  have ahead := placed.checked_next
  have inside := tracks_parenthesized below cursor placed levels
  have failed := Follows.failed placed .atom
  cases cut : cursor.rest with
  | nil =>
    rw [cut] at ahead failed
    exact failed.congr (Checked.bind_ok ahead _)
  | cons first rest =>
    rw [cut] at ahead inside failed
    have next : Checked.atom step cursor.reader = _ := Checked.bind_ok ahead _
    simp only [List.head?_cons] at next
    rw [Grammar.atom]
    -- The kind of the first lexeme decides what is taken.
    cases token : first.token with
    | none =>
      simp only [token] at next
      exact failed.congr next
    | some kind =>
      simp only [token] at next
      cases kind with
      | hexadecimal => exact (placed.follows_number .hexadecimal cut token).congr next
      | binary => exact (placed.follows_number .binary cut token).congr next
      | decimal => exact (placed.follows_number .decimal cut token).congr next
      | name => exact (placed.follows_reference cut token).congr next
      | leftParen => exact inside.congr next
      | minus =>
        simp only [Checked.bind_ok (placed.checked_isSign cut)] at next
        cases glued : Grammar.gluedDecimal? first rest with
        | none =>
          rw [glued] at next
          exact failed.congr next
        | some found =>
          obtain ⟨digits, others⟩ := found
          obtain ⟨rfl, decimal, right⟩ := Grammar.eq_of_gluedDecimal?_eq_some glued
          rw [glued] at next
          exact (placed.follows_signed cut token decimal right).congr next
      | plus | star | slash | caret | equals | rightParen => exact failed.congr next

/-- A call or an atom is taken in steps. -/
theorem tracks_signedAtom :
    Tracks line free (Checked.signedAtom step)
      (Grammar.signedAtom (Grammar.within Grammar.expression free)) := by
  intro cursor placed levels
  have called := placed.checked_called?
  rw [Grammar.signedAtom]
  cases found : Grammar.called? cursor.rest with
  | none =>
    rw [found, Option.map_none] at called
    exact (tracks_atom below cursor placed levels).congr (Checked.bind_ok called _)
  | some result =>
    obtain ⟨function, name, rest⟩ := result
    have cut := (Grammar.eq_of_called?_eq_some found).1
    have part : rest <:+ cursor.rest := cut ▸ List.suffix_cons name rest
    rw [found, Option.map_some] at called
    refine Follows.of_suffix ?_ part
      ((Checked.bind_ok called _).trans (Checked.bind_ok (placed.checked_take cut) _))
    -- The name has been taken, and its argument is in parentheses.
    have argument := tracks_parenthesized below _ (placed.of_suffix part) levels
    refine argument.andThen fun tree left behind => ?_
    exact (Follows.matched _ _).congr (Checked.bind_ok (Checked.cover_eq _ _ _) _)

end Atoms

section Layers

variable {line : String} {free : Nat} {operand : Checked Expr} {matcher : Matcher}
  (tracks : Tracks line free operand matcher)

include tracks

/-- Operands are folded in steps, within as many rounds as there are lexemes and one more. -/
theorem follows_chainFrom {cursor : Cursor} {accepted : List Operator} (rounds : Nat)
    {more : Nat} (left : Expr) (placed : cursor.Placed line) (levels : cursor.free = free)
    (enough : cursor.rest.length ≤ rounds) (within : cursor.rest.length < more) :
    Follows (Checked.chainFrom accepted operand more left) cursor
      (Grammar.chainFrom accepted matcher rounds left cursor.rest) := by
  -- Each round takes one operand, so that fewer rounds are enough for what is left.
  induction rounds generalizing cursor more left with
  | zero =>
    have nothing : cursor.rest = [] := List.eq_nil_of_length_eq_zero (Nat.le_zero.mp enough)
    obtain ⟨more, rfl⟩ := Nat.exists_eq_add_of_lt within
    have next := placed.checked_operator? accepted
    rw [nothing] at next
    exact (Follows.matched left cursor).congr (Checked.bind_ok next _)
  | succ rounds ih =>
    obtain ⟨fewer, rfl⟩ := Nat.exists_eq_add_of_lt within
    have next := placed.checked_operator? accepted
    rw [Grammar.chainFrom]
    cases found : Grammar.operator? accepted cursor.rest with
    | none =>
      rw [found, Option.map_none] at next
      exact (Follows.matched left cursor).congr (Checked.bind_ok next _)
    | some result =>
      obtain ⟨operator, rest⟩ := result
      obtain ⟨sign, cut, _⟩ := Grammar.eq_of_operator?_eq_some found
      have part : rest <:+ cursor.rest := cut ▸ List.suffix_cons sign rest
      rw [found, Option.map_some] at next
      refine Follows.of_suffix ?_ part
        ((Checked.bind_ok next _).trans (Checked.bind_ok (placed.checked_take cut) _))
      have placed := placed.of_suffix part
      refine (tracks _ placed levels).andThen fun right behind shorter => ?_
      -- The operator and its operand are both gone, so the bounds go down with the rounds.
      have count : cursor.rest.length = rest.length + 1 := by rw [cut, List.length_cons]
      have shorterThan : behind.length ≤ rest.length := shorter.length_le
      have few : behind.length ≤ rounds := by omega
      have inside : behind.length < cursor.rest.length + fewer := by omega
      refine Follows.congr ?_ (Checked.bind_ok (follows_operation left operator right _).gives _)
      exact ih _ (placed.of_suffix shorter) levels few inside

/-- Operands in a row are taken in steps. -/
theorem tracks_chain (accepted : List Operator) :
    Tracks line free (Checked.chain accepted operand) (Grammar.chain accepted matcher) := by
  intro cursor placed levels
  refine (tracks cursor placed levels).andThen fun left rest part => ?_
  -- No more lexemes are left than the line has.
  have placed := placed.of_suffix part
  obtain ⟨taken, cut⟩ := placed.exists_taken
  have lengths : (lexemesOf cursor.source).length = taken.length + rest.length := by
    rw [cut, List.length_append]
  have bound : rest.length < (lexemesOf cursor.source).length + 1 := by omega
  have enough := Nat.le_refl rest.length
  exact (follows_chainFrom tracks rest.length left placed levels enough bound).congr rfl

/-- A sum is taken in steps. -/
theorem tracks_additiveOver :
    Tracks line free (Checked.additiveOver operand) (Grammar.additiveOver matcher) :=
  tracks_chain (tracks_chain tracks _) _

/-- An assignment is taken in steps where one starts, and otherwise nothing is. -/
theorem follows_assignment {cursor : Cursor} (placed : cursor.Placed line)
    (levels : cursor.free = free) {outcome : Outcome}
    (assigned : Grammar.assignmentOver? matcher cursor.rest = some outcome) :
    Follows (Checked.assignment operand) cursor outcome := by
  obtain ⟨name, equals, rest, cut, target, _, rfl⟩ :=
    Grammar.eq_of_assignmentOver?_eq_some assigned
  have member : name ∈ cursor.rest := cut ▸ List.mem_cons_self
  have inside := slice?_of_mem (placed.mem member)
  have behind : equals :: rest <:+ cursor.rest := cut ▸ List.suffix_cons name _
  have part : rest <:+ cursor.rest := (List.suffix_cons equals rest).trans behind
  -- The name and the equals sign are taken, and the name is looked at.
  refine Follows.of_suffix ?_ part ((Checked.bind_ok (placed.checked_take cut) _).trans
    ((Checked.bind_ok ((placed.of_suffix behind).checked_take rfl) _).trans
      ((Checked.bind_ok (checked_slice { cursor with rest } inside) _).trans
        (Checked.bind_ok (Checked.require_eq (placed.isName_text member target) _) _))))
  refine (tracks_additiveOver tracks _ (placed.of_suffix part) levels).andThen ?_
  intro value left further
  exact (Follows.matched _ _).congr (Checked.bind_ok (Checked.cover_eq _ _ _) _)

/-- An assignment or a sum is taken in steps. -/
theorem tracks_expressionOver :
    Tracks line free (Checked.expressionOver operand) (Grammar.expressionOver matcher) := by
  intro cursor placed levels
  have looked := placed.checked_assignmentOver? operand matcher
  rw [Grammar.expressionOver]
  cases assigned : Grammar.assignmentOver? matcher cursor.rest with
  | none =>
    rw [assigned] at looked
    exact (tracks_additiveOver tracks cursor placed levels).congr (Checked.bind_ok looked _)
  | some outcome =>
    have follows := follows_assignment tracks placed levels assigned
    rw [assigned] at looked
    -- An assignment is the whole expression, and its failure is one of the expression.
    have given := looked.trans follows.map_some
    cases outcome with
    | matched tree rest => exact ⟨follows.suffix, Checked.bind_ok given _⟩
    | failed rule rest opened => exact ⟨follows.suffix, Checked.bind_error given _⟩

end Layers

/-- A base and its exponent are taken in steps. -/
theorem tracks_powerOver {line : String} {free : Nat} {step : Checked Expr}
    (below : ∀ lower, free = lower + 1 → Tracks line lower step (Grammar.power lower)) :
    Tracks line free (Checked.powerOver step) (Grammar.power free) := by
  intro cursor placed levels
  -- What is between parentheses is an expression over the powers of the next level.
  have inner (lower : Nat) (same : free = lower + 1) :
      Tracks line lower (Checked.expressionOver step) (Grammar.expression lower) :=
    tracks_expressionOver (below lower same)
  rw [Grammar.power_eq]
  refine (tracks_signedAtom inner cursor placed levels).andThen fun base rest part => ?_
  have placed := placed.of_suffix part
  cases taken : Grammar.take? .caret rest with
  | none => exact (Follows.matched _ _).congr (Checked.bind_ok (placed.checked_takeIf_none taken) _)
  | some found =>
    obtain ⟨caret, behind⟩ := found
    have cut := (Grammar.eq_of_take?_eq_some taken).1
    have part : behind <:+ rest := cut ▸ List.suffix_cons caret behind
    refine Follows.of_suffix ?_ part (Checked.bind_ok (placed.checked_takeIf taken) _)
    -- The exponent is one level deeper, and the power itself is then made of the two.
    have exponent := tracks_deeper .powerExpression below _ (placed.of_suffix part) levels
    exact exponent.andThen fun tree left shorter => follows_operation base .power tree _

/-- A power is taken in steps, within as many calls as levels are free. -/
theorem tracks_power (line : String) {free calls : Nat} (enough : free ≤ calls) :
    Tracks line free (Checked.power calls) (Grammar.power free) := by
  -- Each call goes one level deeper, and no more levels than that are free.
  induction calls generalizing free with
  | zero =>
    obtain rfl := Nat.le_zero.mp enough
    exact tracks_powerOver fun lower same => by contradiction
  | succ calls ih =>
    exact tracks_powerOver fun lower same => ih (by omega)

/-- A line is taken in steps. -/
theorem tracks_session {line : String} {free : Nat} {power : Checked Expr}
    (tracks : Tracks line free power (Grammar.power free)) :
    Tracks line free (Checked.session power) (Grammar.session line free) := by
  intro cursor placed levels
  rw [Grammar.session]
  cases header : Grammar.headerSpan? cursor.rest with
  -- A header takes all lexemes, so nothing can be left over.
  | some span =>
    obtain ⟨text, found⟩ := placed.exists_slice?_header header
    have taken := placed.checked_header? header found
    rw [placed.source_eq] at found
    simp only [found, Option.getD_some]
    exact ⟨List.nil_suffix, Checked.bind_ok taken _⟩
  | none =>
    refine Follows.congr ?_ (Checked.bind_ok (placed.checked_header?_none header) _)
    refine (tracks_expressionOver tracks cursor placed levels).andThen fun tree rest part => ?_
    have placed := placed.of_suffix part
    have ended := placed.reader_atEnd
    -- Nothing may be left behind the expression.
    by_cases nothing : rest.isEmpty = true
    · rw [if_pos nothing]
      refine (Follows.matched tree _).congr ?_
      rw [ended, Cursor.atEnd, if_pos nothing]
      rfl
    · rw [if_neg nothing]
      refine (Follows.failed placed .session).congr ?_
      rw [ended, Cursor.atEnd, if_neg nothing]


/-- The steps of a rule are all defined, and give what the rule gives. -/
theorem Entry.checked_reader (entry : Entry) {line : String} {cursor : Cursor}
    (placed : cursor.Placed line) :
    entry.checked cursor.reader = some
      (match entry.run? cursor with
      | some (result, last) => (result.map some, last.reader)
      | none => (.ok none, cursor.reader)) := by
  have bound : cursor.free ≤ levelLimit := Nat.sub_le _ _
  -- No more levels than the limit are free, so the calls do not run out.
  have tracks := tracks_power line bound
  cases entry with
  | session =>
    have follows := tracks_session tracks cursor placed rfl
    rw [← placed.source_eq] at follows
    exact follows.map_some
  | expression => exact (tracks_expressionOver tracks cursor placed rfl).map_some
  | additive => exact (tracks_additiveOver tracks cursor placed rfl).map_some
  | multiplicative => exact (tracks_chain tracks _ cursor placed rfl).map_some
  | power => exact (tracks cursor placed rfl).map_some
  -- Only an assignment may be absent, and then the index stays.
  | assignment =>
    have looked := placed.checked_assignmentOver? (Checked.power levelLimit)
      (Grammar.power cursor.free)
    simp only [run?, Cursor.assignment?, Grammar.assignment?]
    cases assigned : Grammar.assignmentOver? (Grammar.power cursor.free) cursor.rest with
    | none =>
      rw [assigned] at looked
      exact looked
    | some outcome =>
      rw [assigned] at looked
      exact looked.trans (follows_assignment tracks placed rfl assigned).map_some

end Reckon
