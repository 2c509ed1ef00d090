import Reckon.Proofs.Grammar.Failure

/-! A match is a derivation, and a failure is one that cannot go on where it is reported. -/

namespace Reckon

/-- Lexemes in order, each with a text that the pattern of its kind matches. -/
structure Orderly (lexemes : List Lexeme) : Prop where
  ordered : Ordered lexemes
  spelled : ∀ lexeme ∈ lexemes, ∀ token, lexeme.token = some token →
    token.Matches lexeme.text.toList

/-- Some of the lexemes in order are in order. -/
theorem Orderly.sublist {chosen lexemes : List Lexeme} (orderly : Orderly lexemes)
    (part : chosen.Sublist lexemes) : Orderly chosen := by
  refine ⟨orderly.ordered.sublist part, ?_⟩
  intro lexeme member
  exact orderly.spelled lexeme (part.subset member)

/-- One thing holds of a match, or another of a failure. -/
def Outcome.Ensures (matched : Expr → List Lexeme → Prop) (failed : Rule → List Lexeme → Prop) :
    Outcome → Prop
  | .matched tree rest => matched tree rest
  | .failed rule rest _ => failed rule rest

/--
An outcome of matching some lexemes says what the rule derives from the first of them, or where
and why it cannot go on.

The rule has taken other lexemes before.
-/
def Explains (free : Nat) (rule : Rule) (before lexemes : List Lexeme) (outcome : Outcome) : Prop :=
  outcome.Ensures
    (fun tree rest => ∃ taken, lexemes = taken ++ rest ∧ Derives rule (before ++ taken) tree ∧
      tree.nest ≤ free ∧ Settled rule (before ++ taken) rest)
    (fun reported rest => ∃ taken cause, lexemes = taken ++ rest ∧
      Stuck free rule (before ++ taken) rest cause ∧ reported = cause.rule)

/-- A matcher whose outcomes say what a rule derives. -/
def Sound (free : Nat) (rule : Rule) (matcher : Matcher) : Prop :=
  ∀ lexemes, Orderly lexemes → Explains free rule [] lexemes (matcher lexemes)

namespace Explains

/-- A match of a part explains a match of a rule that takes other lexemes before and behind. -/
theorem andThen {inner free : Nat} {part rule : Rule} {before lexemes : List Lexeme}
    {outcome : Outcome} (explains : Explains inner part [] lexemes outcome)
    (skipped : List Lexeme) {next : Expr → Matcher}
    (onwards : ∀ taken tree rest, lexemes = taken ++ rest → Derives part taken tree →
      tree.nest ≤ inner → Settled part taken rest →
        Explains free rule (before ++ (skipped ++ taken)) rest (next tree rest))
    (stops : ∀ taken rest cause, Stuck inner part taken rest cause →
      Stuck free rule (before ++ (skipped ++ taken)) rest cause) :
    Explains free rule before (skipped ++ lexemes) (outcome.andThen next) := by
  cases outcome with
  | failed reported rest opened =>
    -- A failure stands, and has the lexemes in front that the rule has taken before.
    obtain ⟨taken, cause, cut, stuck, report⟩ := explains
    exact ⟨skipped ++ taken, cause, by simp [cut], stops taken rest cause stuck, report⟩
  | matched tree rest =>
    obtain ⟨taken, cut, derived, bound, settled⟩ := explains
    have after := onwards taken tree rest cut derived bound settled
    -- What the rest explains behind more lexemes, it explains together with them.
    show Explains free rule before (skipped ++ lexemes) (next tree rest)
    cases result : next tree rest with
    | failed reported rest opened =>
      rw [result] at after
      obtain ⟨more, cause, rest_eq, stuck, report⟩ := after
      refine ⟨skipped ++ taken ++ more, cause, by simp [cut, rest_eq], ?_, report⟩
      simpa using stuck
    | matched tree rest =>
      rw [result] at after
      obtain ⟨more, rest_eq, derived, bound, settled⟩ := after
      refine ⟨skipped ++ taken ++ more, by simp [cut, rest_eq], ?_, bound, ?_⟩
      · simpa using derived
      · simpa using settled

/-- A match that takes nothing more explains what the rule has taken before. -/
theorem done {free : Nat} {rule : Rule} {taken rest : List Lexeme} {tree : Expr}
    (derived : Derives rule taken tree) (bound : tree.nest ≤ free)
    (settled : Settled rule taken rest) : Explains free rule taken rest (.matched tree rest) :=
  ⟨[], rfl, by simpa using derived, bound, by simpa using settled⟩

/-- Counting a level changes nothing of what a failure explains. -/
theorem inLevel {free : Nat} {rule : Rule} {before lexemes : List Lexeme} {outcome : Outcome}
    (explains : Explains free rule before lexemes outcome) :
    Explains free rule before lexemes outcome.inLevel := by
  cases outcome with
  | matched tree rest => exact explains
  | failed reported rest opened => exact explains

/-- What a match of an alternative explains, a match of the rule does. -/
theorem alternative {free : Nat} {rule part : Rule} {lexemes : List Lexeme} {outcome : Outcome}
    (explains : Explains free part [] lexemes outcome) (listed : part ∈ rule.alternatives)
    (settles : ∀ taken tree rest, lexemes = taken ++ rest → Derives part taken tree →
      Settled part taken rest → Settled rule taken rest) :
    Explains free rule [] lexemes outcome := by
  -- Derivations and failures of a part are both carried over, and what settles has to be shown.
  cases outcome with
  | matched tree rest =>
    obtain ⟨taken, cut, derived, bound, settled⟩ := explains
    exact ⟨taken, cut, .alternative listed derived, bound,
      settles taken tree rest cut derived settled⟩
  | failed reported rest opened =>
    obtain ⟨taken, cause, cut, stuck, report⟩ := explains
    exact ⟨taken, cause, cut, .alternative listed stuck, report⟩

end Explains

/-- What is taken is the first lexeme, which is of the kind that is asked for. -/
theorem Grammar.eq_of_take?_eq_some {token : Token} {lexemes rest : List Lexeme} {lexeme : Lexeme}
    (taken : take? token lexemes = some (lexeme, rest)) :
    lexemes = lexeme :: rest ∧ lexeme.token = some token := by
  cases lexemes with
  -- From no lexemes nothing is taken.
  | nil => contradiction
  | cons first others =>
    simp only [take?, Lexeme.isToken, beq_iff_eq, Option.ite_none_right_eq_some,
      Option.some.injEq, Prod.mk.injEq] at taken
    obtain ⟨found, rfl, rfl⟩ := taken
    exact ⟨rfl, found⟩

/-- A match of an expression between parentheses explains what stands there. -/
theorem explains_parenthesized {free : Nat}
    (deeper : ∀ lower, free = lower + 1 → Sound lower .expression (Grammar.expression lower))
    {opening : Lexeme} {rest : List Lexeme} (left : opening.token = some .leftParen)
    (orderly : Orderly (opening :: rest)) :
    Explains free .parenthesized [] (opening :: rest)
      (Grammar.parenthesized (Grammar.within Grammar.expression free) (opening :: rest)) := by
  rw [Grammar.parenthesized, Grammar.take?_cons left]
  -- Without a free level nothing behind the parenthesis is looked at.
  cases free with
  | zero => exact ⟨[opening], .deepParenthesis, rfl, .deepParenthesis left, rfl⟩
  | succ lower =>
    have inside := (deeper lower rfl rest (orderly.sublist (by simp))).inLevel
    refine inside.andThen [opening] ?_ ?_
    · intro inner tree behind cut derived bound settled
      cases taken : Grammar.take? .rightParen behind with
      | none =>
        -- The expression is complete, and the parenthesis is still open.
        have missing := Grammar.take?_eq_none_iff.mp taken
        exact ⟨[], .unclosed, rfl, by simpa using .unclosed left derived bound settled missing, rfl⟩
      | some result =>
        obtain ⟨closing, rest⟩ := result
        obtain ⟨rfl, right⟩ := Grammar.eq_of_take?_eq_some taken
        have ordered : Ordered (opening :: (inner ++ [closing])) :=
          orderly.ordered.sublist (by simp [cut])
        have cover := cover_extent_cons inner ordered (by simp)
        rw [extent_singleton] at cover
        refine ⟨[closing], rfl, ?_, Nat.succ_le_succ bound, ?_⟩
        · simpa [cover] using Derives.parenthesized left derived right
        · exact settled_of_last closing List.getLast?_concat (by simp [right]) rfl
    · intro taken rest cause stuck
      exact .parenthesized left stuck

/-- A decimal literal belongs to a minus that it stands right behind. -/
theorem Grammar.eq_of_gluedDecimal?_eq_some {minus digits : Lexeme} {lexemes rest : List Lexeme}
    (glued : gluedDecimal? minus lexemes = some (digits, rest)) :
    lexemes = digits :: rest ∧ digits.token = some .decimal ∧
      digits.span.offset = minus.span.stop := by
  obtain ⟨found, right⟩ := Option.filter_eq_some_iff.mp glued
  obtain ⟨rfl, token⟩ := eq_of_take?_eq_some found
  exact ⟨rfl, token, by simpa using right⟩

/-- A literal is derived from a lexeme of its kind, whose text is read as a number. -/
theorem Derives.of_literal {kind : LiteralKind} {lexeme : Lexeme}
    (token : lexeme.token = some kind.token)
    (spelled : kind.token.Matches lexeme.text.toList) :
    Derives .atom [lexeme] (Grammar.literal kind lexeme.text lexeme.span) := by
  -- What the pattern of its kind matches can be read.
  obtain ⟨value, found⟩ := Option.isSome_iff_exists.mp (kind.isSome_value?_of_matches spelled)
  have read : kind.read lexeme.text = .ok value := LiteralKind.read_eq_ok.mpr found
  rw [Grammar.literal_eq read]
  have derived : Derives kind.rule [lexeme] (.literal kind lexeme.text value lexeme.span) :=
    .literal rfl token read
  have listed : kind.rule ∈ Rule.number.alternatives := by cases kind <;> decide
  have number : Derives .number [lexeme] (.literal kind lexeme.text value lexeme.span) :=
    .alternative listed derived
  exact .alternative (by decide) number

/-- A minus and the decimal literal right behind it are derived as one literal. -/
theorem Derives.of_signed {minus digits : Lexeme} (sign : minus.token = some .minus)
    (token : digits.token = some .decimal) (glued : digits.span.offset = minus.span.stop)
    (orderly : Orderly [minus, digits]) :
    Derives .atom [minus, digits] (Grammar.literal .decimal (minus.text ++ digits.text)
      (minus.span.cover digits.span)) := by
  -- The two texts together are read as a number with a sign.
  have minusText : minus.text.toList = ['-'] :=
    (Token.matches_symbol rfl).mp (orderly.spelled minus (by simp) .minus sign)
  have digitsText := orderly.spelled digits (by simp) .decimal token
  have readable :
      (LiteralKind.decimal.value? (minus.text ++ digits.text).toList).isSome = true := by
    rw [String.toList_append, minusText]
    exact LiteralKind.isSome_value?_minus digitsText
  obtain ⟨value, found⟩ := Option.isSome_iff_exists.mp readable
  have read := LiteralKind.read_eq_ok.mpr found
  have cover : minus.span.cover digits.span = extent [minus, digits] :=
    extent_singleton digits ▸ cover_extent_cons [] orderly.ordered (by simp)
  rw [Grammar.literal_eq read, cover]
  have number : Derives .number [minus, digits] (.literal .decimal (minus.text ++ digits.text)
      value (extent [minus, digits])) :=
    .alternative (by decide) (.signed sign token glued read)
  exact .alternative (by decide) number

/-- A literal by itself explains its match, since no name is taken. -/
theorem explains_literal (free : Nat) (kind : LiteralKind) {lexeme : Lexeme} {rest : List Lexeme}
    (token : lexeme.token = some kind.token) (orderly : Orderly (lexeme :: rest)) :
    Explains free .atom [] (lexeme :: rest)
      (.matched (Grammar.literal kind lexeme.text lexeme.span) rest) := by
  have spelled := orderly.spelled lexeme List.mem_cons_self _ token
  refine ⟨[lexeme], rfl, .of_literal token spelled, Nat.zero_le _, ?_⟩
  -- No literal is a name that could be called or assigned to.
  apply settled_of_last lexeme rfl _ rfl
  rw [token]
  cases kind <;> decide

/-- Where no operand starts an atom explains why. -/
theorem explains_missing (free : Nat) {lexemes : List Lexeme} (missing : ¬ StartsOperand lexemes) :
    Explains free .atom [] lexemes (.failed .atom lexemes 0) :=
  ⟨[], .operand, rfl, .operand missing, rfl⟩

/-- A lexeme of a kind that no operand starts with explains why an atom fails. -/
theorem explains_other (free : Nat) {lexeme : Lexeme} {rest : List Lexeme}
    (other : ∀ kind, lexeme.token = some kind →
      kind ∉ [.hexadecimal, .binary, .decimal, .name, .minus, .leftParen]) :
    Explains free .atom [] (lexeme :: rest) (.failed .atom (lexeme :: rest) 0) := by
  -- No atom starts with a lexeme of another kind.
  apply explains_missing
  intro starts
  obtain ⟨kind, found, among⟩ := starts.token
  exact other kind found among

/-- A name that calls nothing explains its match as a variable. -/
theorem explains_reference (free : Nat) {name : Lexeme} {rest : List Lexeme}
    (token : name.token = some .name) (uncalled : Grammar.called? (name :: rest) = none) :
    Explains free .atom [] (name :: rest) (.matched (.reference name.text name.span) rest) := by
  refine ⟨[name], rfl, .alternative (by decide) (.reference token), Nat.zero_le _, ?_⟩
  refine ⟨by simp [Rule.operators], ?_, by simp⟩
  intro next isNext parenthesis last ends named
  -- With a parenthesis behind it the name of a function would be called.
  obtain ⟨others, rfl⟩ := List.head?_eq_some_iff.mp isNext
  obtain rfl : name = last := by simpa using ends
  simpa [Grammar.called?, Lexeme.isToken, token, parenthesis] using uncalled

/-- A minus explains its match with the literal right behind it, or why it is no operand. -/
theorem explains_minus (free : Nat) {minus : Lexeme} {rest : List Lexeme}
    (sign : minus.token = some .minus) (orderly : Orderly (minus :: rest))
    (inner : Option Matcher) :
    Explains free .atom [] (minus :: rest) (Grammar.atom inner (minus :: rest)) := by
  simp only [Grammar.atom, sign]
  cases glued : Grammar.gluedDecimal? minus rest with
  | some result =>
    obtain ⟨digits, others⟩ := result
    obtain ⟨rfl, decimal, right⟩ := Grammar.eq_of_gluedDecimal?_eq_some glued
    have derived := Derives.of_signed sign decimal right (orderly.sublist (by simp))
    refine ⟨[minus, digits], rfl, derived, Nat.zero_le _, ?_⟩
    exact settled_of_last digits rfl (by simp [decimal]) rfl
  | none =>
    apply explains_missing
    intro starts
    -- Of the ways in which an operand starts only that of a sign has a minus in front.
    cases starts with
    | @literal kind _ other => cases kind <;> simp [sign, LiteralKind.token] at other
    | @signed _ digits sign decimal right others =>
      simp [Grammar.gluedDecimal?_cons decimal right] at glued
    | name other => simp [sign] at other
    | parenthesis other => simp [sign] at other

/-- A match of a literal, a variable or parentheses explains what stands there. -/
theorem explains_atom {free : Nat}
    (deeper : ∀ lower, free = lower + 1 → Sound lower .expression (Grammar.expression lower))
    {lexemes : List Lexeme} (orderly : Orderly lexemes)
    (uncalled : Grammar.called? lexemes = none) :
    Explains free .atom [] lexemes
      (Grammar.atom (Grammar.within Grammar.expression free) lexemes) := by
  cases lexemes with
  | nil =>
    apply explains_missing
    intro starts
    cases starts
  | cons lexeme rest =>
    -- The kind of the first lexeme tells which operand it starts, if it starts one.
    cases token : lexeme.token with
    | none => simpa only [Grammar.atom, token] using explains_other free (by simp [token])
    | some kind =>
      cases kind with
      | hexadecimal =>
        simpa only [Grammar.atom, token] using explains_literal free .hexadecimal token orderly
      | binary =>
        simpa only [Grammar.atom, token] using explains_literal free .binary token orderly
      | decimal =>
        simpa only [Grammar.atom, token] using explains_literal free .decimal token orderly
      | name => simpa only [Grammar.atom, token] using explains_reference free token uncalled
      | minus => exact explains_minus free token orderly _
      | leftParen =>
        simp only [Grammar.atom, token]
        refine (explains_parenthesized deeper token orderly).alternative (by decide) ?_
        intro taken tree rest cut derived settled
        exact settled.congr rfl (by decide)
      | plus => simpa only [Grammar.atom, token] using explains_other free (by simp [token])
      | star => simpa only [Grammar.atom, token] using explains_other free (by simp [token])
      | slash => simpa only [Grammar.atom, token] using explains_other free (by simp [token])
      | caret => simpa only [Grammar.atom, token] using explains_other free (by simp [token])
      | equals => simpa only [Grammar.atom, token] using explains_other free (by simp [token])
      | rightParen => simpa only [Grammar.atom, token] using explains_other free (by simp [token])

/-- A function is called by its name and the parenthesis behind it. -/
theorem Grammar.eq_of_called?_eq_some {lexemes rest : List Lexeme} {function : NamedFunction}
    {name : Lexeme} (called : called? lexemes = some (function, name, rest)) :
    lexemes = name :: rest ∧ name.token = some .name ∧ name.text = function.keyword ∧
      ∃ opening others, rest = opening :: others ∧ opening.token = some .leftParen := by
  match lexemes with
  | [] => contradiction
  | [only] => contradiction
  | first :: opening :: others =>
    -- Both lexemes are looked at, and the name is looked up.
    simp only [Grammar.called?, Lexeme.isToken, Bool.and_eq_true, beq_iff_eq,
      Option.ite_none_right_eq_some, Option.map_eq_some_iff, Prod.mk.injEq] at called
    obtain ⟨⟨named, left⟩, found, calls, rfl, rfl, rfl⟩ := called
    have keyword := List.find?_some calls
    exact ⟨rfl, named, (beq_iff_eq.mp keyword).symm, opening, others, rfl, left⟩

/-- A match of a call or an atom explains what stands there. -/
theorem sound_signedAtom {free : Nat}
    (deeper : ∀ lower, free = lower + 1 → Sound lower .expression (Grammar.expression lower)) :
    Sound free .signedAtom (Grammar.signedAtom (Grammar.within Grammar.expression free)) := by
  intro lexemes orderly
  rw [Grammar.signedAtom]
  cases called : Grammar.called? lexemes with
  -- Without a call the operators that may follow are those of an atom.
  | none =>
    refine (explains_atom deeper orderly called).alternative (by decide) ?_
    intro taken tree rest cut derived settled
    exact settled.congr rfl (by decide)
  | some result =>
    obtain ⟨function, name, argument⟩ := result
    obtain ⟨rfl, named, keyword, opening, others, rfl, left⟩ :=
      Grammar.eq_of_called?_eq_some called
    have behind : Orderly (opening :: others) := orderly.sublist (by simp)
    -- Behind the name the argument is matched as parentheses are anywhere else.
    have inside := explains_parenthesized deeper left behind
    refine inside.andThen [name] ?_ ?_
    · intro taken tree rest cut derived bound settled
      have ordered : Ordered (name :: taken) := orderly.ordered.sublist (by simp [cut])
      have cover : name.span.cover (extent taken) = extent (name :: taken) :=
        cover_extent_cons [] ordered derived.ne_nil
      rw [derived.span_eq, cover]
      have whole := settled.append derived.ne_nil (by decide) [name]
      exact .done (.alternative (by decide) (.call named keyword derived)) bound
        (whole.congr rfl (by decide))
    · intro taken rest cause stuck
      exact .alternative (by decide) (.call named keyword stuck)

/-- Only a caret writes the operator of powers. -/
theorem Token.eq_caret {kind : Option Token} (token : kind.bind Token.operator? = some .power) :
    kind = some .caret := by
  -- Every other kind writes another operator or none.
  obtain ⟨own, rfl, writes⟩ := Option.bind_eq_some_iff.mp token
  cases own <;> first | rfl | contradiction

/-- Where no caret follows a base, the base settles as a power. -/
theorem Settled.of_take?_eq_none {base rest : List Lexeme}
    (settled : Settled .signedAtom base rest) (nothing : Grammar.take? .caret rest = none) :
    Settled .powerExpression base rest := by
  refine ⟨?_, settled.noArgument, fun _ _ _ same => by contradiction⟩
  intro next isNext operator among token
  -- Of all operators only a caret would go on with a power.
  obtain rfl : operator = .power := by simpa [Rule.operators] using among
  exact Grammar.take?_eq_none_iff.mp nothing next isNext (Token.eq_caret token)

/-- A match of a power explains what stands there. -/
theorem sound_power {free : Nat}
    (deeper : ∀ lower, free = lower + 1 → Sound lower .expression (Grammar.expression lower) ∧
      Sound lower .powerExpression (Grammar.power lower)) :
    Sound free .powerExpression (Grammar.power free) := by
  intro lexemes orderly
  rw [Grammar.power_eq]
  have atom := sound_signedAtom (fun lower same => (deeper lower same).1) lexemes orderly
  refine atom.andThen [] ?_ ?_
  · intro base left rest cut derived bound baseSettled
    cases taken : Grammar.take? .caret rest with
    | none =>
      -- Without a caret the base is all of the power.
      exact .done (.alternative (by decide) derived) bound (baseSettled.of_take?_eq_none taken)
    | some result =>
      obtain ⟨caret, behind⟩ := result
      obtain ⟨rfl, token⟩ := Grammar.eq_of_take?_eq_some taken
      subst cut
      -- The exponent goes one level deeper, if one is free.
      cases free with
      | zero =>
        exact ⟨[caret], .deepExponent, rfl, .deepExponent derived bound token, rfl⟩
      | succ lower =>
        have inside := ((deeper lower rfl).2 behind (orderly.sublist (by simp))).inLevel
        refine inside.andThen [caret] ?_ ?_
        · intro exponent right rest cut rightDerived rightBound settled
          subst cut
          have whole := operation_eq [caret] derived rightDerived
            (orderly.ordered.sublist (by simp)) .power
          have levels : (Grammar.operation left .power right).nest ≤ lower + 1 := by
            simp only [Grammar.operation, Expr.nest, if_true]
            omega
          rw [whole] at levels ⊢
          have behind := settled.append rightDerived.ne_nil (by decide) (base ++ [caret])
          exact .done (.power derived token rightDerived) levels (by simpa using behind)
        · intro taken rest cause stuck
          exact .power derived bound token stuck
  · intro taken rest cause stuck
    exact .alternative (by decide) stuck

/-- An operator is found at the first lexeme, which writes it. -/
theorem Grammar.eq_of_operator?_eq_some {accepted : List Operator} {operator : Operator}
    {lexemes rest : List Lexeme} (found : operator? accepted lexemes = some (operator, rest)) :
    ∃ sign, lexemes = sign :: rest ∧ sign.token.bind Token.operator? = some operator ∧
      operator ∈ accepted := by
  cases lexemes with
  -- From no lexemes no operator is taken.
  | nil => contradiction
  | cons sign others =>
    simp only [Grammar.operator?, Option.map_eq_some_iff, Option.filter_eq_some_iff,
      List.contains_iff_mem, Prod.mk.injEq] at found
    obtain ⟨_, ⟨token, among⟩, rfl, rfl⟩ := found
    exact ⟨sign, rfl, token, among⟩

/-- Where no operator of a layer follows its last operand, what has been folded settles. -/
theorem Settled.of_operator?_eq_none {rule operand : Rule} {accepted : List Operator}
    (folds : rule.Folds operand accepted) {former rest : List Lexeme}
    (settled : Settled operand former rest) (nothing : Grammar.operator? accepted rest = none) :
    Settled rule former rest := by
  refine ⟨?_, settled.noArgument, fun _ _ _ same => absurd same folds.inner.1⟩
  intro next isNext operator among
  -- The operators are those of the layer and those below, which the operand has left.
  rw [folds.operators_eq] at among
  rcases List.mem_append.mp among with own | below
  · exact Grammar.operator?_eq_none_iff.mp nothing next isNext operator own
  · exact settled.noOperator next isNext operator below

/-- The rounds of a chain explain what stands behind the operands that have been folded. -/
theorem explains_chainFrom {free : Nat} {rule operand : Rule} {accepted : List Operator}
    (layer : rule.layer? = some (accepted, operand)) {matcher : Matcher}
    (sound : Sound free operand matcher) :
    ∀ rounds left former lexemes, Orderly (former ++ lexemes) → Derives rule former left →
      left.nest ≤ free → Settled operand former lexemes → lexemes.length ≤ rounds →
        Explains free rule former lexemes
          (Grammar.chainFrom accepted matcher rounds left lexemes) := by
  have folds := Rule.folds_of_layer? layer
  intro rounds
  -- Each round folds one more operand, and there are rounds enough for all lexemes.
  induction rounds with
  | zero =>
    intro left former lexemes orderly derived bound settled enough
    obtain rfl := List.eq_nil_of_length_eq_zero (Nat.le_zero.mp enough)
    exact .done derived bound ⟨by simp, by simp, by simp⟩
  | succ rounds ih =>
    intro left former lexemes orderly derived bound formerSettled enough
    rw [Grammar.chainFrom]
    cases found : Grammar.operator? accepted lexemes with
    | none =>
      -- All operands have been folded.
      exact .done derived bound (formerSettled.of_operator?_eq_none folds found)
    | some result =>
      obtain ⟨operator, behind⟩ := result
      obtain ⟨sign, rfl, token, among⟩ := Grammar.eq_of_operator?_eq_some found
      have inside := sound behind (orderly.sublist (by simp))
      refine inside.andThen [sign] ?_ ?_
      · intro latter right rest cut rightDerived rightBound settled
        subst cut
        have whole := operation_eq [sign] derived rightDerived
          (orderly.ordered.sublist (by simp)) operator
        have levels : (Grammar.operation left operator right).nest ≤ free := by
          simp only [Grammar.operation, Expr.nest, (folds.loose operator among).2, if_false]
          omega
        -- What settles behind the right operand settles behind all that has been folded.
        have folded := settled.append rightDerived.ne_nil folds.inner.2 (former ++ [sign])
        have fewer : rest.length ≤ rounds := by
          simp only [List.length_cons, List.length_append] at enough
          omega
        apply ih _ (former ++ ([sign] ++ latter)) rest (by simpa using orderly) _ levels _ fewer
        · rw [whole]
          exact .fold layer derived token among rightDerived
        · simpa using folded
      · intro taken rest cause stuck
        exact .fold layer derived bound token among stuck

/-- A match of operands in a row explains what stands there. -/
theorem sound_chain {free : Nat} {rule operand : Rule} {accepted : List Operator}
    (layer : rule.layer? = some (accepted, operand))
    (sound : Sound free operand (operand.matcher free)) : Sound free rule (rule.matcher free) := by
  have folds := Rule.folds_of_layer? layer
  have listed : operand ∈ rule.alternatives := by simp [folds.alternatives_eq]
  intro lexemes orderly
  rw [folds.matcher_eq free, Grammar.chain]
  -- The first operand is the start of the chain, and as many rounds follow as lexemes are left.
  refine (sound lexemes orderly).andThen [] ?_ ?_
  · intro taken left rest cut derived bound settled
    exact explains_chainFrom layer sound rest.length left taken rest (cut ▸ orderly)
      (.alternative listed derived) bound settled (Nat.le_refl _)
  · intro taken rest cause stuck
    exact .alternative listed stuck

/-- An assignment starts with a name and an equals sign. -/
theorem Grammar.eq_of_assignmentOver?_eq_some {power : Matcher} {lexemes : List Lexeme}
    {outcome : Outcome} (assigned : assignmentOver? power lexemes = some outcome) :
    ∃ name equals rest, lexemes = name :: equals :: rest ∧ name.token = some .name ∧
      equals.token = some .equals ∧
        outcome = (additiveOver power rest).andThen fun value rest => .matched
          (.assignment ⟨name.text, name.span⟩ value (name.span.cover value.span)) rest := by
  match lexemes with
  | [] => contradiction
  | [only] => contradiction
  | name :: equals :: rest =>
    -- Both of the first lexemes are looked at before anything is matched.
    simp only [assignmentOver?, Lexeme.isToken, Bool.and_eq_true, beq_iff_eq,
      Option.ite_none_right_eq_some, Option.some.injEq] at assigned
    obtain ⟨⟨target, token⟩, rfl⟩ := assigned
    exact ⟨name, equals, rest, rfl, target, token, rfl⟩

/-- What an assignment is derived from starts with a name and an equals sign. -/
theorem Derives.starts_assignment {lexemes : List Lexeme} {tree : Expr}
    (derived : Derives .assignment lexemes tree) :
    ∃ name equals rest, lexemes = name :: equals :: rest ∧ name.token = some .name ∧
      equals.token = some .equals := by
  -- An assignment is derived in one way only.
  cases derived with
  | alternative listed derived => contradiction
  | @literal kind _ lexeme value named token read => cases kind <;> contradiction
  | fold layer leftDerived token among rightDerived => contradiction
  | assignment target token derived => exact ⟨_, _, _, rfl, target, token⟩

/-- A match of an assignment explains what stands there. -/
theorem explains_assignment {free : Nat}
    (sound : Sound free .algebraicExpression (Grammar.additive free)) {lexemes : List Lexeme}
    (orderly : Orderly lexemes) {outcome : Outcome}
    (assigned : Grammar.assignmentOver? (Grammar.power free) lexemes = some outcome) :
    Explains free .assignment [] lexemes outcome := by
  obtain ⟨name, equals, value, rfl, target, token, rfl⟩ :=
    Grammar.eq_of_assignmentOver?_eq_some assigned
  -- The value is a sum, and what settles behind it settles behind the assignment.
  refine (sound value (orderly.sublist (by simp))).andThen [name, equals] ?_ ?_
  · intro taken tree rest cut derived bound settled
    have ordered : Ordered (name :: equals :: taken) := orderly.ordered.sublist (by simp [cut])
    have cover : name.span.cover (extent taken) = extent (name :: equals :: taken) :=
      cover_extent_cons [equals] ordered derived.ne_nil
    rw [derived.span_eq, cover]
    have behind := settled.append derived.ne_nil (by decide) [name, equals]
    exact .done (.assignment target token derived) bound (behind.congr rfl (by decide))
  · intro taken rest cause stuck
    exact .assignment target token stuck

/-- A match of an expression explains what stands there. -/
theorem sound_expression {free : Nat}
    (sound : Sound free .algebraicExpression (Grammar.additive free)) :
    Sound free .expression (Grammar.expression free) := by
  intro lexemes orderly
  rw [Grammar.expression, Grammar.expressionOver]
  cases assigned : Grammar.assignmentOver? (Grammar.power free) lexemes with
  | none =>
    refine (sound lexemes orderly).alternative (by decide) ?_
    intro taken tree rest cut derived settled
    refine ⟨settled.noOperator, settled.noArgument, ?_⟩
    intro next isNext equals _ name alone named
    -- A name with an equals sign behind it would be assigned to.
    obtain ⟨others, rfl⟩ := List.head?_eq_some_iff.mp isNext
    subst cut alone
    simp [Grammar.assignmentOver?, Lexeme.isToken, named, equals] at assigned
  | some outcome =>
    refine (explains_assignment sound orderly assigned).alternative (by decide) ?_
    intro taken tree rest cut derived settled
    refine ⟨settled.noOperator, settled.noArgument, ?_⟩
    intro next isNext equals _ only alone
    -- More than a name has been taken.
    obtain ⟨name, sign, value, rfl, _⟩ := derived.starts_assignment
    simp at alone

/-- Where powers are matched soundly, sums are. -/
theorem Sound.additive {free : Nat} (power : Sound free .powerExpression (Grammar.power free)) :
    Sound free .algebraicExpression (Grammar.additive free) := by
  have product : Sound free .multiplyingExpression (Grammar.multiplicative free) :=
    sound_chain rfl power
  exact sound_chain rfl product

/-- Matches with any number of levels free explain what stands there. -/
theorem sound_expression_and_power : ∀ free,
    Sound free .expression (Grammar.expression free) ∧
      Sound free .powerExpression (Grammar.power free) := by
  -- Parentheses and exponents lead to the same rules with one level less.
  intro free
  induction free with
  | zero =>
    have power : Sound 0 .powerExpression (Grammar.power 0) :=
      sound_power (fun lower same => nomatch same)
    exact ⟨sound_expression power.additive, power⟩
  | succ free ih =>
    have power : Sound (free + 1) .powerExpression (Grammar.power (free + 1)) := by
      apply sound_power
      intro lower same
      exact Nat.succ.inj same ▸ ih
    exact ⟨sound_expression power.additive, power⟩

end Reckon
