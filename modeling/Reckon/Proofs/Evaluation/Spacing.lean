import Mathlib.Logic.Relation
import Reckon.Proofs.Evaluation.Outcome
import Reckon.Proofs.Grammar.Alignment
import Reckon.Proofs.Grammar.WrittenLine

/-! The gaps of a line, which matter only between a minus and the digits behind it. -/

namespace Reckon

/-- The kinds and texts of lexemes do not depend on where their text starts. -/
theorem spelling_lexemesFrom (text : List Char) (taken offset other : Nat) :
    (lexemesFrom taken offset text).map Lexeme.spelling =
      (lexemesFrom taken other text).map Lexeme.spelling := by
  -- The offset is carried along, and no step looks at it.
  induction text generalizing taken offset other with
  | nil => simp [lexemesFrom]
  | cons c rest ih =>
    cases taken with
    | succ taken => exact ih taken _ _
    | zero =>
      simp only [lexemesFrom]
      split
      · exact ih 0 _ _
      · -- A lexeme that starts here is of the same kind and text, and the others follow.
        split
        · rw [List.map_cons, List.map_cons, ih]
          rfl
        · rw [List.map_cons, List.map_cons, ih]
          rfl

/-- Two texts that are split part by part have the lexemes of both, but for where they stand. -/
theorem Splits.spelling_append {first second third : Nat} {front back : List Char}
    {former latter whole : List Lexeme} (frontSplit : Splits first front former)
    (backSplit : Splits second back latter) (apart : Apart front back)
    (split : Splits third (front ++ back) whole) :
    whole.map Lexeme.spelling = former.map Lexeme.spelling ++ latter.map Lexeme.spelling := by
  -- The second text is split again right behind the first one.
  have moved := splits_lexemesFrom back (first + byteLength front)
  have again := frontSplit.append moved apart
  rw [splits_iff.mp split, spelling_lexemesFrom _ _ _ first, ← splits_iff.mp again,
    List.map_append, splits_iff.mp backSplit, spelling_lexemesFrom _ _ _ second]

/-- A place that is inside of no lexeme divides those in order into the ones on its sides. -/
theorem Ordered.exists_divided {lexemes : List Lexeme} (ordered : Ordered lexemes) {place : Nat}
    (outside : ∀ lexeme ∈ lexemes, lexeme.span.stop ≤ place ∨ place ≤ lexeme.span.offset) :
    ∃ former latter, lexemes = former ++ latter ∧ (∀ lexeme ∈ former, lexeme.span.stop ≤ place) ∧
      ∀ lexeme ∈ latter, place ≤ lexeme.span.offset := by
  induction lexemes with
  | nil => exact ⟨[], [], rfl, by simp, by simp⟩
  | cons first rest ih =>
    obtain ⟨order, restOrdered⟩ := List.pairwise_cons.mp ordered
    obtain ⟨own, others⟩ := List.forall_mem_cons.mp outside
    -- A lexeme that ends in front of the place belongs to the ones before it.
    rcases own with before | behind
    · obtain ⟨former, latter, rfl, stops, starts⟩ := ih restOrdered others
      exact ⟨first :: former, latter, rfl, List.forall_mem_cons.mpr ⟨before, stops⟩, starts⟩
    · -- All others start where the first one ends or later.
      refine ⟨[], first :: rest, rfl, by simp, List.forall_mem_cons.mpr ⟨behind, ?_⟩⟩
      intro lexeme member
      have later := order lexeme member
      simp only [Span.stop] at later
      omega

/-- A line with one more text of gaps in it, at its start, at its end or between two lexemes. -/
def Inserts (line wider : String) : Prop :=
  ∃ front gap back, line.toList = front ++ back ∧ wider.toList = front ++ (gap ++ back) ∧
    Gaps gap ∧ ∀ lexeme ∈ lexemesOf line,
      lexeme.span.stop ≤ byteLength front ∨ byteLength front ≤ lexeme.span.offset

/-- One more text of gaps leaves the kinds and texts of all lexemes as they are. -/
theorem Inserts.spelling_eq {line wider : String} (inserts : Inserts line wider) :
    (lexemesOf wider).map Lexeme.spelling = (lexemesOf line).map Lexeme.spelling := by
  obtain ⟨front, gap, back, cut, whole, gaps, outside⟩ := inserts
  have split := splits_lexemesOf line
  obtain ⟨former, latter, parts, before, behind⟩ := Ordered.exists_divided split.ordered outside
  rw [cut, parts] at split
  -- The place divides the line, and behind it the gaps are passed over.
  obtain ⟨first, second⟩ := split.divide (by simpa using before) (by simpa using behind)
  have wide := splits_lexemesOf wider
  rw [whole] at wide
  cases gap with
  | nil =>
    rw [List.nil_append] at wide
    rw [splits_iff.mp wide, ← splits_iff.mp split, parts]
  | cons c more =>
    have moved := splits_lexemesFrom back (0 + byteLength front + byteLength (c :: more))
    -- A gap keeps what is in front of it apart from what is behind.
    have apart := Apart.of_head front (more ++ back) (breaks_of_gap (gaps c List.mem_cons_self))
    rw [first.spelling_append (gaps.splits_append_iff.mpr moved) apart wide, parts, List.map_append,
      splits_iff.mp second, spelling_lexemesFrom]

/-- Any number of texts of gaps leave the kinds and texts of all lexemes as they are. -/
theorem spelling_eq_of_inserts {line wider : String}
    (inserted : Relation.ReflTransGen Inserts line wider) :
    (lexemesOf wider).map Lexeme.spelling = (lexemesOf line).map Lexeme.spelling := by
  -- One text is put in after the other.
  induction inserted with
  | refl => rfl
  | tail _ inserts ih => rw [inserts.spelling_eq, ih]

/-- What is left of a text without its gaps is what is left of its lexemes. -/
theorem Splits.filter_eq {offset : Nat} {text : List Char} {lexemes : List Lexeme}
    (split : Splits offset text lexemes) :
    text.filter (fun c => !isGap c) = lexemes.flatMap fun lexeme => lexeme.text.toList := by
  -- A gap adds to neither side, and a lexeme has no gap in it.
  induction split with
  | done offset => rfl
  | gap gap later ih => simp [gap, ih]
  | unknown solid nothing later ih => simp [solid, ih]
  | @known offset token taken rest lexemes found later ih =>
    have solid := (Token.matches_of_leading? found).solid
    rw [List.filter_append, ih, List.filter_eq_self.mpr (by simpa using solid)]
    simp

namespace Expr

/-- The tree with every range in it forgotten, and the gaps in the text of a header too. -/
def unspaced (tree : Expr) : Expr :=
  match tree.shape with
  | .header text span => .header (String.ofList (text.toList.filter fun c => !isGap c)) span
  | shape => shape

/-- Neither ranges nor the text of a header matter to what a tree comes to. -/
@[simp] theorem outcome_unspaced (tree : Expr) (bindings : Bindings) :
    tree.unspaced.outcome bindings = tree.outcome bindings := by
  cases tree with
  | header text span => rfl
  | _ => exact outcome_shape _ bindings

end Expr

/-- One minus sign or more, and nothing else. -/
def OnlySigns (lexemes : List Lexeme) : Prop :=
  lexemes ≠ [] ∧ ∀ lexeme ∈ lexemes, lexeme.token = some .minus

/-- Whether lexemes are minus signs is a matter of their kinds. -/
theorem onlySigns_iff {lexemes others : List Lexeme}
    (spelled : lexemes.map Lexeme.spelling = others.map Lexeme.spelling) :
    OnlySigns lexemes ↔ OnlySigns others := by
  -- The kinds are a part of what the lexemes are spelled as.
  have general (lexemes : List Lexeme) : OnlySigns lexemes ↔ lexemes.map Lexeme.spelling ≠ [] ∧
      ∀ spelling ∈ lexemes.map Lexeme.spelling, spelling.1 = some .minus := by
    rw [OnlySigns, List.forall_mem_map, ne_eq, ne_eq, List.map_eq_nil_iff]
    rfl
  rw [general, general, spelled]

/-- Only minus signs are a header. -/
theorem headerSpan?_eq_none {line : String} (plain : ¬ OnlySigns (lexemesOf line)) :
    Grammar.headerSpan? (lexemesOf line) = none := by
  rw [Option.eq_none_iff_forall_ne_some]
  intro span header
  -- Only a line of nothing but signs has the range of a header.
  have signs := (Grammar.headerSpan?_eq_some_iff (orderly_lexemesOf line).ordered).mp header
  exact plain ⟨signs.1, signs.2.1⟩

/-- A line of minus signs is a header, with the texts of its lexemes but for the gaps between. -/
theorem OnlySigns.exists_parse {line : String} (signs : OnlySigns (lexemesOf line)) :
    ∃ text span, parse line = .ok (.header (String.ofList text) span) ∧
      text.filter (fun c => !isGap c) =
        (lexemesOf line).flatMap fun lexeme => lexeme.text.toList := by
  have split := splits_lexemesOf line
  rcases gaps_or_exists_trimmed line.toList with gaps | found
  · -- A line of gaps has no lexemes.
    have missing := splits_iff.mp (gaps.splits 0)
    rw [← splits_iff.mp split] at missing
    exact absurd missing.symm signs.1
  · obtain ⟨before, text, after, cut, leading, trimmed, trailing⟩ := found
    -- The text of the header is cut from the first sign to the last.
    have taken : slice? line.toList (extent (lexemesOf line)).offset
        (extent (lexemesOf line)).length = some text := by
      rw [cut] at split ⊢
      rw [(split.extent_eq leading trimmed trailing).2, Nat.zero_add]
      exact slice?_append before text after
    refine ⟨text, _, parse_eq_of_header signs.1 signs.2 taken, ?_⟩
    -- Around the text there is nothing but gaps.
    have outside {gap : List Char} (gaps : Gaps gap) : gap.filter (fun c => !isGap c) = [] := by
      simpa [List.filter_eq_nil_iff, Gaps] using gaps
    rw [← split.filter_eq, cut, List.filter_append, List.filter_append, outside leading,
      outside trailing, List.nil_append, List.append_nil]

/-- A line is rejected by a rule in front of the lexeme of an index, or at its end without one. -/
structure RejectedAt (line : String) (rule : Rule) (index : Nat) : Prop where
  index_le : index ≤ (lexemesOf line).length
  parse_eq : parse line = .error (Cursor.error ⟨line, (lexemesOf line).drop index, 0⟩ rule)

/-- Two lines that are accepted as one tree but for its spaces, or rejected in one place. -/
inductive ReadsLike (line other : String) : Prop where
  | accepted {tree same : Expr} (parsed : parse line = .ok tree) (again : parse other = .ok same)
      (unspaced : tree.unspaced = same.unspaced) (yields : ∀ session : Session, ∃ value next,
        session.Yields line value next ∧ session.Yields other value next) :
      ReadsLike line other
  | rejected {rule : Rule} {index : Nat} (first : RejectedAt line rule index)
      (second : RejectedAt other rule index) : ReadsLike line other

/-- Lines that are accepted as one tree but for its spaces come to the same in every session. -/
theorem ReadsLike.of_unspaced {line other : String} {tree same : Expr}
    (parsed : parse line = .ok tree) (again : parse other = .ok same)
    (unspaced : tree.unspaced = same.unspaced) : ReadsLike line other := by
  refine .accepted parsed again unspaced fun session => ?_
  -- What is forgotten does not matter to evaluation.
  have outcome : same.outcome session.bindings = tree.outcome session.bindings := by
    rw [← Expr.outcome_unspaced, ← unspaced, Expr.outcome_unspaced]
  refine ⟨(tree.outcome session.bindings).1, ⟨(tree.outcome session.bindings).2⟩, ?_, ?_⟩
  · exact Session.yields_iff.mpr ⟨tree, parsed, rfl⟩
  · exact Session.yields_iff.mpr ⟨same, again, outcome⟩

/-- A line is parsed as it is matched, with all levels free. -/
theorem parse_eq_settle (line : String) : parse line =
    ((Cursor.ofLine line).settle (Grammar.session line levelLimit (lexemesOf line))).1 := rfl

/-- Aligned lines of which neither is a header are matched the same. -/
theorem agrees_session {line other : String}
    (aligned : Aligned true (lexemesOf line) (lexemesOf other))
    (plain : ¬ OnlySigns (lexemesOf line)) (otherPlain : ¬ OnlySigns (lexemesOf other)) :
    (Grammar.session line levelLimit (lexemesOf line)).Agrees
      (Grammar.session other levelLimit (lexemesOf other)) := by
  simp only [Grammar.session, headerSpan?_eq_none plain, headerSpan?_eq_none otherPlain]
  refine (respects_expression levelLimit _ _ aligned).andThen ?_
  intro tree same rest others shape aligned
  have length := aligned.length_eq
  -- Both have lexemes left over, or neither has.
  cases aligned with
  | nil => exact .matched shape .nil
  | cons token text joined later => exact .failed length

/-- Where a line fails to match, the lexemes that are left tell the index of its rejection. -/
theorem exists_rejectedAt {line : String} {rule : Rule} {rest : List Lexeme} {opened : Nat}
    (failed : Grammar.session line levelLimit (lexemesOf line) = .failed rule rest opened) :
    ∃ index, index + rest.length = (lexemesOf line).length ∧ RejectedAt line rule index := by
  -- What has been taken before the failure is what stands in front of what is left.
  obtain ⟨taken, cut⟩ : ∃ taken, lexemesOf line = taken ++ rest := by
    have explains := (sound_expression_and_power levelLimit).1 _ (orderly_lexemesOf line)
    rw [Grammar.session] at failed
    split at failed
    · contradiction
    · cases outcome : Grammar.expression levelLimit (lexemesOf line) with
      | matched tree behind =>
        rw [outcome] at failed explains
        obtain ⟨taken, cut, _⟩ := explains
        simp only [Outcome.andThen] at failed
        split at failed
        · contradiction
        · obtain ⟨_, rfl, _⟩ := Outcome.failed.inj failed
          exact ⟨taken, cut⟩
      | failed reported behind levels =>
        rw [outcome] at failed explains
        obtain ⟨taken, _, cut, _⟩ := explains
        obtain ⟨_, rfl, _⟩ := Outcome.failed.inj failed
        exact ⟨taken, cut⟩
  refine ⟨taken.length, by rw [cut, List.length_append], ?_, ?_⟩
  · rw [cut, List.length_append]
    exact Nat.le_add_right _ _
  · rw [parse_eq_settle, failed, cut, List.drop_left]
    rfl

/--
Gaps do not matter to a line, but for those between a minus in the place of an operand and the
digits behind it.

Lines of the same lexemes with the same such gaps are accepted as one tree or rejected in one place,
and gaps that are put in anywhere around lexemes leave all of them as they are.
-/
theorem readsLike_of_adjacencies (line : String) :
    (∀ other, (lexemesOf line).map Lexeme.spelling = (lexemesOf other).map Lexeme.spelling →
      adjacencies true (lexemesOf line) = adjacencies true (lexemesOf other) →
        ReadsLike line other) ∧
    ∀ wider, Relation.ReflTransGen Inserts line wider →
      (lexemesOf wider).map Lexeme.spelling = (lexemesOf line).map Lexeme.spelling := by
  refine ⟨?_, fun wider inserted => spelling_eq_of_inserts inserted⟩
  intro other spelled joined
  -- Headers are told apart first, since the grammar takes them as a whole.
  by_cases header : OnlySigns (lexemesOf line)
  · obtain ⟨text, span, parsed, signs⟩ := header.exists_parse
    obtain ⟨same, place, again, hyphens⟩ := ((onlySigns_iff spelled).mp header).exists_parse
    -- The texts of the signs are what both headers have in common.
    have texts := congrArg (List.flatMap fun spelling => spelling.2.toList) spelled
    simp only [List.flatMap_map, Lexeme.spelling] at texts
    refine .of_unspaced parsed again ?_
    simp only [Expr.unspaced, Expr.shape, String.toList_ofList, signs, hyphens, texts]
  · have agrees := agrees_session (.of_adjacencies spelled joined) header
      (mt (onlySigns_iff spelled).mpr header)
    have length := congrArg List.length spelled
    simp only [List.length_map] at length
    generalize former : Grammar.session line levelLimit (lexemesOf line) = outcome at agrees
    generalize latter : Grammar.session other levelLimit (lexemesOf other) = following at agrees
    cases agrees with
    | @matched tree same rest others shape aligned =>
      have parsed : parse line = .ok tree := by
        rw [parse_eq_settle, former]
        rfl
      have again : parse other = .ok same := by
        rw [parse_eq_settle, latter]
        rfl
      exact .of_unspaced parsed again (by simp only [Expr.unspaced, shape])
    | failed count =>
      -- Both lines have as many lexemes, and as many of them are left.
      obtain ⟨index, position, first⟩ := exists_rejectedAt former
      obtain ⟨place, otherPosition, second⟩ := exists_rejectedAt latter
      obtain rfl : index = place := by omega
      exact .rejected first second

-- The gaps that are left out above do matter: without digits next to it a sign is no operand.
example : (parse "2^-3").isOk = true ∧ (parse "2^- 3").isOk = false := by decide +kernel

/-- A space behind a minus that is an operator does not separate it from the digits of a literal. -/
theorem readsLike_subtraction :
    ReadsLike "y=-2 -3*( x )" "y = -2-3*(x)" ∧
      (lexemesOf "y=-2 - 3*( x )\t").map Lexeme.spelling =
        (lexemesOf "y=-2 -3*( x )").map Lexeme.spelling := by
  obtain ⟨alike, wider⟩ := readsLike_of_adjacencies "y=-2 -3*( x )"
  have space : Inserts "y=-2 -3*( x )" "y=-2 - 3*( x )" :=
    ⟨"y=-2 -".toList, [' '], "3*( x )".toList, by decide +kernel, by decide +kernel,
      by simp [Gaps, isGap], by decide +kernel⟩
  have tab : Inserts "y=-2 - 3*( x )" "y=-2 - 3*( x )\t" :=
    ⟨"y=-2 - 3*( x )".toList, ['\t'], [], by decide +kernel, by decide +kernel,
      by simp [Gaps, isGap], by decide +kernel⟩
  exact ⟨alike _ (by decide +kernel) (by decide +kernel), wider _ (.tail (.single space) tab)⟩

end Reckon
