import Reckon.Proofs.Cursor.Run

/-! A match from a position takes the lexemes that derive its tree, and no fewer. -/

namespace Reckon

/-- Where a rule derives a tree, its match is that of the rule with the levels that are free. -/
theorem Entry.outcome?_of_derives {entry : Entry} {rule : Rule} (named : entry.rule? = some rule)
    {taken : List Lexeme} {tree : Expr} (derived : Derives rule taken tree) (source : String)
    (rest : List Lexeme) (free : Nat) :
    entry.outcome? source (taken ++ rest) free = some (rule.matcher free (taken ++ rest)) := by
  -- All entries but that of an assignment call the rule of the same name.
  cases entry with
  | session => contradiction
  | expression | additive | multiplicative | power =>
    obtain rfl := Option.some.inj named
    rfl
  | assignment =>
    obtain rfl := Option.some.inj named
    obtain ⟨name, equals, value, rfl, target, token⟩ := derived.starts_assignment
    -- An assignment that starts here is the expression that is matched here.
    rcases Grammar.assignment?_cases (name :: equals :: value ++ rest) with absent | starts
    · have absent := absent free
      simp [Grammar.assignment?, Grammar.assignmentOver?, Lexeme.isToken, target, token] at absent
    · exact starts free

/-- A match of a rule takes what derives its tree, as far as the lexemes go on with it. -/
structure PrefixMatch (entry : Entry) (rule : Rule) (cursor : Cursor) : Prop where
  /--
  The lexemes that were taken derive the tree, which reaches from the first to the last of them.

  The lexeme behind them is no operator of the rule's layer or of one below.
  -/
  sound : ∀ tree last, entry.run? cursor = some (.ok tree, last) →
    last = { cursor with rest := last.rest } ∧ ∃ taken, cursor.rest = taken ++ last.rest ∧
      Derives rule taken tree ∧ tree.span = extent taken ∧
      ∀ next ∈ last.rest.head?, ∀ operator ∈ rule.operators,
        next.token.bind Token.operator? ≠ some operator
  /-- What derives a tree with the levels that are free is taken where nothing goes on with it. -/
  complete : ∀ tree taken rest, cursor.rest = taken ++ rest → Derives rule taken tree →
    tree.nest ≤ cursor.free → Ends rule rest →
      entry.run? cursor = some (.ok tree, { cursor with rest })

/-- From every position that is reached each rule but that of a line matches exactly a prefix. -/
theorem prefixMatch {entry : Entry} {rule : Rule} {cursor : Cursor} (reachable : cursor.Reachable)
    (named : entry.rule? = some rule) : PrefixMatch entry rule cursor := by
  have orderly := reachable.placed.orderly
  constructor
  -- Soundness comes from what explains a match, with the lexemes cut where it ended.
  case sound =>
    intro tree last ran
    rw [Entry.run?_eq, Entry.runWith?] at ran
    obtain ⟨outcome, said, settled⟩ := Option.map_eq_some_iff.mp ran
    obtain rfl := Cursor.eq_of_settle settled
    obtain ⟨taken, cut, derived, _, behind⟩ := Entry.explains named orderly said
    exact ⟨(Prod.mk.inj settled).2.symm, taken, cut, derived, derived.span_eq, behind.noOperator⟩
  case complete =>
    intro tree taken rest cut derived bound ends
    -- Completeness of the grammar is about lexemes in order, as those of a line are.
    have ordered : Ordered taken := orderly.ordered.sublist (cut ▸ List.sublist_append_left _ _)
    have matched : rule.matcher cursor.free (taken ++ rest) = .matched tree rest :=
      (derived.accepts ordered cursor.free bound).matched ends
    rw [Entry.run?_eq, Entry.runWith?, cut,
      Entry.outcome?_of_derives named derived cursor.source rest cursor.free, matched]
    rfl

/-- From behind the star a power takes its base and its exponent, and leaves the sum to others. -/
theorem prefixMatch_power :
    PrefixMatch .power .powerExpression ((Cursor.ofLine "3*2^2+1").after [.take, .take]) ∧
      (Cursor.power ((Cursor.ofLine "3*2^2+1").after [.take, .take])).2.rest.map Lexeme.text =
        ["+", "1"] :=
  ⟨prefixMatch ⟨_, _, rfl⟩ rfl, by decide +kernel⟩

end Reckon
