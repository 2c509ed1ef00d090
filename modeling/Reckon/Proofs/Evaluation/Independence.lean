import Reckon.Proofs.Evaluation.Agreement
import Reckon.Proofs.Evaluation.Targets

/-! Lines of which none assigns to what another one reads or assigns to, in any order. -/

namespace Reckon

namespace Expr

/-- A tree assigns to nothing that another one reads or assigns to. -/
def Spares (tree other : Expr) : Prop :=
  ∀ name ∈ tree.targets, name ∉ other.reads ∧ name ∉ other.targets

/-- Neither of two trees assigns to what the other one reads or assigns to. -/
def Independent (left right : Expr) : Prop := left.Spares right ∧ right.Spares left

section Plain

variable {left right : Expr} (leftPlain : ∀ node ∈ left.nodes, node.isHeader = false)
  (rightPlain : ∀ node ∈ right.nodes, node.isHeader = false)

include leftPlain rightPlain

/-- Behind a tree that spares it a tree has the same value, and binds its targets to the same. -/
theorem Spares.outcome_eq (spares : left.Spares right) (bindings : Bindings) :
    (right.outcome (left.outcome bindings).2).1 = (right.outcome bindings).1 ∧
      ∀ name ∈ right.targets, (right.outcome (left.outcome bindings).2).2.get? name =
        (right.outcome bindings).2.get? name := by
  have agree : ∀ name ∈ right.reads,
      (left.outcome bindings).2.lookup name = bindings.lookup name := by
    intro name read
    -- The first tree does not assign to what the second one reads.
    have unassigned : name ∉ left.targets := fun assigned => (spares name assigned).1 read
    rw [Bindings.lookup, get?_outcome_of_notMem leftPlain bindings unassigned, Bindings.lookup]
  obtain ⟨value, after⟩ := right.outcome_eq_of_agree agree
  refine ⟨value, fun name assigned => ?_⟩
  -- Either way the name is bound afterwards, so what it is worth is what it is bound to.
  rw [Bindings.get?_eq_some_lookup (isSome_get?_outcome rightPlain _ assigned),
    Bindings.get?_eq_some_lookup (isSome_get?_outcome rightPlain _ assigned),
    after name (.inl assigned)]

/-- Of two independent trees it does not matter to the bindings which one is evaluated first. -/
theorem Independent.outcome_comm (independent : left.Independent right) (bindings : Bindings) :
    (right.outcome (left.outcome bindings).2).2 = (left.outcome (right.outcome bindings).2).2 := by
  obtain ⟨spares, spared⟩ := independent
  have rightSame := (spares.outcome_eq leftPlain rightPlain bindings).2
  have leftSame := (spared.outcome_eq rightPlain leftPlain bindings).2
  apply Bindings.eq_of_get?_eq
  intro name
  -- A name is assigned to by one of the trees at most, and by that one to the same either way.
  by_cases inLeft : name ∈ left.targets
  · rw [leftSame name inLeft,
      get?_outcome_of_notMem rightPlain _ (spares name inLeft).2]
  · by_cases inRight : name ∈ right.targets
    · rw [rightSame name inRight, get?_outcome_of_notMem leftPlain _ inLeft]
    · simp only [get?_outcome_of_notMem rightPlain _ inRight,
        get?_outcome_of_notMem leftPlain _ inLeft]

end Plain

end Expr

/-- Whether a tree assigns to a name that another one uses is looked up in the names of both. -/
instance (tree other : Expr) : Decidable (tree.Spares other) :=
  inferInstanceAs (Decidable (∀ name ∈ tree.targets, _))

/-- Independence is decided in both directions. -/
instance (left right : Expr) : Decidable (left.Independent right) :=
  inferInstanceAs (Decidable (left.Spares right ∧ right.Spares left))

/-- Two lines are accepted, are no headers, and have independent trees. -/
def IndependentLines (first second : String) : Prop :=
  ∃ left right, parse first = .ok left ∧ parse second = .ok right ∧
    left.isHeader = false ∧ right.isHeader = false ∧ left.Independent right

/-- Whether two lines are independent is decided by the trees that they are read as. -/
instance (first second : String) : Decidable (IndependentLines first second) :=
  decidable_of_iff
    (∃ left ∈ (parse first).toOption, ∃ right ∈ (parse second).toOption,
      left.isHeader = false ∧ right.isHeader = false ∧ left.Independent right) (by
    simp only [IndependentLines]
    cases parse first <;> cases parse second <;> simp [Except.toOption])

/-- Independence is mutual. -/
theorem IndependentLines.symm {first second : String}
    (independent : IndependentLines first second) : IndependentLines second first := by
  obtain ⟨left, right, parsed, otherParsed, plain, otherPlain, spares, spared⟩ := independent
  exact ⟨right, left, otherParsed, parsed, otherPlain, plain, spared, spares⟩

/--
Two independent lines lead from a session to the same one in either order, with the same values.
-/
theorem IndependentLines.exists_yields {first second : String}
    (independent : IndependentLines first second) (session : Session) :
    ∃ value other between behind final,
      session.Yields first value between ∧ between.Yields second other final ∧
      session.Yields second other behind ∧ behind.Yields first value final := by
  obtain ⟨left, right, parsed, otherParsed, other, otherOther, apart⟩ := independent
  -- Neither tree has a header in it, since neither is one.
  have leftPlain := isHeader_eq_false_of_parse parsed other
  have rightPlain := isHeader_eq_false_of_parse otherParsed otherOther
  -- The bindings behind both are the same, whichever comes first.
  have comm := apart.outcome_comm leftPlain rightPlain session.bindings
  -- Each line has the value behind the other one that it has in the session itself.
  have rightValue := (apart.1.outcome_eq leftPlain rightPlain session.bindings).1
  have leftValue := (apart.2.outcome_eq rightPlain leftPlain session.bindings).1
  refine ⟨(left.outcome session.bindings).1, (right.outcome session.bindings).1,
    ⟨(left.outcome session.bindings).2⟩, ⟨(right.outcome session.bindings).2⟩,
    ⟨(right.outcome (left.outcome session.bindings).2).2⟩, ?_, ?_, ?_, ?_⟩
  · exact Session.yields_iff.mpr ⟨left, parsed, rfl⟩
  · exact Session.yields_iff.mpr ⟨right, otherParsed, Prod.ext rightValue rfl⟩
  · exact Session.yields_iff.mpr ⟨right, otherParsed, rfl⟩
  · exact Session.yields_iff.mpr ⟨left, parsed, Prod.ext leftValue comm.symm⟩

namespace Session

/-- Lines that are independent of one another may be evaluated in any order. -/
theorem perm_answers {lines reordered : List String} (perm : lines.Perm reordered)
    (apart : lines.Pairwise IndependentLines) (session : Session) :
    (session.answers lines).Perm (session.answers reordered) ∧
      session.afterAll lines = session.afterAll reordered := by
  -- Every order is reached by exchanging neighbours, each time in the session in front of them.
  induction perm generalizing session with
  | nil => exact ⟨.nil, rfl⟩
  | cons line perm ih =>
    obtain ⟨_, apart⟩ := List.pairwise_cons.mp apart
    obtain ⟨answered, left⟩ := ih apart (session.evaluate line).session
    rw [answers_cons, answers_cons, afterAll_cons, afterAll_cons]
    exact ⟨answered.cons _, left⟩
  -- The two neighbours have their values either way, and leave the same session.
  | swap second first rest =>
    obtain ⟨independent, _⟩ := List.pairwise_cons.mp apart
    obtain ⟨value, other, between, behind, final, former, latter, swapped, last⟩ :=
      (independent second List.mem_cons_self).exists_yields session
    simp only [answers_cons, afterAll_cons, former.session_eq, latter.session_eq,
      swapped.session_eq, last.session_eq, former.answer_eq, latter.answer_eq, swapped.answer_eq,
      last.answer_eq]
    exact ⟨.swap _ _ _, trivial⟩
  | trans first second firstIh secondIh =>
    obtain ⟨answered, left⟩ := firstIh apart session
    -- What is independent stays so in any order.
    have still := apart.perm first IndependentLines.symm
    obtain ⟨again, right⟩ := secondIh still session
    exact ⟨answered.trans again, left.trans right⟩

end Session

/--
Independent lines commute.

Of two lines of which neither assigns to what the other one reads or assigns to, each has the same
value whichever comes first, and the same session is left behind. So any number of lines that are
independent of one another may be evaluated in any order.
-/
theorem independent_lines_commute :
    (∀ first second left right, parse first = .ok left → parse second = .ok right →
      left.isHeader = false → right.isHeader = false →
      (∀ name ∈ left.targets, name ∉ right.reads ∧ name ∉ right.targets) →
      (∀ name ∈ right.targets, name ∉ left.reads ∧ name ∉ left.targets) →
      ∀ session : Session, ∃ value other between behind final,
        session.Yields first value between ∧ between.Yields second other final ∧
        session.Yields second other behind ∧ behind.Yields first value final) ∧
    ∀ lines reordered, lines.Perm reordered → lines.Pairwise IndependentLines →
      ∀ session : Session,
        (session.answers lines).Perm (session.answers reordered) ∧
          session.afterAll lines = session.afterAll reordered := by
  constructor
  · intro first second left right parsed otherParsed other otherOther spares spared session
    -- Two lines are settled at once, and more of them by the swaps that sort them.
    have independent : IndependentLines first second :=
      ⟨left, right, parsed, otherParsed, other, otherOther, spares, spared⟩
    exact independent.exists_yields session
  · intro lines reordered perm apart session
    exact session.perm_answers perm apart

/-- Lines that assign inside of other expressions, and read the same names, are independent. -/
theorem independent_lines_commute_nested :
    ∃ session value other between behind final,
      session = Session.mk (Bindings.empty.bind "y" (.ofNat 3)) ∧
      session.Yields "x = y*(z=4)" value between ∧ between.Yields "w=y-q" other final ∧
      session.Yields "w=y-q" other behind ∧ behind.Yields "x = y*(z=4)" value final ∧
      final.bindings.entries =
        [("w", .ofNat 3), ("x", .ofNat 12), ("y", .ofNat 3), ("z", .ofNat 4)] ∧
      (session.answers ["a=y", "b=2*y", "c=q"]).Perm (session.answers ["c=q", "b=2*y", "a=y"]) ∧
      session.afterAll ["a=y", "b=2*y", "c=q"] = session.afterAll ["c=q", "b=2*y", "a=y"] := by
  obtain ⟨pairs, runs⟩ := independent_lines_commute
  let left : Expr :=
    .assignment ⟨"x", ⟨0, 1⟩⟩
      (.operation (.reference "y" ⟨4, 1⟩) .multiply
        (.parenthesized
          (.assignment ⟨"z", ⟨7, 1⟩⟩ (.literal .decimal "4" (.ofNat 4) ⟨9, 1⟩) ⟨7, 3⟩) ⟨6, 5⟩)
        ⟨4, 7⟩)
      ⟨0, 11⟩
  let right : Expr :=
    .assignment ⟨"w", ⟨0, 1⟩⟩
      (.operation (.reference "y" ⟨2, 1⟩) .subtract (.reference "q" ⟨4, 1⟩) ⟨2, 3⟩) ⟨0, 5⟩
  have parsed : parse "x = y*(z=4)" = .ok left := by decide +kernel
  have otherParsed : parse "w=y-q" = .ok right := by decide +kernel
  let session := Session.mk (Bindings.empty.bind "y" (.ofNat 3))
  obtain ⟨value, other, between, behind, final, former, latter, swapped, last⟩ :=
    pairs _ _ left right parsed otherParsed rfl rfl (by decide +kernel) (by decide +kernel) session
  let behindBoth := ((session.evaluate "x = y*(z=4)").session.evaluate "w=y-q").session
  have reached : behindBoth.bindings.entries =
      [("w", .ofNat 3), ("x", .ofNat 12), ("y", .ofNat 3), ("z", .ofNat 4)] := by decide +kernel
  -- The session behind both lines is the one that they yield.
  have both : behindBoth = final := by rw [← latter.session_eq, ← former.session_eq]
  rw [both] at reached
  have apart : ["a=y", "b=2*y", "c=q"].Pairwise IndependentLines := by decide +kernel
  obtain ⟨answered, same⟩ := runs _ ["c=q", "b=2*y", "a=y"] (by decide) apart session
  exact ⟨session, value, other, between, behind, final, rfl, former, latter, swapped, last, reached,
    answered, same⟩

end Reckon
