import Mathlib.Data.List.DropRight
import Reckon.Proofs.Tree.Placement
import Reckon.Session

/-! What a run of lines comes to: the accepted lines behind its last header, evaluated anew. -/

namespace Reckon

/-- Whether a line is accepted. -/
def isAccepted (line : String) : Bool := (parse line).isOk

/-- Whether a line is accepted as a header. -/
def isHeaderLine (line : String) : Bool :=
  match parse line with
  | .ok tree => tree.isHeader
  | .error _ => false

/-- The entries that count at the end of a run: those of accepted lines behind the last header. -/
def sinceHeader {α : Type} (entries : List (String × α)) : List (String × α) :=
  (entries.rtakeWhile fun entry => !isHeaderLine entry.1).filter fun entry => isAccepted entry.1

/-- The report of what a line is read as. -/
def Event.ofReading (line : String) : Except SyntaxError Expr → Event
  | .ok tree => .parsed line tree
  | .error error => .rejected line error

namespace Session

/-- The session that is left behind by some turns, the first of which starts from this one. -/
def following (session : Session) (turns : List Turn) : Session :=
  (turns.getLast?.map Turn.session).getD session

/-- The last turn is the one that says which session is left behind. -/
@[simp] theorem following_concat (session : Session) (turns : List Turn) (turn : Turn) :
    session.following (turns ++ [turn]) = turn.session := by
  simp [following]

/-- Behind a first turn the others start from the session that it leaves. -/
theorem following_cons (session : Session) (turn : Turn) (turns : List Turn) :
    session.following (turn :: turns) = turn.session.following turns := by
  -- Without others the first turn is the last one.
  cases turns with
  | nil => rfl
  | cons second others => simp [following, List.getLast?_cons]

/-- Lines are evaluated behind others as they are in the session that those leave. -/
theorem evaluateAll_append (session : Session) (earlier later : List String) :
    session.evaluateAll (earlier ++ later) =
      session.evaluateAll earlier ++
        (session.following (session.evaluateAll earlier)).evaluateAll later := by
  -- The session goes from line to line, so it is a different one in each step.
  induction earlier generalizing session with
  | nil => rfl
  | cons line lines ih =>
    simp only [List.cons_append, evaluateAll, ih, following_cons]

/-- The last of several lines is evaluated in the session that the others leave. -/
theorem evaluateAll_concat (session : Session) (lines : List String) (line : String) :
    session.evaluateAll (lines ++ [line]) =
      session.evaluateAll lines ++
        [(session.following (session.evaluateAll lines)).evaluate line] :=
  evaluateAll_append session lines [line]

/-- Every line takes one turn. -/
@[simp] theorem length_evaluateAll (session : Session) (lines : List String) :
    (session.evaluateAll lines).length = lines.length := by
  -- A rejected line takes a turn as well.
  induction lines generalizing session with
  | nil => rfl
  | cons line lines ih => simp [evaluateAll, ih]

/-- The lines of a run, each with its answer. -/
def answers (session : Session) (lines : List String) :
    List (String × Except SyntaxError Binary64) :=
  lines.zip ((session.evaluateAll lines).map Turn.answer)

/-- The session that a run of lines leaves behind. -/
def afterAll (session : Session) (lines : List String) : Session :=
  session.following (session.evaluateAll lines)

/-- A first line is answered, and the others are in the session that it leaves. -/
theorem answers_cons (session : Session) (line : String) (lines : List String) :
    session.answers (line :: lines) =
      (line, (session.evaluate line).answer) :: (session.evaluate line).session.answers lines := rfl

/-- Behind a first line the others go on from the session that it leaves. -/
theorem afterAll_cons (session : Session) (line : String) (lines : List String) :
    session.afterAll (line :: lines) = (session.evaluate line).session.afterAll lines :=
  session.following_cons (session.evaluate line) _

section Turn

variable (session : Session) {line : String}

/-- A turn reports first what its line is read as by itself. -/
theorem head?_events_evaluate (line : String) :
    (session.evaluate line).events.head? = some (.ofReading line (parse line)) := by
  -- Reading comes before evaluation, and both of its ends are reported.
  cases parsed : parse line with
  | error error => simp [evaluate, parsed, Event.ofReading]
  | ok tree => simp [evaluate, parsed, Event.ofReading]

/-- A turn has a value or the error of its line, whatever is bound. -/
theorem map_answer_evaluate (line : String) :
    ((session.evaluate line).answer.map fun _ => ()) = (parse line).map fun _ => () := by
  -- Evaluation cannot fail, so only reading decides between a value and an error.
  cases parsed : parse line with
  | error error => simp [evaluate, parsed, Except.map]
  | ok tree => simp [evaluate, parsed, run, Except.map]

/-- A line that is rejected leaves the session as it was. -/
theorem session_evaluate_of_error {error : SyntaxError} (rejected : parse line = .error error) :
    (session.evaluate line).session = session := by
  simp [evaluate, rejected]

/-- A header leaves a new session, whatever was bound before. -/
theorem session_evaluate_of_header {tree : Expr} (parsed : parse line = .ok tree)
    (header : tree.isHeader = true) : (session.evaluate line).session = new := by
  -- A header clears all bindings, and no other tree counts as one.
  cases tree with
  | header text span => simp [evaluate, parsed, run, Expr.evaluate, new, Evaluation.clear,
      Evaluation.report]
  | _ => contradiction

/-- A turn that is answered with an error is that of a line which is rejected. -/
theorem session_of_answer_eq_error {error : SyntaxError}
    (answered : (session.evaluate line).answer = .error error) :
    (session.evaluate line).session = session := by
  -- A line with a tree is answered with a value.
  cases parsed : parse line with
  | error error => exact session.session_evaluate_of_error parsed
  | ok tree => simp [evaluate, parsed, run] at answered

end Turn

/-- Each turn of a run reports first what its line is read as by itself. -/
theorem head?_events_evaluateAll (session : Session) (lines : List String) :
    (session.evaluateAll lines).map (·.events.head?) =
      lines.map fun line => some (.ofReading line (parse line)) := by
  -- What is read does not depend on the session, which differs from line to line.
  induction lines generalizing session with
  | nil => rfl
  | cons line lines ih => simp [evaluateAll, head?_events_evaluate, ih]

/-- Each turn of a run has a value or the error of its line. -/
theorem map_answer_evaluateAll (session : Session) (lines : List String) :
    ((session.evaluateAll lines).map fun turn => turn.answer.map fun _ => ()) =
      lines.map fun line => (parse line).map fun _ => () := by
  induction lines generalizing session with
  | nil => rfl
  | cons line lines ih => simp [evaluateAll, map_answer_evaluate, ih]

/-- Every turn of a run is that of a line in the session which the turns before it leave. -/
theorem exists_evaluate_of_evaluateAll {session : Session} {lines : List String}
    {earlier later : List Turn} {turn : Turn}
    (split : session.evaluateAll lines = earlier ++ turn :: later) :
    ∃ line, turn = (session.following earlier).evaluate line := by
  -- The lines are followed as far as there are turns in front of the one in question.
  induction lines generalizing session earlier with
  | nil => simp [evaluateAll] at split
  | cons line lines ih =>
    cases earlier with
    | nil => exact ⟨line, (List.cons.inj split).1.symm⟩
    | cons first others =>
      -- The turns behind the first one are a run of their own.
      obtain ⟨rfl, rest⟩ := List.cons.inj split
      rw [following_cons]
      exact ih rest

end Session

section SinceHeader

variable {α : Type} (entries : List (String × α)) {line : String} (entry : α)

/-- Behind a header nothing counts that came before it. -/
theorem sinceHeader_concat_of_header (header : isHeaderLine line = true) :
    sinceHeader (entries ++ [(line, entry)]) = [] := by
  simp [sinceHeader, header]

/-- A line that is rejected does not count. -/
theorem sinceHeader_concat_of_error {error : SyntaxError} (rejected : parse line = .error error) :
    sinceHeader (entries ++ [(line, entry)]) = sinceHeader entries := by
  simp [sinceHeader, isHeaderLine, isAccepted, rejected, Except.isOk, Except.toBool]

/-- An accepted line counts, unless it is a header. -/
theorem sinceHeader_concat_of_ok {tree : Expr} (parsed : parse line = .ok tree)
    (other : tree.isHeader = false) :
    sinceHeader (entries ++ [(line, entry)]) = sinceHeader entries ++ [(line, entry)] := by
  simp [sinceHeader, isHeaderLine, isAccepted, parsed, other, Except.isOk, Except.toBool]

end SinceHeader

/-- What a run of lines from a new session comes to. -/
structure Replays (lines : List String) (turns : List Turn) : Prop where
  /-- Each line is reported to be read as it is by itself, accepted or not. -/
  reported : turns.map (·.events.head?) =
    lines.map fun line => some (.ofReading line (parse line))
  /-- Each line has a value where it is accepted by itself, and its own error where it is not. -/
  answered : (turns.map fun turn => turn.answer.map fun _ => ()) =
    lines.map fun line => (parse line).map fun _ => ()
  /-- A line that is rejected leaves the session as it was. -/
  rejected : ∀ earlier turn later error, turns = earlier ++ turn :: later →
    turn.answer = .error error → turn.session = Session.new.following earlier
  /-- The accepted lines behind the last header take the same turns in a new session. -/
  replayed : Session.new.evaluateAll ((sinceHeader (lines.zip turns)).map Prod.fst) =
    (sinceHeader (lines.zip turns)).map Prod.snd
  /-- They leave that session as the whole run leaves its own. -/
  final : Session.new.following ((sinceHeader (lines.zip turns)).map Prod.snd) =
    Session.new.following turns

/--
What counts at the end of a run takes the same turns in a new session, and leaves the same behind.
-/
theorem evaluateAll_sinceHeader (lines : List String) :
    Session.new.evaluateAll
        ((sinceHeader (lines.zip (Session.new.evaluateAll lines))).map Prod.fst) =
      (sinceHeader (lines.zip (Session.new.evaluateAll lines))).map Prod.snd ∧
    Session.new.following ((sinceHeader (lines.zip (Session.new.evaluateAll lines))).map Prod.snd) =
      Session.new.following (Session.new.evaluateAll lines) := by
  -- The induction is on the last line, since a header drops what counts in front of it.
  induction lines using List.reverseRecOn with
  | nil => exact ⟨rfl, rfl⟩
  | append_singleton lines line ih =>
    obtain ⟨replayed, final⟩ := ih
    have lengths : lines.length = (Session.new.evaluateAll lines).length := by simp
    rw [Session.evaluateAll_concat, List.zip_append lengths, List.zip_cons_cons, List.zip_nil_right,
      Session.following_concat]
    cases parsed : parse line with
    | error error =>
      -- A rejected line neither counts nor changes the session.
      rw [sinceHeader_concat_of_error _ _ parsed, Session.session_evaluate_of_error _ parsed]
      exact ⟨replayed, final⟩
    | ok tree =>
      cases header : tree.isHeader with
      | true =>
        -- A header leaves a new session, and nothing counts behind it yet.
        have isHeader : isHeaderLine line = true := by simp [isHeaderLine, parsed, header]
        rw [sinceHeader_concat_of_header _ _ isHeader,
          Session.session_evaluate_of_header _ parsed header]
        exact ⟨rfl, rfl⟩
      | false =>
        -- The line is evaluated in the session that the lines in front of it leave in both runs.
        rw [sinceHeader_concat_of_ok _ _ parsed header]
        simp only [List.map_append, List.map_cons, List.map_nil, Session.evaluateAll_concat,
          Session.following_concat, replayed, final, and_self]

/--
A run of lines comes to what its accepted lines behind the last header come to in a new session.

What any of the lines is read as, and whether it is accepted, does not depend on the others.
-/
theorem replays_evaluateAll (lines : List String) :
    Replays lines (Session.new.evaluateAll lines) := by
  obtain ⟨replayed, final⟩ := evaluateAll_sinceHeader lines
  refine ⟨Session.new.head?_events_evaluateAll lines, Session.new.map_answer_evaluateAll lines, ?_,
    replayed, final⟩
  intro earlier turn later error split answered
  -- The turn is that of a line in the session which the earlier turns leave.
  obtain ⟨line, rfl⟩ := Session.exists_evaluate_of_evaluateAll split
  exact Session.session_of_answer_eq_error _ answered

end Reckon
