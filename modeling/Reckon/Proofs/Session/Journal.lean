import Reckon.Proofs.Evaluation.Computation
import Reckon.Proofs.Session.Replay

/-! The reports of a session as a journal of its bindings, which tells everything about them. -/

namespace Reckon

namespace Event

/-- Whether a report says what a line was read as. -/
def isReading : Event → Bool
  | .parsed .. => true
  | .rejected .. => true
  | _ => false

/-- What names are shown to be bound to when one report more is taken into account. -/
def redraw (shown : String → Option String) : Event → String → Option String
  | .bound name value => fun other => if other = name then some value.text else shown other
  | .rebound name _ value => fun other => if other = name then some value.text else shown other
  | .cleared _ => fun _ => none
  | _ => shown

/-- What names are shown to be bound to by some reports in order, from nothing bound. -/
def shown (events : List Event) : String → Option String :=
  events.foldl redraw fun _ => none

/-- Names are shown to be bound to the texts of the values that the bindings go through. -/
theorem shown_eq (events : List Event) (name : String) :
    shown events name =
      ((Bindings.empty.changeAll (events.filterMap change?)).get? name).map Binary64.text := by
  -- The induction is on the last report, since one that all was dropped undoes those before it.
  induction events using List.reverseRecOn with
  | nil => rfl
  | append_singleton events last ih =>
    rw [shown, List.foldl_append, ← shown, List.filterMap_append, Bindings.changeAll_append]
    cases last with
    | bound bound value | rebound bound previous value =>
      -- A name is shown with its new value, and the others as before.
      by_cases same : name = bound <;>
        simp [redraw, change?, Bindings.change, Bindings.get?_bind, same, ih]
    | cleared count => simp [redraw, change?, Bindings.change]
    | parsed | rejected | unbound | computed =>
      simpa [redraw, List.filterMap_cons, change?] using ih

end Event

namespace Computation

/--
What nodes report when they get their values behind other reports.

Nothing is known of the bindings but what those reports say: a name is bound to the last value that
it was reported to be bound to since a header dropped all of them.
-/
def narrated (earlier : List Event) : List Computation → List Event
  | [] => []
  | computation :: later =>
    let changes := earlier.filterMap Event.change?
    let own := computation.remarks (Change.latest? changes) (Change.countSinceClear changes) ++
      [computation.event]
    own ++ narrated (earlier ++ own) later

/-- Nodes report the same over bindings as behind the reports that tell of them. -/
theorem narrated_eq (earlier : List Event) (computations : List Computation) :
    narrated earlier computations =
      reports (Bindings.empty.changeAll (earlier.filterMap Event.change?)) computations := by
  induction computations generalizing earlier with
  | nil => rfl
  | cons first others ih =>
    -- The changes so far tell which names are bound, to what, and how many they are.
    have known := funext (Bindings.get?_empty_changeAll (earlier.filterMap Event.change?))
    have own : first.event.change? = none := rfl
    simp [narrated, reports, ih, known, Bindings.size_empty_changeAll, filterMap_change?_remarks,
      own]

/-- Nothing that nodes report says what a line was read as. -/
theorem filter_isReading_reports (bindings : Bindings) (computations : List Computation) :
    (reports bindings computations).filter Event.isReading = [] := by
  -- Remarks are about names and headers, and what else is reported are values.
  have remarkless (event : Event) (remark : event.isRemark = true) : event.isReading = false := by
    cases event <;> simp_all [Event.isRemark, Event.isReading]
  rw [filter_reports remarkless]
  refine List.filter_eq_nil_iff.mpr fun event member => ?_
  obtain ⟨computation, _, rfl⟩ := List.mem_map.mp member
  exact Bool.false_ne_true

end Computation

namespace Session

/-- Of an accepted line it is reported that it was, and then what its nodes report. -/
theorem events_evaluate_of_ok (session : Session) {line : String} {tree : Expr}
    (accepted : parse line = .ok tree) :
    (session.evaluate line).events =
      .parsed line tree ::
        Computation.reports session.bindings (tree.computations session.bindings) := by
  simp [evaluate, run, accepted, tree.events_evaluate]

/-- The bindings of a session go through what is reported of a line. -/
theorem changeAll_events_evaluate (session : Session) (line : String) :
    session.bindings.changeAll ((session.evaluate line).events.filterMap Event.change?) =
      (session.evaluate line).session.bindings := by
  cases read : parse line with
  -- A line that is rejected reports no change, and makes none.
  | error error => simp [evaluate, read, List.filterMap_cons, Event.change?]
  | ok tree =>
    -- The nodes report the changes that they make, and these lead to what the tree leaves.
    have left : (session.evaluate line).session.bindings = (tree.outcome session.bindings).2 := by
      simp [evaluate, run, read, Expr.outcome]
    rw [session.events_evaluate_of_ok read, left, ← tree.changeAll_computations]
    simp [List.filterMap_cons, Event.change?, Computation.filterMap_change?_reports]

/-- A turn reports once what its line is read as by itself. -/
theorem filter_isReading_evaluate (session : Session) (line : String) :
    (session.evaluate line).events.filter Event.isReading = [.ofReading line (parse line)] := by
  cases read : parse line with
  | error error => simp [evaluate, read, List.filter_cons, Event.isReading, Event.ofReading]
  | ok tree =>
    -- What an accepted line is read as stands first, and no node says it again.
    rw [session.events_evaluate_of_ok read, List.filter_cons_of_pos rfl,
      Computation.filter_isReading_reports, Event.ofReading]

/-- Each turn of a run reports once what its line is read as by itself. -/
theorem filter_isReading_evaluateAll (session : Session) (lines : List String) :
    ((session.evaluateAll lines).map fun turn => turn.events.filter Event.isReading) =
      lines.map fun line => [.ofReading line (parse line)] := by
  induction lines generalizing session with
  | nil => rfl
  | cons line lines ih => simp [evaluateAll, filter_isReading_evaluate, ih]

/-- The bindings of a session go through what is reported of several lines. -/
theorem changeAll_events_evaluateAll (session : Session) (lines : List String) :
    session.bindings.changeAll
        (((session.evaluateAll lines).flatMap Turn.events).filterMap Event.change?) =
      (session.following (session.evaluateAll lines)).bindings := by
  induction lines generalizing session with
  | nil => rfl
  | cons line lines ih =>
    -- The reports of the first line come first, and the others start from where they lead.
    rw [evaluateAll, following_cons, ← ih, List.flatMap_cons, List.filterMap_append,
      Bindings.changeAll_append, changeAll_events_evaluate]

/-- Each line of a run takes its turn in the session that the lines in front of it leave. -/
theorem eq_of_zip_evaluateAll {session : Session} {lines : List String}
    {earlier later : List (String × Turn)} {line : String} {turn : Turn}
    (cut : lines.zip (session.evaluateAll lines) = earlier ++ (line, turn) :: later) :
    earlier.map Prod.snd = session.evaluateAll (earlier.map Prod.fst) ∧
      turn = (session.following (earlier.map Prod.snd)).evaluate line := by
  induction lines generalizing session earlier with
  | nil => simp [evaluateAll] at cut
  | cons first lines ih =>
    rw [evaluateAll, List.zip_cons_cons] at cut
    cases earlier with
    | nil =>
      obtain ⟨own, _⟩ := List.cons.inj cut
      obtain ⟨rfl, rfl⟩ := Prod.mk.inj own
      exact ⟨rfl, rfl⟩
    | cons entry others =>
      -- The lines behind the first one are a run of their own.
      obtain ⟨rfl, rest⟩ := List.cons.inj cut
      obtain ⟨turns, own⟩ := ih rest
      exact ⟨by simp [evaluateAll, turns], by simpa [following_cons] using own⟩

end Session

/-- What the reports on a run of lines tell, when nothing was bound at first. -/
structure Journal (lines : List String) (turns : List Turn) : Prop where
  /-- Every line takes one turn. -/
  covered : turns.length = lines.length
  /-- Each line is reported once to be accepted or rejected. -/
  read : (turns.map fun turn => turn.events.filter Event.isReading) =
    lines.map fun line => [.ofReading line (parse line)]
  /-- Of a line that is rejected nothing else is reported. -/
  rejected : ∀ earlier line turn later error,
    lines.zip turns = earlier ++ (line, turn) :: later → parse line = .error error →
    turn.events = [.rejected line error]
  /--
  An accepted line is reported as that first. Then its nodes get their values in order, and each
  of them reports what is told by all reports in front of it.
  -/
  accepted : ∀ earlier line turn later tree,
    lines.zip turns = earlier ++ (line, turn) :: later → parse line = .ok tree →
    ∃ computations, computations.map Computation.node = tree.postorder ∧
      turn.events = .parsed line tree ::
        Computation.narrated (earlier.flatMap fun entry => entry.2.events) computations
  /-- What the reports say of the bindings leads to those at the end. -/
  replayed : Bindings.empty.changeAll ((turns.flatMap Turn.events).filterMap Event.change?) =
    (Session.new.following turns).bindings
  /-- The names that are bound at the end are shown with the texts of their values, others not. -/
  displayed : ∀ name, Event.shown (turns.flatMap Turn.events) name =
    ((Session.new.following turns).bindings.get? name).map Binary64.text

/--
The reports on a run of lines in a new session are a complete journal of the bindings.

A name is reported to be bound again, from the value last reported, if it was reported to be bound
since the last header. Otherwise it is reported to be bound, and as unbound where it is read. A
header is reported with the number of names that were reported to be bound since the one before.
-/
theorem journal_evaluateAll (lines : List String) :
    Journal lines (Session.new.evaluateAll lines) := by
  have replayed := Session.new.changeAll_events_evaluateAll lines
  constructor
  · exact Session.new.length_evaluateAll lines
  · exact Session.new.filter_isReading_evaluateAll lines
  · intro earlier line turn later error cut rejected
    -- What is reported of a rejected line is the same in every session.
    obtain ⟨_, rfl⟩ := Session.eq_of_zip_evaluateAll cut
    simp [Session.evaluate, rejected]
  · intro earlier line turn later tree cut accepted
    obtain ⟨turns, rfl⟩ := Session.eq_of_zip_evaluateAll cut
    -- The reports in front of the line tell what is bound in the session that evaluates it.
    have known := Session.new.changeAll_events_evaluateAll (earlier.map Prod.fst)
    rw [← turns, List.flatMap_map] at known
    refine ⟨tree.computations (Session.new.following (earlier.map Prod.snd)).bindings,
      tree.map_node_computations _, ?_⟩
    rw [Session.events_evaluate_of_ok _ accepted, Computation.narrated_eq, ← known]
    rfl
  · exact replayed
  · intro name
    -- What is shown follows the reported changes, which lead to the bindings at the end.
    rw [Event.shown_eq, ← replayed]
    rfl

end Reckon
