import Reckon.Proofs.Evaluation.Targets
import Reckon.Proofs.Session.Isolation
import Reckon.Proofs.Session.Journal
import Reckon.Proofs.Session.Table
import Reckon.Proofs.Tree.Display

/-! The names that are bound in a session, and how the session lists them. -/

namespace Reckon

/-- The names that a line assigns to are spelled as names. -/
theorem Expr.Legible.matches_target {tree : Expr} (legible : tree.Legible) :
    ∀ name ∈ tree.targets, Token.Matches .name name.toList := by
  -- Only an assignment adds a name, which has been spelled as one where the tree was read.
  induction legible with
  | literal | reference | header => simp [targets, nodes, target?]
  | assignment matched legible ih => exact List.forall_mem_cons.mpr ⟨matched, ih⟩
  | operation leftLegible rightLegible leftIh rightIh =>
    rw [targets_operation]
    exact List.forall_mem_append.mpr ⟨leftIh, rightIh⟩
  | call legible ih | parenthesized legible ih => exact ih

/-- The tree that a task evaluates, if it evaluates one. -/
def Task.tree? : Task → Option Expr
  | .evaluate line => (parse line).toOption
  | .read _ => none
  | .look => none

/-- The trees that are evaluated behind the last header, if tasks are performed in order. -/
def evaluatedSinceHeader (tasks : List Task) : List Expr :=
  (tasks.filterMap Task.tree?).rtakeWhile fun tree => !tree.isHeader

/-- The tree that a task evaluates is that of an accepted line. -/
theorem Task.exists_parse_of_tree? {task : Task} {tree : Expr} (found : task.tree? = some tree) :
    ∃ line, parse line = .ok tree := by
  -- Only a line that is evaluated has a tree, and that is what it is read as.
  cases task with
  | evaluate line =>
    refine ⟨line, ?_⟩
    cases read : parse line with
    | error error => simp [tree?, read, Except.toOption] at found
    | ok accepted => simpa [tree?, read, Except.toOption] using found
  | read line | look => contradiction

section Concat

variable {tasks : List Task} {task : Task} {tree : Expr}

/-- A task that evaluates nothing does not count. -/
theorem evaluatedSinceHeader_concat_of_none (nothing : task.tree? = none) :
    evaluatedSinceHeader (tasks ++ [task]) = evaluatedSinceHeader tasks := by
  -- The tasks are looked through from the last one, which is left out.
  simp [evaluatedSinceHeader, nothing]

/-- Behind a header nothing counts that was evaluated before it. -/
theorem evaluatedSinceHeader_concat_of_header (found : task.tree? = some tree)
    (header : tree.isHeader = true) : evaluatedSinceHeader (tasks ++ [task]) = [] := by
  -- The look from the last tree ends at once.
  simp [evaluatedSinceHeader, found, header]

/-- Any other tree counts when it is evaluated. -/
theorem evaluatedSinceHeader_concat_of_other (found : task.tree? = some tree)
    (other : tree.isHeader = false) :
    evaluatedSinceHeader (tasks ++ [task]) = evaluatedSinceHeader tasks ++ [tree] := by
  simp [evaluatedSinceHeader, found, other]

/-- What counts was read from accepted lines. -/
theorem exists_parse_of_mem_evaluatedSinceHeader (member : tree ∈ evaluatedSinceHeader tasks) :
    ∃ line, parse line = .ok tree := by
  -- The trees that count are the last ones of those that tasks have.
  have suffix : evaluatedSinceHeader tasks <:+ tasks.filterMap Task.tree? :=
    List.rtakeWhile_suffix _ _
  obtain ⟨task, _, found⟩ := List.mem_filterMap.mp (suffix.mem member)
  exact Task.exists_parse_of_tree? found

end Concat

namespace Session

/-- A session performs a task by evaluating the tree of the task, if it has one. -/
theorem session_perform (session : Session) (task : Task) :
    (session.perform task).2 =
      match task.tree? with
      | some tree => ⟨(tree.outcome session.bindings).2⟩
      | none => session := by
  -- What a line that is rejected or only read leaves behind is the session itself.
  cases task with
  | evaluate line =>
    cases read : parse line with
    | error error => simp [perform, evaluate, read, Task.tree?, Except.toOption]
    | ok tree => simp [perform, evaluate, run, read, Task.tree?, Except.toOption, Expr.outcome]
  | read line => cases read : parse line <;> simp [perform, read, Task.tree?]
  | look => rfl

/-- The names that are bound behind some tasks are the targets of what counts of them. -/
theorem mem_names_performAll (tasks : List Task) (name : String) :
    name ∈ (new.performAll tasks).2.bindings.names ↔
      ∃ tree ∈ evaluatedSinceHeader tasks, name ∈ tree.targets := by
  -- The induction is on the last task, since a header drops what counts in front of it.
  induction tasks using List.reverseRecOn with
  | nil => simp [performAll, new, Bindings.names, Bindings.empty, evaluatedSinceHeader]
  | append_singleton tasks task ih =>
    rw [performAll_concat, session_perform]
    cases found : task.tree? with
    | none => rw [evaluatedSinceHeader_concat_of_none found, ih]
    | some tree =>
      cases header : tree.isHeader with
      | true =>
        rw [evaluatedSinceHeader_concat_of_header found header]
        -- A header leaves nothing bound, and no tree of another kind is one.
        cases tree with
        | header text span => simp [Bindings.names, Bindings.empty]
        | _ => contradiction
      | false =>
        -- Inside of any other tree there is no header that would unbind a name.
        obtain ⟨line, parsed⟩ := Task.exists_parse_of_tree? found
        have plain := isHeader_eq_false_of_parse parsed header
        rw [evaluatedSinceHeader_concat_of_other found header]
        simp only [Expr.mem_names_outcome_iff plain, ih, List.mem_append, List.mem_singleton]
        constructor
        · rintro (⟨earlier, among, assigned⟩ | assigned)
          · exact ⟨earlier, .inl among, assigned⟩
          · exact ⟨tree, .inr rfl, assigned⟩
        · rintro ⟨other, among | rfl, assigned⟩
          · exact .inl ⟨other, among, assigned⟩
          · exact .inr assigned

/-- What a session reports while it performs a task. -/
def reports (session : Session) : Task → List Event
  | .evaluate line => (session.evaluate line).events
  | .read _ => []
  | .look => []

/-- What the bindings go through while a session performs some tasks, as it is reported. -/
def changes (session : Session) : List Task → List Change
  | [] => []
  | task :: tasks =>
    (session.reports task).filterMap Event.change? ++ (session.perform task).2.changes tasks

/-- The bindings of a session go through what is reported while it performs a task. -/
theorem changeAll_reports (session : Session) (task : Task) :
    session.bindings.changeAll ((session.reports task).filterMap Event.change?) =
      (session.perform task).2.bindings := by
  -- Only an evaluation reports changes, and they are the ones that it makes.
  cases task with
  | evaluate line =>
    rw [reports, session.changeAll_events_evaluate]
    cases answered : (session.evaluate line).answer <;> simp [perform, answered]
  | read line => cases read : parse line <;> simp [reports, perform, read]
  | look => rfl

/-- The bindings of a session go through what is reported while it performs any tasks. -/
theorem changeAll_changes (session : Session) (tasks : List Task) :
    session.bindings.changeAll (session.changes tasks) =
      (session.performAll tasks).2.bindings := by
  -- The tasks go on from the session that the first of them leaves.
  induction tasks generalizing session with
  | nil => rfl
  | cons task tasks ih =>
    rw [changes, Bindings.changeAll_append, changeAll_reports, ih]
    rfl

end Session

/-- What is known of the bindings of a session that has evaluated some trees since a header. -/
structure WellFormed (evaluated : List Expr) (bindings : Bindings) : Prop where
  /-- The names that are bound are those that the trees assign to. -/
  bound : ∀ name, name ∈ bindings.names ↔ ∃ tree ∈ evaluated, name ∈ tree.targets
  /-- Each of them is made of letters, of which there is one at least. -/
  letters : ∀ name ∈ bindings.names, name.toList ≠ [] ∧
    ∀ c ∈ name.toList, 'A' ≤ c ∧ c ≤ 'Z' ∨ 'a' ≤ c ∧ c ≤ 'z'
  /-- They are listed in the strict order of their bytes. -/
  increasing : bindings.entries.Pairwise fun left right =>
    encode left.1.toList < encode right.1.toList
  /-- There are as many as are listed. -/
  size_eq : bindings.size = bindings.entries.length
  /-- The bindings are empty when nothing is listed. -/
  isEmpty_iff : bindings.isEmpty = true ↔ bindings.entries = []
  /-- A name is bound to the value that it is listed with. -/
  listed : ∀ name value, (name, value) ∈ bindings.entries →
    bindings.get? name = some value ∧ bindings.lookup name = value
  /-- Any other text is not bound and is worth zero. -/
  unlisted : ∀ text, text ∉ bindings.entries.map Prod.fst →
    bindings.get? text = none ∧ bindings.lookup text = .zero false
  /-- A hash map that holds the bindings has as many entries, and it lists the same when sorted. -/
  held : ∀ table : Table, table.Holds bindings → table.listing = bindings.entries ∧
    table.size = bindings.size ∧ table.isEmpty = bindings.isEmpty

/-- The bindings behind any tasks are well formed. -/
theorem wellFormed_performAll (tasks : List Task) :
    WellFormed (evaluatedSinceHeader tasks) (Session.new.performAll tasks).2.bindings := by
  have bound := Session.mem_names_performAll tasks
  -- From here on it is only used which names are bound.
  generalize (Session.new.performAll tasks).2.bindings = bindings at bound
  have named : ∀ name ∈ bindings.names, name.toList ≠ [] ∧ ∀ c ∈ name.toList, c.isAlpha = true := by
    intro name member
    -- A bound name is the target of a tree that was read from a line, and lines spell names.
    obtain ⟨tree, counts, assigned⟩ := (bound name).mp member
    obtain ⟨line, parsed⟩ := exists_parse_of_mem_evaluatedSinceHeader counts
    exact Token.matches_name.mp ((legible_of_parse parsed).matches_target name assigned)
  constructor
  case bound => exact bound
  case letters =>
    intro name member
    refine ⟨(named name member).1, fun c among => ?_⟩
    exact isAlpha_iff.mp ((named name member).2 c among)
  case increasing =>
    -- The entries are kept in the order of characters, which for letters is that of their bytes.
    refine bindings.sorted.imp_of_mem fun {left right} leftMember rightMember below => ?_
    have leftNamed := named left.1 (List.mem_map_of_mem leftMember)
    have rightNamed := named right.1 (List.mem_map_of_mem rightMember)
    exact encode_lt_encode leftNamed.2 rightNamed.2 below
  case size_eq => rfl
  case isEmpty_iff => exact List.isEmpty_iff
  case listed =>
    intro name value member
    have found := Bindings.mem_entries_iff.mp member
    exact ⟨found, by rw [Bindings.lookup, found, Option.getD_some]⟩
  case unlisted =>
    intro text missing
    -- A text that is not listed is not looked up with success.
    have nothing : bindings.get? text = none := by
      rw [← Option.not_isSome_iff_eq_none, ← Bindings.mem_names_iff]
      exact missing
    exact ⟨nothing, by rw [Bindings.lookup, nothing, Option.getD_none]⟩
  case held =>
    intro table holds
    exact ⟨holds.listing_eq fun name member => (named name member).2, holds.size_eq,
      holds.isEmpty_eq⟩

/--
The bindings of every session that requests lead to are well formed.

The history of each session is the story of it, which for a clone starts with that of its origin. A
hash map that goes through what the session reports holds the same bindings.
-/
theorem wellFormed_of_performAll? {steps : List (Nat × Request)} {replies : List Reply}
    {final : Workspace} (performed : Workspace.new.performAll? steps = some (replies, final)) :
    List.Forall₂ (fun story session =>
        WellFormed (evaluatedSinceHeader (story.map Prod.fst)) session.bindings ∧
          (Table.changeAll ∅ (Session.new.changes (story.map Prod.fst))).Holds session.bindings)
      (Chronicle.new.recordAll (steps.zip replies)).stories final.sessions := by
  have start : Faithful .new .new := ⟨.cons ⟨rfl, rfl⟩ .nil, .nil⟩
  refine (start.run performed).sessions.imp fun {story session} retold => ?_
  -- Each session is one that has performed its story by itself.
  rw [← retold.session]
  refine ⟨wellFormed_performAll _, ?_⟩
  rw [← Session.changeAll_changes]
  exact Table.Holds.empty.changeAll _

/-- A session that is reset, and a clone of it from before that, in which a stored tree is run. -/
theorem wellFormed_clones :
    let steps : List (Nat × Request) := [(0, .evaluate "b = 7"), (0, .evaluate "x = (B = 2)"),
      (0, .store "b = (a = b) - x"), (0, .clone), (1, .run 0), (1, .evaluate "c = "),
      (0, .evaluate "- --"), (0, .run 0)]
    ∃ replies final, Workspace.new.performAll? steps = some (replies, final) ∧
      final.sessions.map (·.bindings.entries) =
        [[("a", .ofNat 0), ("b", .ofNat 0)],
          [("B", .ofNat 2), ("a", .ofNat 7), ("b", .ofNat 5), ("x", .ofNat 2)]] ∧
      List.Forall₂ (fun story session =>
          WellFormed (evaluatedSinceHeader (story.map Prod.fst)) session.bindings ∧
            (Table.changeAll ∅ (Session.new.changes (story.map Prod.fst))).Holds session.bindings)
        (Chronicle.new.recordAll (steps.zip replies)).stories final.sessions := by
  intro steps
  have performed : (Workspace.new.performAll? steps).isSome = true := by decide +kernel
  obtain ⟨⟨replies, final⟩, found⟩ := Option.isSome_iff_exists.mp performed
  -- What was bound before the header is gone, while the clone has kept it and bound some more.
  have sessions : (Workspace.new.performAll? steps).map
      (fun result => result.2.sessions.map (·.bindings.entries)) =
        some [[("a", .ofNat 0), ("b", .ofNat 0)],
          [("B", .ofNat 2), ("a", .ofNat 7), ("b", .ofNat 5), ("x", .ofNat 2)]] := by
    decide +kernel
  rw [found] at sessions
  exact ⟨replies, final, found, Option.some.inj sessions, wellFormed_of_performAll? found⟩

end Reckon
