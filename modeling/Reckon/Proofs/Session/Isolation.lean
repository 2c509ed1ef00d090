import Mathlib.Data.List.Forall2
import Reckon.Workspace

/-! Sessions side by side, each of which answers as it would by itself. -/

namespace Reckon

/-- Something that a session can be asked which stands by itself. -/
inductive Task where
  /-- Evaluate a line. -/
  | evaluate (line : String)
  /-- Read a line without evaluating it. -/
  | read (line : String)
  /-- Look at the bindings. -/
  | look
  deriving DecidableEq

/-- What a session answers to a task. -/
inductive Result where
  /-- The value of what was evaluated. -/
  | value (value : Binary64)
  /-- The tree that was read. -/
  | tree (tree : Expr)
  /-- Where and why a line does not match. -/
  | rejected (error : SyntaxError)
  /-- The bindings of the session. -/
  | bindings (bindings : Bindings)
  deriving DecidableEq

/-- The answer to a task that a reply gives, without the number that a tree was stored under. -/
def Reply.result? : Reply → Option Result
  | .value computed => some (.value computed)
  | .stored tree _ => some (.tree tree)
  | .rejected error => some (.rejected error)
  | .bindings found => some (.bindings found)
  | .session _ => none
  | .comparison _ => none

/-- The number that a reply gives to a session. -/
def Reply.sessionNumber? : Reply → Option Nat
  | .session number => some number
  | _ => none

/-- The number that a reply gives to a tree. -/
def Reply.treeNumber? : Reply → Option Nat
  | .stored _ number => some number
  | _ => none

namespace Session

/-- What a session by itself answers to a task, and the session afterwards. -/
def perform (session : Session) : Task → Result × Session
  | .evaluate line =>
    let turn := session.evaluate line
    match turn.answer with
    | .ok value => (.value value, turn.session)
    | .error error => (.rejected error, turn.session)
  | .read line =>
    match parse line with
    | .ok tree => (.tree tree, session)
    | .error error => (.rejected error, session)
  | .look => (.bindings session.bindings, session)

/-- What a session by itself answers to several tasks in order, and the session afterwards. -/
def performAll (session : Session) : List Task → List Result × Session
  | [] => ([], session)
  | task :: tasks =>
    let (result, next) := session.perform task
    let (results, final) := next.performAll tasks
    (result :: results, final)

/-- The last of several tasks is performed by the session that the others leave. -/
theorem performAll_concat (session : Session) (tasks : List Task) (task : Task) :
    session.performAll (tasks ++ [task]) =
      ((session.performAll tasks).1 ++ [((session.performAll tasks).2.perform task).1],
        ((session.performAll tasks).2.perform task).2) := by
  -- The induction is on the tasks in front, whose sessions differ from step to step.
  induction tasks generalizing session with
  | nil => rfl
  | cons first others ih => simp [performAll, ih]

/-- A line that is accepted is evaluated as the tree which it is read as. -/
theorem evaluate_eq_run (session : Session) {line : String} {tree : Expr}
    (parsed : parse line = .ok tree) :
    (session.run tree).answer = (session.evaluate line).answer ∧
      (session.run tree).session = (session.evaluate line).session := by
  simp [evaluate, parsed]

end Session

/-- What comes of several requests in order, each to the session of a number. -/
def Workspace.performAll? (workspace : Workspace) :
    List (Nat × Request) → Option (List Reply × Workspace)
  | [] => some ([], workspace)
  | (number, request) :: steps => do
    let (reply, next) ← workspace.perform? number request
    let (replies, final) ← next.performAll? steps
    return (reply :: replies, final)

/-- A run of several requests is a first one and a run of the others behind it. -/
theorem Workspace.performAll?_cons {workspace final : Workspace} {first : Nat × Request}
    {others : List (Nat × Request)} {replies : List Reply}
    (performed : workspace.performAll? (first :: others) = some (replies, final)) :
    ∃ reply next later, workspace.perform? first.1 first.2 = some (reply, next) ∧
      next.performAll? others = some (later, final) ∧ replies = reply :: later := by
  -- A run that came to its end has been refused neither its first request nor its others.
  obtain ⟨⟨reply, next⟩, step, performed⟩ := Option.bind_eq_some_iff.mp performed
  obtain ⟨⟨later, last⟩, run, performed⟩ := Option.bind_eq_some_iff.mp performed
  obtain ⟨rfl, rfl⟩ := Prod.mk.inj (Option.some.inj performed)
  exact ⟨reply, next, later, step, run, rfl⟩

/-- The requests of a run and their replies, sorted by the session that they concern. -/
structure Chronicle where
  /-- For each session its tasks with their replies, behind those of the session it comes from. -/
  stories : List (List (Task × Reply))
  /-- For each stored tree the line that it was read from. -/
  lines : List String

namespace Chronicle

/-- One session that has not been asked anything yet, and no tree. -/
def new : Chronicle := ⟨[[]], []⟩

/-- Adds a task with its reply to the story of a session. -/
def tell (chronicle : Chronicle) (number : Nat) (task : Task) (reply : Reply) : Chronicle :=
  { chronicle with stories := chronicle.stories.modify number (· ++ [(task, reply)]) }

/-- Adds a request to the session of a number, with its reply. -/
def record (chronicle : Chronicle) (number : Nat) (request : Request) (reply : Reply) :
    Chronicle :=
  match request with
  | .evaluate line => chronicle.tell number (.evaluate line) reply
  | .store line =>
    let told := chronicle.tell number (.read line) reply
    -- A line that is rejected stores nothing.
    match reply with
    | .stored _ _ => { told with lines := told.lines ++ [line] }
    | _ => told
  | .run tree =>
    -- Running a tree is the same task as evaluating the line that it was read from.
    match chronicle.lines[tree]? with
    | some line => chronicle.tell number (.evaluate line) reply
    | none => chronicle
  | .look => chronicle.tell number .look reply
  | .begin => { chronicle with stories := chronicle.stories ++ [[]] }
  | .clone =>
    { chronicle with stories := chronicle.stories ++ [(chronicle.stories[number]?).getD []] }
  | .compare _ => chronicle

/-- Adds several requests with their replies. -/
def recordAll (chronicle : Chronicle) (entries : List ((Nat × Request) × Reply)) : Chronicle :=
  entries.foldl (fun chronicle ((number, request), reply) =>
    chronicle.record number request reply) chronicle

end Chronicle

/-- A session is one that performs the tasks of its story by itself, with the same answers. -/
structure Retold (story : List (Task × Reply)) (session : Session) : Prop where
  results : (Session.new.performAll (story.map Prod.fst)).1.map some =
    story.map fun entry => entry.2.result?
  session : (Session.new.performAll (story.map Prod.fst)).2 = session

/-- A story goes on with what its session answers to the next task. -/
theorem Retold.concat {story : List (Task × Reply)} {session : Session}
    (retold : Retold story session) {task : Task} {reply : Reply} {next : Session}
    {result : Result} (performed : session.perform task = (result, next))
    (replied : reply.result? = some result) : Retold (story ++ [(task, reply)]) next := by
  -- The session that has performed the story is the one that performs the next task.
  obtain ⟨results, rfl⟩ := retold
  constructor
  · simp [Session.performAll_concat, results, performed, replied]
  · simp [Session.performAll_concat, performed]

/-- Every session of a workspace has performed its story, and every tree was read from its line. -/
structure Faithful (chronicle : Chronicle) (workspace : Workspace) : Prop where
  sessions : List.Forall₂ Retold chronicle.stories workspace.sessions
  trees : List.Forall₂ (fun line tree => parse line = .ok tree) chronicle.lines workspace.trees

section Lists

variable {α β : Type} {R : α → β → Prop} {left : List α} {right : List β}

/-- Where one list has an element, a list that is related to it has one that is related to that. -/
theorem exists_getElem?_of_forall₂ (related : List.Forall₂ R left right) {index : Nat} {other : β}
    (found : right[index]? = some other) :
    ∃ element, left[index]? = some element ∧ R element other := by
  -- Both lists are run through together, one pair of elements for each step of the index.
  induction related generalizing index with
  | nil => simp at found
  | cons first rest ih =>
    cases index with
    | zero =>
      obtain rfl := Option.some.inj found
      exact ⟨_, rfl, first⟩
    | succ index => simpa using ih (by simpa using found)

/-- Related lists stay related where both are changed in the same place. -/
theorem forall₂_modify (related : List.Forall₂ R left right) {index : Nat} {other next : β}
    (found : right[index]? = some other) (change : α → α)
    (keeps : ∀ element, R element other → R (change element) next) :
    List.Forall₂ R (left.modify index change) (right.set index next) := by
  -- The elements in front of the place are kept, and so are those behind it.
  induction related generalizing index with
  | nil => simp at found
  | cons first rest ih =>
    cases index with
    | zero =>
      obtain rfl := Option.some.inj found
      exact .cons (keeps _ first) rest
    | succ index => exact .cons first (ih (by simpa using found))

end Lists

namespace Faithful

variable {chronicle : Chronicle} {workspace next : Workspace} {number : Nat} {session : Session}

/-- A task of a session with its reply is added to the story of the session. -/
theorem tell (faithful : Faithful chronicle workspace)
    (found : workspace.sessions[number]? = some session) {task : Task} {reply : Reply}
    {result : Result} {left : Session} (performed : session.perform task = (result, left))
    (replied : reply.result? = some result) :
    Faithful (chronicle.tell number task reply)
      { workspace with sessions := workspace.sessions.set number left } := by
  refine ⟨forall₂_modify faithful.sessions found _ ?_, faithful.trees⟩
  -- Only the session of the number has moved on, and only its story has become longer.
  intro story retold
  exact retold.concat performed replied

/-- A task that leaves its session as it was leaves the workspace so too. -/
theorem tell_unchanged (faithful : Faithful chronicle workspace)
    (found : workspace.sessions[number]? = some session) {task : Task} {reply : Reply}
    {result : Result} (performed : session.perform task = (result, session))
    (replied : reply.result? = some result) :
    Faithful (chronicle.tell number task reply) workspace := by
  have told := faithful.tell found performed replied
  -- To set a session to what it is changes nothing in the list.
  obtain ⟨bound, same⟩ := List.getElem?_eq_some_iff.mp found
  rwa [← same, List.set_getElem_self] at told

/-- A turn of a session is a task that it performs. -/
theorem after (faithful : Faithful chronicle workspace)
    (found : workspace.sessions[number]? = some session) {line : String} {turn : Turn}
    (answer : turn.answer = (session.evaluate line).answer)
    (left : turn.session = (session.evaluate line).session) :
    Faithful (chronicle.tell number (.evaluate line) (workspace.after number turn).1)
      (workspace.after number turn).2 := by
  -- A value and an error are told apart by the answer that the turn shares with the line.
  cases result : (session.evaluate line).answer with
  | ok value =>
    have performed : session.perform (.evaluate line) = (.value value, turn.session) := by
      simp [Session.perform, result, left]
    exact faithful.tell found performed (by simp [Workspace.after, answer, result, Reply.result?])
  | error error =>
    have performed : session.perform (.evaluate line) = (.rejected error, turn.session) := by
      simp [Session.perform, result, left]
    exact faithful.tell found performed (by simp [Workspace.after, answer, result, Reply.result?])

/-- Whatever is asked of a session, its story and those of the others stay what they answer. -/
theorem step (faithful : Faithful chronicle workspace) {request : Request} {reply : Reply}
    (performed : workspace.perform? number request = some (reply, next)) :
    Faithful (chronicle.record number request reply) next := by
  -- No request gets past a session that is not there.
  obtain ⟨session, found, performed⟩ := Option.bind_eq_some_iff.mp performed
  cases request with
  | evaluate line =>
    obtain ⟨rfl, rfl⟩ := Prod.mk.inj (Option.some.inj performed)
    exact faithful.after found rfl rfl
  | store line =>
    -- What is read leaves its session as it was, and a tree is stored only where there is one.
    cases parsed : parse line with
    | error error =>
      simp only [parsed] at performed
      obtain ⟨rfl, rfl⟩ := Prod.mk.inj (Option.some.inj performed)
      have performed : session.perform (.read line) = (.rejected error, session) := by
        simp [Session.perform, parsed]
      exact faithful.tell_unchanged found performed rfl
    | ok tree =>
      simp only [parsed] at performed
      obtain ⟨rfl, rfl⟩ := Prod.mk.inj (Option.some.inj performed)
      have performed : session.perform (.read line) = (.tree tree, session) := by
        simp [Session.perform, parsed]
      have told := faithful.tell_unchanged found performed
        (show (Reply.stored tree workspace.trees.length).result? = _ from rfl)
      -- The new tree is behind the others, and so is the line that it was read from.
      exact ⟨told.sessions, List.rel_append told.trees (.cons parsed .nil)⟩
  | run tree =>
    obtain ⟨stored, known, performed⟩ := Option.bind_eq_some_iff.mp performed
    obtain ⟨rfl, rfl⟩ := Prod.mk.inj (Option.some.inj performed)
    -- The tree that is run has been read from some line, and answers as that line does.
    obtain ⟨line, read, parsed⟩ := exists_getElem?_of_forall₂ faithful.trees known
    obtain ⟨answer, left⟩ := session.evaluate_eq_run parsed
    simp only [Chronicle.record, read]
    exact faithful.after found answer left
  | look =>
    obtain ⟨rfl, rfl⟩ := Prod.mk.inj (Option.some.inj performed)
    exact faithful.tell_unchanged found rfl rfl
  | begin =>
    obtain ⟨rfl, rfl⟩ := Prod.mk.inj (Option.some.inj performed)
    -- A session that has just begun has an empty story, which nothing has to be shown of.
    exact ⟨List.rel_append faithful.sessions (.cons ⟨rfl, rfl⟩ .nil), faithful.trees⟩
  | clone =>
    obtain ⟨rfl, rfl⟩ := Prod.mk.inj (Option.some.inj performed)
    -- A clone takes over the story of its origin, as far as that has got.
    obtain ⟨story, told, retold⟩ := exists_getElem?_of_forall₂ faithful.sessions found
    simp only [Chronicle.record, told, Option.getD_some]
    exact ⟨List.rel_append faithful.sessions (.cons retold .nil), faithful.trees⟩
  | compare other =>
    obtain ⟨right, _, performed⟩ := Option.bind_eq_some_iff.mp performed
    obtain ⟨rfl, rfl⟩ := Prod.mk.inj (Option.some.inj performed)
    exact faithful

/-- What is told of several requests stays what the sessions of their numbers answer. -/
theorem run {steps : List (Nat × Request)} {replies : List Reply} {final : Workspace}
    (faithful : Faithful chronicle workspace)
    (performed : workspace.performAll? steps = some (replies, final)) :
    Faithful (chronicle.recordAll (steps.zip replies)) final := by
  -- Faithfulness is the invariant, and each request keeps it.
  induction steps generalizing chronicle workspace replies with
  | nil =>
    obtain ⟨rfl, rfl⟩ := Prod.mk.inj (Option.some.inj performed)
    exact faithful
  | cons first others ih =>
    obtain ⟨reply, next, later, step, run, rfl⟩ := Workspace.performAll?_cons performed
    exact ih (faithful.step step) run

end Faithful

namespace Workspace

variable {workspace next final : Workspace} {number : Nat} {request : Request} {reply : Reply}
  {steps : List (Nat × Request)} {replies : List Reply}

/-- Sessions and trees get the next number each, and none of them goes away. -/
theorem range_of_perform? (performed : workspace.perform? number request = some (reply, next)) :
    List.range next.sessions.length =
        List.range workspace.sessions.length ++ reply.sessionNumber?.toList ∧
      List.range next.trees.length =
        List.range workspace.trees.length ++ reply.treeNumber?.toList := by
  obtain ⟨session, found, performed⟩ := Option.bind_eq_some_iff.mp performed
  -- Only a new session, a clone and a stored tree make a list longer, and they tell its number.
  cases request with
  | evaluate line =>
    obtain ⟨rfl, rfl⟩ := Prod.mk.inj (Option.some.inj performed)
    cases (session.evaluate line).answer <;> simp [Reply.sessionNumber?, Reply.treeNumber?]
  | store line =>
    cases parsed : parse line with
    | error error =>
      simp only [parsed] at performed
      obtain ⟨rfl, rfl⟩ := Prod.mk.inj (Option.some.inj performed)
      simp [Reply.sessionNumber?, Reply.treeNumber?]
    | ok tree =>
      simp only [parsed] at performed
      obtain ⟨rfl, rfl⟩ := Prod.mk.inj (Option.some.inj performed)
      simp [Reply.sessionNumber?, Reply.treeNumber?, List.range_succ]
  | run tree =>
    obtain ⟨stored, known, performed⟩ := Option.bind_eq_some_iff.mp performed
    obtain ⟨rfl, rfl⟩ := Prod.mk.inj (Option.some.inj performed)
    simp [Session.run, Reply.sessionNumber?, Reply.treeNumber?]
  | look =>
    obtain ⟨rfl, rfl⟩ := Prod.mk.inj (Option.some.inj performed)
    simp [Reply.sessionNumber?, Reply.treeNumber?]
  | begin | clone =>
    obtain ⟨rfl, rfl⟩ := Prod.mk.inj (Option.some.inj performed)
    simp [Reply.sessionNumber?, Reply.treeNumber?, List.range_succ]
  | compare other =>
    obtain ⟨right, _, performed⟩ := Option.bind_eq_some_iff.mp performed
    obtain ⟨rfl, rfl⟩ := Prod.mk.inj (Option.some.inj performed)
    simp [Reply.sessionNumber?, Reply.treeNumber?]

/-- The numbers that a run hands out follow those that were there, in order. -/
theorem range_of_performAll? (performed : workspace.performAll? steps = some (replies, final)) :
    replies.length = steps.length ∧
      List.range final.sessions.length =
        List.range workspace.sessions.length ++ replies.filterMap Reply.sessionNumber? ∧
      List.range final.trees.length =
        List.range workspace.trees.length ++ replies.filterMap Reply.treeNumber? := by
  induction steps generalizing workspace replies with
  | nil =>
    obtain ⟨rfl, rfl⟩ := Prod.mk.inj (Option.some.inj performed)
    simp
  | cons first others ih =>
    obtain ⟨reply, next, later, step, run, rfl⟩ := performAll?_cons performed
    obtain ⟨lengths, sessions, trees⟩ := ih run
    obtain ⟨sessionNumbers, treeNumbers⟩ := range_of_perform? step
    -- The numbers of the first request come in front of those of the others.
    rw [sessions, trees, sessionNumbers, treeNumbers]
    refine ⟨by simp [lengths], ?_, ?_⟩
    · -- A request hands out one number of a kind or none.
      cases given : reply.sessionNumber? <;> simp [given]
    · cases given : reply.treeNumber? <;> simp [given]

/-- Whether what a request names is there. -/
def Offers (workspace : Workspace) : Request → Prop
  | .run tree => tree < workspace.trees.length
  | .compare other => other < workspace.sessions.length
  | _ => True

/-- No request is refused but one that names a session or a tree that is not there. -/
theorem isSome_perform?_iff : (workspace.perform? number request).isSome = true ↔
    number < workspace.sessions.length ∧ workspace.Offers request := by
  -- Without the session that is asked, nothing else is looked at.
  cases found : workspace.sessions[number]? with
  | none =>
    have missing := List.getElem?_eq_none_iff.mp found
    simp [perform?, found]
    omega
  | some session =>
    obtain ⟨bound, _⟩ := List.getElem?_eq_some_iff.mp found
    -- Of the requests two name something more, which is looked up as well.
    cases request with
    | evaluate | look | begin | clone => simp [perform?, Offers, bound]
    | store line => cases parsed : parse line <;> simp [perform?, Offers, bound, parsed]
    | run tree =>
      by_cases there : tree < workspace.trees.length <;> simp [perform?, Offers, bound, there]
    | compare other =>
      by_cases there : other < workspace.sessions.length <;> simp [perform?, Offers, bound, there]

end Workspace

/-- What comes of requests to several sessions, as far as each of them is concerned. -/
structure Isolated (steps : List (Nat × Request)) (replies : List Reply) (final : Workspace) : Prop
    extends Faithful (Chronicle.new.recordAll (steps.zip replies)) final where
  /-- Every request is replied to. -/
  replied : replies.length = steps.length
  /-- The sessions are numbered in the order in which they began, and the first one was there. -/
  sessionNumbers : 0 :: replies.filterMap Reply.sessionNumber? = List.range final.sessions.length
  /-- The trees are numbered in the order in which they were stored. -/
  treeNumbers : replies.filterMap Reply.treeNumber? = List.range final.trees.length
  /-- The next request is refused only if it names a session or a tree that is not there. -/
  offered : ∀ number request, (final.perform? number request).isSome = true ↔
    number < final.sessions.length ∧ final.Offers request

/--
Each session answers as if it were the only one and had performed only the tasks of its own story.

The story of a clone starts with that of the session it is a clone of, as far as that had got, and
a tree that is run counts as the line that it was read from.
-/
theorem isolated_of_performAll? {steps : List (Nat × Request)} {replies : List Reply}
    {final : Workspace} (performed : Workspace.new.performAll? steps = some (replies, final)) :
    Isolated steps replies final := by
  -- In the beginning there is one session with nothing told of it, and no tree.
  have start : Faithful .new .new := ⟨.cons ⟨rfl, rfl⟩ .nil, .nil⟩
  obtain ⟨lengths, sessions, trees⟩ := Workspace.range_of_performAll? performed
  exact ⟨start.run performed, lengths, sessions.symm, trees.symm,
    fun number request => Workspace.isSome_perform?_iff⟩

/-- A clone of a clone and a new session run a tree that another session has stored. -/
theorem isolated_clones :
    let steps : List (Nat × Request) := [(0, .evaluate "x = 2"), (0, .clone),
      (1, .store "y = x * 3"), (1, .evaluate "x = 5"), (1, .clone), (0, .run 0), (2, .run 0),
      (0, .begin), (3, .run 0), (2, .evaluate "x = 1 +"), (1, .evaluate "--")]
    ∃ replies final, Workspace.new.performAll? steps = some (replies, final) ∧
      final.sessions.map (·.bindings.entries) =
        [[("x", .ofNat 2), ("y", .ofNat 6)], [], [("x", .ofNat 5), ("y", .ofNat 15)],
          [("y", .ofNat 0)]] ∧
      Isolated steps replies final := by
  intro steps
  have performed : (Workspace.new.performAll? steps).isSome = true := by decide +kernel
  obtain ⟨⟨replies, final⟩, found⟩ := Option.isSome_iff_exists.mp performed
  -- The clones have kept what they started with, and the header has cleared one session only.
  have sessions : (Workspace.new.performAll? steps).map
      (fun result => result.2.sessions.map (·.bindings.entries)) =
        some [[("x", .ofNat 2), ("y", .ofNat 6)], [], [("x", .ofNat 5), ("y", .ofNat 15)],
          [("y", .ofNat 0)]] := by decide +kernel
  rw [found] at sessions
  exact ⟨replies, final, found, Option.some.inj sessions, isolated_of_performAll? found⟩

end Reckon
