import Reckon.Session

/-! Several sessions side by side, and trees that any of them can run. -/

namespace Reckon

/-- Sessions and stored trees, each known by its number. -/
structure Workspace where
  /-- The sessions, oldest first. -/
  sessions : List Session
  /-- The trees that were stored, oldest first. -/
  trees : List Expr
  deriving DecidableEq

/-- Something asked of one session. -/
inductive Request where
  /-- Evaluate a line. -/
  | evaluate (line : String)
  /-- Read a line and store its tree without evaluating it. -/
  | store (line : String)
  /-- Evaluate a stored tree. -/
  | run (tree : Nat)
  /-- Look at the bindings. -/
  | look
  /-- Begin another session with nothing bound. -/
  | begin
  /-- Begin another session with the same bindings. -/
  | clone
  /-- Compare the bindings with those of another session. -/
  | compare (other : Nat)
  deriving DecidableEq

/-- What comes of a request. -/
inductive Reply where
  /-- The value of what was evaluated. -/
  | value (value : Binary64)
  /-- The tree that was stored, and the number it can be run by. -/
  | stored (tree : Expr) (number : Nat)
  /-- Where and why a line does not match. -/
  | rejected (error : SyntaxError)
  /-- The bindings of the session. -/
  | bindings (bindings : Bindings)
  /-- The number of the session that began. -/
  | session (number : Nat)
  /-- Whether the bindings are the same. -/
  | comparison (same : Bool)
  deriving DecidableEq

namespace Workspace

/-- One session with nothing bound, and no tree. -/
def new : Workspace := ⟨[.new], []⟩

/-- The workspace after a session has taken a turn. -/
def after (workspace : Workspace) (number : Nat) (turn : Turn) : Reply × Workspace :=
  let reply := match turn.answer with
    | .ok value => Reply.value value
    | .error error => Reply.rejected error
  (reply, { workspace with sessions := workspace.sessions.set number turn.session })

/-- The workspace with another session, which gets the next number. -/
def add (workspace : Workspace) (session : Session) : Reply × Workspace :=
  (.session workspace.sessions.length,
    { workspace with sessions := workspace.sessions ++ [session] })

/-- What comes of a request to the session of a number, if everything it names is there. -/
def perform? (workspace : Workspace) (number : Nat) (request : Request) :
    Option (Reply × Workspace) := do
  let session ← workspace.sessions[number]?
  match request with
  | .evaluate line => return workspace.after number (session.evaluate line)
  | .store line =>
    match parse line with
    -- A line that does not match leaves no tree and takes no number.
    | .error error => return (.rejected error, workspace)
    | .ok tree =>
      let stored := { workspace with trees := workspace.trees ++ [tree] }
      return (.stored tree workspace.trees.length, stored)
  -- The stored tree is evaluated as it is, in whichever session asks for it.
  | .run tree => return workspace.after number (session.run (← workspace.trees[tree]?))
  | .look => return (.bindings session.bindings, workspace)
  | .begin => return workspace.add .new
  | .clone => return workspace.add session
  | .compare other =>
    let right ← workspace.sessions[other]?
    return (.comparison (session.bindings.same right.bindings), workspace)

end Workspace

end Reckon
