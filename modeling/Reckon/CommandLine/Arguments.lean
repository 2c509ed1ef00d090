/-! The arguments of the command line. -/

namespace Reckon.CommandLine

/-- What the arguments ask for. -/
structure Options where
  /-- Show the tree of each line before its value. -/
  tree : Bool
  /-- List the rules of the grammar instead of reading lines. -/
  grammar : Bool
  /-- Read the lines of a file instead of holding a dialogue. -/
  file : Option String
  deriving DecidableEq

/-- What a command line comes down to. -/
inductive Invocation where
  | run (options : Options)
  | showVersion
  | showHelp
  /-- The arguments make no sense together or by themselves. -/
  | misuse
  deriving DecidableEq

namespace Options

/-- Nothing is asked for. -/
def initial : Options := ⟨false, false, none⟩

/-- Takes the name of a file, of which there may be one and which may not be empty. -/
def withFile? (options : Options) (name : String) : Option Options :=
  if name.isEmpty || options.file.isSome then none else some { options with file := some name }

/-- Asks for trees, once. -/
def withTree? (options : Options) : Option Options :=
  if options.tree then none else some { options with tree := true }

/-- Asks for the grammar, once. -/
def withGrammar? (options : Options) : Option Options :=
  if options.grammar then none else some { options with grammar := true }

end Options

/-- Goes on with the options, or gives up if they were refused. -/
def onward (options : Option Options) (next : Options → Invocation) : Invocation :=
  match options with
  | some options => next options
  | none => .misuse

/-- Reads the letters behind a single dash, and goes on with the options they make. -/
def readLetters (next : Options → Invocation) : List Char → Options → Invocation
  | [], options => next options
  | 't' :: letters, options => onward options.withTree? (readLetters next letters)
  | 'g' :: letters, options => onward options.withGrammar? (readLetters next letters)
  | 'h' :: _, _ => .showHelp
  | 'V' :: _, _ => .showVersion
  | _ :: _, _ => .misuse

/-- Reads arguments that are all names of files. -/
def readFiles : List String → Options → Invocation
  | [], options => .run options
  | name :: arguments, options => onward (options.withFile? name) (readFiles arguments)

/--
Reads arguments from left to right.

The first request for help or the version is met at once, so only what stands before it can be
misused.
-/
def readArguments : List String → Options → Invocation
  | [], options => .run options
  | argument :: arguments, options =>
    match argument.toList with
    | ['-', '-'] => readFiles arguments options
    | '-' :: '-' :: word =>
      match String.ofList word with
      | "tree" => onward options.withTree? (readArguments arguments)
      | "grammar" => onward options.withGrammar? (readArguments arguments)
      | "help" => .showHelp
      | "version" => .showVersion
      | _ => .misuse
    | '-' :: first :: letters => readLetters (readArguments arguments) (first :: letters) options
    -- A dash by itself is the name of a file too.
    | _ => onward (options.withFile? argument) (readArguments arguments)

/-- What the arguments of a command line come down to. -/
def Invocation.ofArguments (arguments : List String) : Invocation :=
  readArguments arguments .initial

end Reckon.CommandLine
