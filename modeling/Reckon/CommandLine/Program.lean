import Reckon.CommandLine.Arguments
import Reckon.CommandLine.Dialogue
import Reckon.CommandLine.Listing

/-! The whole program, from its arguments to everything it prints. -/

namespace Reckon.CommandLine

/-- The name that the program goes by. -/
def programName : String := "calcline"

/-- What the program says of its version. -/
def versionText : String := programName ++ " 0.1.0\n"

/-- How the program is called. -/
def usageText : String := "Usage: " ++ programName ++ " [OPTIONS] [FILE]\n"

/-- What the program says of itself and its use. -/
def helpText : String :=
  "An interactive calculator language with variables, hex/binary literals and a layered " ++
  "precedence grammar.\n\n" ++ usageText ++ "\n" ++
  "Arguments:\n" ++
  "  [FILE]  Evaluates every line of this file in one session instead of reading from " ++
  "standard input\n\n" ++
  "Options:\n" ++
  "  -t, --tree     Prints the parse tree of every line before its value\n" ++
  "  -g, --grammar  Prints the grammar rules and exits\n" ++
  "  -h, --help     Print help\n" ++
  "  -V, --version  Print version\n"

/-- What is read from arguments: options, or a response with which the program ends at once. -/
def readOptions (arguments : List String) : Except Response Options :=
  match Invocation.ofArguments arguments with
  | .run options => .ok options
  | .showVersion => .error ⟨0, versionText, ""⟩
  | .showHelp => .error ⟨0, helpText, ""⟩
  | .misuse => .error ⟨2, "", usageText ++ "\nFor more information, try '--help'.\n"⟩

/-- What has to be read before the program can respond. -/
inductive Plan where
  /-- Nothing more. -/
  | done (response : Response)
  /-- The file at a path. -/
  | file (tree : Bool) (path : String)
  /-- Standard input, line by line. -/
  | dialogue (tree : Bool)

/-- The plan that options set. -/
def Plan.ofOptions (options : Options) : Plan :=
  if options.grammar then .done ⟨0, listing, ""⟩
  else match options.file with
    | some path => .file options.tree path
    | none => .dialogue options.tree

/-- The plan that is set by what has been read from arguments. -/
def Plan.ofReading : Except Response Options → Plan
  | .ok options => .ofOptions options
  | .error response => .done response

/-- The plan that arguments set. -/
def Plan.ofArguments (arguments : List String) : Plan := .ofReading (readOptions arguments)

/-- The response that comes of a plan, given what each path and standard input hold. -/
def Plan.carryOut (plan : Plan) (files : String → Except String (List UInt8))
    (input : List UInt8) : Response :=
  match plan with
  | .done response => response
  | .file tree path => reportFile tree path (files path)
  | .dialogue tree => Reckon.CommandLine.dialogue tree input

/-- The response to arguments, given how they are read and what paths and standard input hold. -/
def respondBy (read : List String → Except Response Options) (arguments : List String)
    (files : String → Except String (List UInt8)) (input : List UInt8) : Response :=
  (Plan.ofReading (read arguments)).carryOut files input

/-- The response to arguments, given what each path and standard input hold. -/
def respondTo (arguments : List String) (files : String → Except String (List UInt8))
    (input : List UInt8) : Response :=
  respondBy readOptions arguments files input

end Reckon.CommandLine
