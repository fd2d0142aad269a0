import QueryHighlight.Command.Path

/-!
# Requests

The arguments of the program say what is asked for.  The two spellings of the
verbosity flag may stand anywhere and are set aside first; of the other
arguments, the first is the command or an option and the second names the
input.  Any further ones are ignored.
-/

namespace QueryHighlight

/-- The commands that read a query. -/
inductive Command where
  /-- Show the tokens of the query. -/
  | tokenize
  /-- Show the markup for the query. -/
  | highlight
  /-- Show a document with the query in it. -/
  | page
deriving DecidableEq, Repr

namespace Command

/-- Every command, in the order in which the usage text names them. -/
def all : List Command :=
  [.tokenize, .highlight, .page]

/-- The word for a command. -/
def word : Command → String
  | .tokenize => "tokenize"
  | .highlight => "highlight"
  | .page => "page"

/-- The command with a given word. -/
def ofWord? (word : String) : Option Command :=
  all.find? fun command => command.word == word

end Command

/-- Where a query is read from. -/
inductive Input where
  /-- Standard input. -/
  | standard
  /-- A file. -/
  | file (path : Path)
deriving DecidableEq, Repr

namespace Input

/-- A hyphen names standard input; any other name is that of a file. -/
def ofString (name : String) : Input :=
  if name = "-" then .standard else .file (Path.ofString name)

/-- The name of an input in messages. -/
def display : Input → String
  | .standard => "stdin"
  | .file path => path.display

/-- The title of a page that shows an input. -/
def title : Input → String
  | .standard => "stdin"
  | .file path => path.fileName

end Input

/-- What the arguments ask for. -/
inductive Request where
  /-- Nothing, as there are no arguments. -/
  | nothing
  /-- The usage text. -/
  | help
  /-- The version. -/
  | version
  /-- A command that there is not. -/
  | unknown (word : String)
  /-- A command without an input. -/
  | withoutInput (command : Command)
  /-- A command for an input. -/
  | run (command : Command) (input : Input)
deriving DecidableEq, Repr

/-- The request that arguments make once the verbosity flags are set aside. -/
def Request.ofArguments : List String → Request
  | [] => .nothing
  | first :: rest =>
    if first = "--help" ∨ first = "-h" then .help
    else if first = "--version" then .version
    else
      match Command.ofWord? first, rest with
      | none, _ => .unknown first
      | some command, [] => .withoutInput command
      | some command, name :: _ => .run command (Input.ofString name)

/-- A request, and whether the log is wanted with the answer. -/
structure Invocation where
  /-- Whether the log is wanted. -/
  verbose : Bool
  /-- What is asked for. -/
  request : Request
deriving DecidableEq, Repr

/-- The flags that ask for the log. -/
def isVerbosityFlag (argument : String) : Bool :=
  argument == "-v" || argument == "--verbose"

/-- Reads the arguments of the program. -/
def Invocation.ofArguments (arguments : List String) : Invocation where
  verbose := arguments.any isVerbosityFlag
  request := .ofArguments (arguments.filter fun argument => !isVerbosityFlag argument)

end QueryHighlight
