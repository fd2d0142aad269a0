import QueryHighlight.Command.Reading
import QueryHighlight.Command.Request
import QueryHighlight.Markup.Page
import QueryHighlight.Text.Newline
import QueryHighlight.Text.Utf8
import QueryHighlight.Token.Listing

/-!
# Replies

What the program writes for a request, and with which status it ends.  The
bytes of an input come from outside: `respond` is given a function that says
what is found at each input, and the rest is computed from that.

An input that cannot be read is reported in the ordinary output, like every
other refusal.  Only a fault that is met before there is anything to read, by the
question whether a file is there, is not reported: the program does not come to a
status then, but leaves the fault to its caller.

The log is written apart, and only when it is asked for.  Its settings outlive a
call, so `respond` is given those that the call finds.
-/

namespace QueryHighlight

/-- The version of the program. -/
def programVersion : String :=
  "0.1.0"

/-- How the program is used. -/
def usage : String :=
  "queryhl command line entry point.\n" ++
  "\n" ++
  "Usage:\n" ++
  "    queryhl tokenize <file>      Display the token stream\n" ++
  "    queryhl highlight <file>     Print the highlighted HTML fragment\n" ++
  "    queryhl page <file>          Print a standalone HTML preview page\n" ++
  "\n" ++
  "Pass '-' as <file> to read the query from standard input.\n" ++
  "Add -v or --verbose anywhere to enable debug logging."

/-! ## Reading an input -/

/-- Why an input gives no query. -/
inductive InputFault where
  /-- There is no such file. -/
  | notFound (path : Path)
  /-- The system does not say whether there is such a file. -/
  | refused (path : Path) (fault : SystemFault)
  /-- There is something, and the system does not give its bytes. -/
  | unreadable (path : Path) (fault : SystemFault)
  /-- The bytes are not UTF-8. -/
  | notUtf8 (input : Input) (fault : Utf8.Fault)
deriving DecidableEq, Repr

/-- The words for a fault. -/
def InputFault.message : InputFault → String
  | .notFound path => "file not found: " ++ path.display
  | .refused path fault => fault.message path
  | .unreadable path fault =>
    "cannot read " ++ path.display ++ ": " ++ fault.message path
  | .notUtf8 input fault =>
    "cannot read " ++ input.display ++ ": " ++ fault.message

/-- The query that bytes hold. -/
def decodeQuery (input : Input) (bytes : List UInt8) : Except InputFault String :=
  match Utf8.decode bytes with
  | .ok chars => .ok (String.ofList (unifyNewlines chars))
  | .error fault => .error (.notUtf8 input fault)

/-- The query at an input, given what is found there.  Standard input always has
bytes, if only none. -/
def readQuery (input : Input) (reading : Reading) : Except InputFault String :=
  match reading, input with
  | .content bytes, input => decodeQuery input bytes
  | .missing, .file path => .error (.notFound path)
  | .refused fault, .file path => .error (.refused path fault)
  | .unreadable fault, .file path => .error (.unreadable path fault)
  | _, .standard => decodeQuery .standard []

/-! ## The log -/

/-- What is noted in the log. -/
inductive Note where
  /-- The log is on. -/
  | verbose
  /-- A quoted literal has no closing quote. -/
  | unterminated (quote : Char) (start : Int)
  /-- A query has been read. -/
  | tokenized (chars tokens : Nat)
  /-- Markup has been written. -/
  | rendered (tokens : Nat)
deriving DecidableEq, Repr

/-- The line for a note, without the newline that ends it. -/
def Note.line : Note → String
  | .verbose => "DEBUG queryhl: verbose mode enabled"
  | .unterminated quote start =>
    "DEBUG queryhl.lexer.lexer: unterminated " ++ quoted quote.toString ++
      " quote at " ++ toString start
  | .tokenized chars tokens =>
    "DEBUG queryhl.lexer.lexer: tokenized " ++ toString chars ++ " chars into " ++
      toString tokens ++ " tokens"
  | .rendered tokens =>
    "DEBUG queryhl.render.highlighter: rendered " ++ toString tokens ++ " tokens"

/-- The notes about the tokens of a query: one for each quoted literal that is
not closed, and one for all of them. -/
def tokenNotes (query : String) (tokens : List Token) : List Note :=
  let unterminated := tokens.filterMap fun token =>
    if token.isUnterminated then
      token.content.toList.head?.map (.unterminated · token.start)
    else none
  unterminated ++ [.tokenized query.length tokens.length]

/-- How grave a note must be to be written. -/
inductive LogLevel where
  /-- Every note is written. -/
  | debug
  /-- Only warnings are written.  No note is one. -/
  | warning
deriving DecidableEq, Repr

/-- The settings of the log. -/
structure Log where
  /-- How grave a note must be. -/
  level : LogLevel
  /-- How many handlers there are.  Each of them writes every line. -/
  handlers : Nat
deriving DecidableEq, Repr

namespace Log

/-- The log before the first call. -/
def start : Log :=
  ⟨.warning, 0⟩

/-- The log as a call sets it up: there is a handler, and the level is that of
the call. -/
def configure (log : Log) (verbose : Bool) : Log where
  level := if verbose then .debug else .warning
  handlers := if log.handlers = 0 then 1 else log.handlers

/-- What is written for notes. -/
def written (log : Log) (notes : List Note) : String :=
  match log.level with
  | .debug =>
    String.join (notes.flatMap fun note => List.replicate log.handlers (note.line ++ "\n"))
  | .warning => ""

end Log

/-! ## Replies -/

/-- How a call of the program ends. -/
inductive Ending where
  /-- With a status. -/
  | status (code : Nat)
  /-- With a fault at a path, which is left to the caller. -/
  | raised (path : Path) (fault : SystemFault)
deriving DecidableEq, Repr

/-- What the program answers. -/
structure Reply where
  /-- How it ends. -/
  ending : Ending
  /-- The ordinary output. -/
  output : String
  /-- The log, empty unless it is asked for. -/
  log : String
deriving DecidableEq, Repr

/-- An end and output, with the notes made on the way. -/
structure Response where
  /-- How the program ends. -/
  ending : Ending
  /-- The ordinary output. -/
  output : String
  /-- What is noted for the log. -/
  notes : List Note

/-- A refusal: a line that says why, then more text. -/
def refuse (why more : String) : Response :=
  ⟨.status 1, "Error: " ++ why ++ "\n" ++ more, []⟩

/-- What comes of a fault.  A fault of the question whether a file is there is met
outside the part of the program that reports faults. -/
def InputFault.response : InputFault → Response
  | .refused path fault => ⟨.raised path fault, "", []⟩
  | fault => refuse fault.message ""

/-- The output of a command for a query. -/
def Command.output (command : Command) (query title : String) : String :=
  match command with
  | .tokenize => listing (QueryHighlight.tokenize query)
  | .highlight => Renderer.default.highlight query ++ "\n"
  | .page => Renderer.default.page query title

/-- The notes of a command for a query. -/
def Command.notes (command : Command) (query : String) : List Note :=
  let tokens := QueryHighlight.tokenize query
  match command with
  | .tokenize => tokenNotes query tokens
  | .highlight | .page => tokenNotes query tokens ++ [.rendered tokens.length]

/-- Carries out a request, given what is found at each input. -/
def Request.response (look : Input → Reading) : Request → Response
  | .nothing => ⟨.status 1, usage ++ "\n", []⟩
  | .help => ⟨.status 0, usage ++ "\n", []⟩
  | .version => ⟨.status 0, "queryhl " ++ programVersion ++ "\n", []⟩
  | .unknown word => refuse ("unknown command '" ++ word ++ "'") (usage ++ "\n")
  | .withoutInput command =>
    refuse ("command '" ++ command.word ++ "' requires a file argument") ""
  | .run command input =>
    match readQuery input (look input) with
    | .error fault => fault.response
    | .ok query => ⟨.status 0, command.output query input.title, command.notes query⟩

/-- The reply to an invocation, given the log as the call finds it and what is
found at each input.  Setting up the log is the first thing noted in it. -/
def Invocation.respond (invocation : Invocation) (log : Log) (look : Input → Reading) :
    Reply :=
  let response := invocation.request.response look
  { ending := response.ending
    output := response.output
    log := (log.configure invocation.verbose).written (.verbose :: response.notes) }

end QueryHighlight
