import QueryHighlight.Command.Reply

/-!
# Sessions with the program

The program may be called several times in one process.  The calls see the same
files and share one standard input, which is at its end once a call has read
it.  They also share the log, and each sets it up for itself.  A call that ends
with a fault leaves the process as any other call does.
-/

namespace QueryHighlight

/-- Where the program is called. -/
structure Surroundings where
  /-- What is found at each path. -/
  files : Path → Reading
  /-- The bytes that standard input still holds. -/
  standardInput : List UInt8

namespace Surroundings

/-- What is found at an input. -/
def look (surroundings : Surroundings) : Input → Reading
  | .standard => .content surroundings.standardInput
  | .file path => surroundings.files path

/-- What a request leaves behind: standard input is at its end once it has
been read. -/
def after (surroundings : Surroundings) : Request → Surroundings
  | .run _ .standard => { surroundings with standardInput := [] }
  | _ => surroundings

end Surroundings

/-- A process that the program is called in. -/
structure Process where
  /-- Where it runs. -/
  surroundings : Surroundings
  /-- The log, as the last call has set it up. -/
  log : Log

namespace Process

/-- A process before the first call. -/
def start (surroundings : Surroundings) : Process :=
  ⟨surroundings, .start⟩

/-- The reply to a list of arguments, and what the process is after it. -/
def call (process : Process) (arguments : List String) : Reply × Process :=
  let invocation := Invocation.ofArguments arguments
  (invocation.respond process.log process.surroundings.look,
    { surroundings := process.surroundings.after invocation.request
      log := process.log.configure invocation.verbose })

/-- The replies to several lists of arguments, one after another. -/
def calls (process : Process) : List (List String) → List Reply
  | [] => []
  | arguments :: rest =>
    (process.call arguments).1 :: (process.call arguments).2.calls rest

end Process

namespace Surroundings

/-- The reply to a list of arguments. -/
def call (surroundings : Surroundings) (arguments : List String) : Reply :=
  ((Process.start surroundings).call arguments).1

/-- The replies to several lists of arguments, one after another. -/
def calls (surroundings : Surroundings) (requests : List (List String)) : List Reply :=
  (Process.start surroundings).calls requests

end Surroundings
end QueryHighlight
