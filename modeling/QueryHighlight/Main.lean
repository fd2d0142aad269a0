import QueryHighlight.Command.Reply

/-!
# The program

The outermost layer: it fetches the bytes of the input that the arguments
name, and writes the reply.  What the reply is, `Invocation.respond` decides.  A
fault that is left to the caller is thrown.
-/

namespace QueryHighlight

/-- The bytes of a stream, up to its end. -/
partial def readToEnd (stream : IO.FS.Stream) (done : ByteArray) : IO ByteArray := do
  let more ← stream.read 65536
  if more.isEmpty then pure done else readToEnd stream (done ++ more)

/-- What is found at a path.  A directory can be opened but not read, so only
then does the failure come without a name.  A name that is too long has its own
code; other failures of that kind say that there is no such file. -/
def fetchFile (path : Path) : IO Reading := do
  try
    let bytes ← IO.FS.readBinFile path.display
    pure (.content bytes.toList)
  catch
    | .inappropriateType none _ _ => pure (.unreadable .isDirectory)
    | .permissionDenied _ _ _ => pure (.unreadable .permissionDenied)
    | .invalidArgument _ code _ =>
      pure (if -code = 36 then .refused .nameTooLong else .missing)
    | _ => pure .missing

/-- What is found at an input. -/
def fetch : Input → IO Reading
  | .standard => do
    let bytes ← readToEnd (← IO.getStdin) ByteArray.empty
    pure (.content bytes.toList)
  | .file path => fetchFile path

/-- What is found at the input of a request, if it has one. -/
def Request.fetch : Request → IO Reading
  | .run _ input => QueryHighlight.fetch input
  | _ => pure .missing

end QueryHighlight

open QueryHighlight in
/-- Answers the arguments of the program. -/
def main (arguments : List String) : IO UInt32 := do
  let invocation := Invocation.ofArguments arguments
  let reading ← invocation.request.fetch
  let reply := invocation.respond .start fun _ => reading
  IO.eprint reply.log
  IO.print reply.output
  match reply.ending with
  | .status code => pure code.toUInt32
  | .raised path fault => throw (IO.userError (fault.message path))
