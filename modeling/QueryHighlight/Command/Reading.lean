import QueryHighlight.Command.Path
import QueryHighlight.Text.Quoted

/-!
# Readings

What comes of it when the program asks the system for an input.  It asks twice
for a file: first whether anything is there, and then for the bytes.  Either
question may meet a fault, so a `Reading` tells the two apart.  A fault that only
says that the path leads nowhere is an answer to the first question.
-/

namespace QueryHighlight

/-- Why the system does not do what it is asked for. -/
structure SystemFault where
  /-- The number of the fault. -/
  number : Nat
  /-- What it is called. -/
  words : String
deriving DecidableEq, Repr

namespace SystemFault

/-- The caller has no right to it. -/
def permissionDenied : SystemFault :=
  ⟨13, "Permission denied"⟩

/-- A directory has no bytes. -/
def isDirectory : SystemFault :=
  ⟨21, "Is a directory"⟩

/-- No file can have such a name. -/
def nameTooLong : SystemFault :=
  ⟨36, "File name too long"⟩

/-- The words for a fault at a path. -/
def message (fault : SystemFault) (path : Path) : String :=
  "[Errno " ++ toString fault.number ++ "] " ++ fault.words ++ ": " ++ quoted path.display

end SystemFault

/-- What is found where an input is looked for. -/
inductive Reading where
  /-- Nothing is there. -/
  | missing
  /-- The system does not say whether anything is there. -/
  | refused (fault : SystemFault)
  /-- Something is there, and its bytes cannot be read. -/
  | unreadable (fault : SystemFault)
  /-- These bytes. -/
  | content (bytes : List UInt8)
deriving DecidableEq, Repr

end QueryHighlight
