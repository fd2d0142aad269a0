import QueryHighlight.Command.Reading

/-!
# File trees

A `FileTree` lists files and directories by the places where they lie below the
root, and knows in which directory the program works; `look` says what a path
leads to.  A path with leading slashes is followed from the root, and any other
one from the working directory.

Paths are followed component by component, both when something is added and
when it is looked for.  A component that means "one up" is therefore resolved
by the place where it stands: adding a file makes every directory that its path
goes through, also one that is left again right after it, and a path that goes
through something that is no directory leads nowhere, like one with a character
that no name holds.  The system refuses to follow a path that is too long, and to
look in a directory for a name that is.

The directories on the way to the working directory exist, and nothing else is
known to exist unless it is added.
-/

namespace QueryHighlight

/-! ## Places -/

/-- Where a file or a directory lies. -/
structure Place where
  /-- The names to go down by from the root. -/
  names : List String
deriving DecidableEq, Repr

namespace Place

/-- The directory that all others are in. -/
def root : Place :=
  ⟨[]⟩

/-- The place that one more component leads to.  Above the root there is only the
root. -/
def enter (place : Place) (component : String) : Place :=
  if component = Path.up then ⟨place.names.dropLast⟩ else ⟨place.names ++ [component]⟩

/-- Going down to the second place leads through the first, or no further. -/
def leadsTo (place target : Place) : Bool :=
  place.names.isPrefixOf target.names

end Place

/-! ## Trees -/

/-- What can be listed. -/
inductive Node where
  /-- A directory. -/
  | directory
  /-- A file with these bytes. -/
  | file (bytes : List UInt8)
deriving DecidableEq, Repr

/-- What is found at a node. -/
def Node.reading : Node → Reading
  | .directory => .unreadable .isDirectory
  | .file bytes => .content bytes

/-- The files and directories that can be named. -/
structure FileTree where
  /-- Where paths without leading slashes start. -/
  workingDirectory : Place
  /-- Where each of them lies, and what it is, the last one added first. -/
  entries : List (Place × Node)
deriving DecidableEq, Repr

namespace FileTree

/-- The tree without files. -/
def empty (workingDirectory : Place) : FileTree :=
  ⟨workingDirectory, []⟩

/-- What lies at a place. -/
def node? (tree : FileTree) (place : Place) : Option Node :=
  if place.leadsTo tree.workingDirectory then some .directory
  else tree.entries.lookup place

/-- Where a path starts. -/
def origin (tree : FileTree) (path : Path) : Place :=
  if path.leadingSlashes = 0 then tree.workingDirectory else .root

/-! ## Looking -/

/-- The character that ends a path for the system, so that no name holds it. -/
def terminator : Char :=
  '\x00'

/-- The greatest number of bytes in the name of a file or a directory. -/
def nameLimit : Nat :=
  255

/-- The greatest number of bytes in the written form of a path. -/
def pathLimit : Nat :=
  4095

/-- What a list of components leads to from a place. -/
def lookFrom (tree : FileTree) (place : Place) : List String → Reading
  | [] =>
    match tree.node? place with
    | none => .missing
    | some node => node.reading
  | component :: rest =>
    if tree.node? place = some .directory then
      if nameLimit < component.utf8ByteSize then .refused .nameTooLong
      else tree.lookFrom (place.enter component) rest
    else .missing

/-- What a path leads to. -/
def look (tree : FileTree) (path : Path) : Reading :=
  if ∃ name ∈ path.components, terminator ∈ name.toList then .missing
  else if pathLimit < path.display.utf8ByteSize then .refused .nameTooLong
  else tree.lookFrom (tree.origin path) path.components

/-! ## Adding -/

/-- The tree with a node at a place. -/
def put (tree : FileTree) (place : Place) (node : Node) : FileTree :=
  { tree with entries := (place, node) :: tree.entries }

/-- The tree with a directory at a place, unless something is there. -/
def makeDirectory (tree : FileTree) (place : Place) : FileTree :=
  if tree.node? place = none then tree.put place .directory else tree

/-- The tree with a node where a list of components leads to from a place, and
with every directory on the way. -/
def addFrom (tree : FileTree) (place : Place) (node : Node) :
    List String → FileTree
  | [] => tree
  | [name] => tree.put (place.enter name) node
  | component :: rest =>
    let next := place.enter component
    (tree.makeDirectory next).addFrom next node rest

/-- The tree with one more file or directory, by the name it is given. -/
def add (tree : FileTree) (name : String) (node : Node) : FileTree :=
  let path := Path.ofString name
  tree.addFrom (tree.origin path) node path.components

end FileTree
end QueryHighlight
