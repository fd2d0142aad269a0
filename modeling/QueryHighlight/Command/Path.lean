/-!
# Paths

The name of a file is split into components at slashes.  Empty components and
those that mean "here" say nothing and are dropped, so a path has one written
form; a component that means "one up" is kept, because what it leads to depends
on the files.
-/

namespace QueryHighlight

/-- The name of a file, by components. -/
structure Path where
  /-- How many slashes it starts with: none, one, or two. -/
  leadingSlashes : Nat
  /-- The components, from the outermost to the file itself. -/
  components : List String
deriving DecidableEq, Repr

/-- The pieces of a text between slashes, empty ones included. -/
def splitAtSlashes : List Char → List (List Char)
  | [] => [[]]
  | c :: rest =>
    if c = '/' then [] :: splitAtSlashes rest
    else
      match splitAtSlashes rest with
      | [] => [[c]]
      | piece :: pieces => (c :: piece) :: pieces

namespace Path

/-- The component that means the directory it stands in. -/
def here : String :=
  "."

/-- The component that means the directory above. -/
def up : String :=
  ".."

/-- The path with a given name.  Two leading slashes are kept as they are; any
other number of them counts as one. -/
def ofString (name : String) : Path :=
  let chars := name.toList
  let slashes := (chars.takeWhile (· == '/')).length
  let pieces := (splitAtSlashes chars).map String.ofList
  { leadingSlashes := if slashes = 2 then 2 else min slashes 1
    components := pieces.filter fun piece => piece != "" && piece != here }

/-- The written form of a path. -/
def display (path : Path) : String :=
  if path.leadingSlashes = 0 ∧ path.components = [] then here
  else
    String.ofList (List.replicate path.leadingSlashes '/') ++
      String.intercalate "/" path.components

/-- The last component of a path; empty if the path has none. -/
def fileName (path : Path) : String :=
  path.components.getLast?.getD ""

end Path
end QueryHighlight
