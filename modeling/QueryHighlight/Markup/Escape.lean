/-!
# Escaping

Five characters have a meaning in markup and are written as entities.  A text
is escaped by five passes over it, one for each character.  Every entity starts
with an ampersand, so the ampersand's pass comes first: the entities that later
passes write are then left alone.
-/

namespace QueryHighlight

/-- The characters that are escaped, each with its entity, in the order of the
passes. -/
def entities : List (Char × String) :=
  [('&', "&amp;"), ('<', "&lt;"), ('>', "&gt;"), ('"', "&quot;"), ('\'', "&#039;")]

/-- One pass: a character is replaced wherever it stands. -/
def replaceChar (raw : Char) (entity : String) (text : List Char) : List Char :=
  text.flatMap fun c => if c = raw then entity.toList else [c]

/-- All passes, in order. -/
def escapeChars (text : List Char) : List Char :=
  entities.foldl (fun text entry => replaceChar entry.1 entry.2 text) text

/-- A text as it is written into markup. -/
def escape (text : String) : String :=
  String.ofList (escapeChars text.toList)

end QueryHighlight
