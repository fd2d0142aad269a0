import QueryHighlight.Text.CharClass

/-!
# The lexicon

The characters and words that have a meaning in a query, and the two tests
that combine them: whether a word spells an operator, and whether a character
ends a run of ordinary text.
-/

namespace QueryHighlight

/-- The words that combine conditions, in the order in which they are tried. -/
def operators : List String :=
  ["AND", "OR", "NOT"]

/-- The characters that open and close a quoted literal. -/
def quotes : List Char :=
  ['"', '\'', '”']

/-- The two parentheses. -/
def parentheses : List Char :=
  ['(', ')']

/-- The sign between a key and its value. -/
def equalsSign : Char :=
  '='

/-- The character that keeps a quote after it from closing a literal. -/
def escapeSign : Char :=
  '\\'

/-- The characters, white space apart, that end a run of ordinary text. -/
def delimiters : List Char :=
  parentheses ++ quotes ++ [equalsSign]

/-- A word spells an operator in any mixture of upper and lower case.  Only
ASCII letters can be meant: no other character has an upper-case form made of
the letters of an operator. -/
def spells (word operator : String) : Bool :=
  word.toList.map Char.toUpper == operator.toList

/-- The test for a character that ends a run of ordinary text. -/
def endsText (c : Char) : Bool :=
  isSpace c || delimiters.contains c

/-- The same test for a word: it ends a run of text when it is a single
delimiter, or is made of white space and is not empty. -/
def wordEndsText (word : String) : Bool :=
  match word.toList with
  | [] => false
  | [c] => endsText c
  | chars => chars.all isSpace

end QueryHighlight
