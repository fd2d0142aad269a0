/-!
# Reading entities back

`unescape` turns entities back into the characters they stand for.  It reads a
text once, from left to right, and never looks again at what it has written, so
an escaped ampersand does not start an entity together with what follows it.
-/

namespace QueryHighlight

/-- The text with its entities read back.  Anything else, an ampersand that
starts no entity included, stays as it is. -/
def unescape : List Char → List Char
  | [] => []
  | '&' :: 'a' :: 'm' :: 'p' :: ';' :: rest => '&' :: unescape rest
  | '&' :: 'l' :: 't' :: ';' :: rest => '<' :: unescape rest
  | '&' :: 'g' :: 't' :: ';' :: rest => '>' :: unescape rest
  | '&' :: 'q' :: 'u' :: 'o' :: 't' :: ';' :: rest => '"' :: unescape rest
  | '&' :: '#' :: '0' :: '3' :: '9' :: ';' :: rest => '\'' :: unescape rest
  | c :: rest => c :: unescape rest

end QueryHighlight
