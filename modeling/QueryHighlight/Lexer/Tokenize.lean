import QueryHighlight.Lexer.Rules

/-!
# Tokenizing

A whole source is read by applying rules until the cursor is at its end.  The
remaining distance to the end bounds the number of rules applied, because each
one moves the cursor forward.

`tokenize` is the function that the rest of the library uses.
-/

namespace QueryHighlight
namespace Lexer

/-- Applies rules until the cursor is at the end of the source, or until one
fails. -/
def readAll (lexer : Lexer) : Outcome Unit :=
  if _hend : lexer.atEnd then ⟨.ok (), lexer⟩
  else
    match _hnext : lexer.readNext with
    | ⟨.error fault, after⟩ => ⟨.error fault, after⟩
    | ⟨.ok (), after⟩ => after.readAll
termination_by (lexer.source.size - lexer.pos).toNat
decreasing_by exact size_sub_pos_lt _hend _hnext

/-- The state from which every tokenizing starts: only the source is kept. -/
def reset (lexer : Lexer) : Lexer :=
  ofSource lexer.source

/-- Reads the whole source from its start.  The answer is its tokens. -/
def tokenize (lexer : Lexer) : Outcome (List Token) :=
  match lexer.reset.readAll with
  | ⟨.error fault, after⟩ => ⟨.error fault, after⟩
  | ⟨.ok (), after⟩ => ⟨.ok after.tokens.toList, after⟩

end Lexer

/-- The tokens of a source, in order. -/
def Source.tokens (source : Source) : List Token :=
  (Lexer.ofSource source).tokenize.lexer.tokens.toList

/-- The tokens of a text, in order. -/
def tokenize (text : String) : List Token :=
  (Source.ofString text).tokens

end QueryHighlight
