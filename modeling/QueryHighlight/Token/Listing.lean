import QueryHighlight.Text.Quoted
import QueryHighlight.Token.Basic

/-!
# Token listings

A token is shown on one line, as its kind, its quoted content and its span.
Quoting keeps line ends out of the content, so a listing has one line for each
token.

The module also holds the message for a label that names no kind, which quotes
the label in the same way.
-/

namespace QueryHighlight

/-- One token, shown as text. -/
def Token.display (token : Token) : String :=
  "Token(" ++ token.kind.constant ++ ", " ++ quoted token.content ++ ", " ++
    toString token.start ++ ":" ++ toString token.stop ++ ")"

/-- The lines that show a list of tokens, each with the newline that ends it. -/
def listing (tokens : List Token) : String :=
  String.join (tokens.map fun token => token.display ++ "\n")

/-- A label that names no kind of token. -/
structure UnknownLabel where
  /-- The label. -/
  label : String
deriving DecidableEq, Repr

/-- The words for an unknown label. -/
def UnknownLabel.message (unknown : UnknownLabel) : String :=
  quoted unknown.label ++ " is not a valid TokenType"

/-- The kind with a given label, or the label as an unknown one. -/
def TokenKind.ofLabel (label : String) : Except UnknownLabel TokenKind :=
  match TokenKind.ofLabel? label with
  | some kind => .ok kind
  | none => .error ⟨label⟩

end QueryHighlight
