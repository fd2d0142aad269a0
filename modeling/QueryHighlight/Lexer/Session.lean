import QueryHighlight.Lexer.Tokenize

/-!
# Sessions with a lexer

A lexer can be driven one operation at a time: the rules may be applied at any
position and in any order, the cursor may be moved, and the source may be
replaced under a search that is still remembered.  A `Step` is one such
operation; `step` carries it out.  A step that fails leaves a state behind as
well, and the session goes on from there.
-/

namespace QueryHighlight

/-- One operation on a lexer. -/
inductive Step where
  /-- Reads the whole source from its start. -/
  | tokenize
  /-- Applies the rule that the character under the cursor selects. -/
  | readNext
  /-- Makes a quoted literal of what follows. -/
  | readQuote
  /-- Makes text of what follows. -/
  | readText
  /-- Makes an operator of what follows, if there is one. -/
  | readOperator
  /-- Makes a key of what follows, if there is one. -/
  | readKey
  /-- Finds the next equals sign. -/
  | findEquals
  /-- Reads the character under the cursor. -/
  | peek
  /-- Asks whether the cursor is at the end. -/
  | atEnd
  /-- Asks for white space at a position. -/
  | isSpaceAt (i : Int) (outside : Bool)
  /-- Asks whether a word ends a run of text. -/
  | endsText (word : String)
  /-- Makes a token of a span. -/
  | emit (kind : TokenKind) (start stop : Int)
  /-- Moves the cursor. -/
  | seek (pos : Int)
  /-- Replaces the source and nothing else. -/
  | replaceSource (text : String)
deriving DecidableEq, Repr

/-- What a step answers. -/
inductive Answer where
  /-- Nothing. -/
  | done
  /-- Yes or no. -/
  | flag (value : Bool)
  /-- A position in the source, if there is one. -/
  | position (i : Option Nat)
  /-- A character. -/
  | char (c : Char)
  /-- Tokens. -/
  | tokens (list : List Token)
deriving DecidableEq, Repr

namespace Lexer

/-- Carries out one step. -/
def step (lexer : Lexer) : Step → Outcome Answer
  | .tokenize => lexer.tokenize.map .tokens
  | .readNext => lexer.readNext.map fun _ => .done
  | .readQuote => lexer.readQuote.map fun _ => .done
  | .readText => lexer.readText.map fun _ => .done
  | .readOperator => lexer.readOperator.map .flag
  | .readKey => lexer.readKey.map .flag
  | .findEquals =>
    ⟨.ok (.position lexer.lookAhead.lookahead.position?), lexer.lookAhead⟩
  | .peek => lexer.peek.map .char
  | .atEnd => ⟨.ok (.flag lexer.atEnd), lexer⟩
  | .isSpaceAt i outside => ⟨.ok (.flag (lexer.source.isSpaceAt i outside)), lexer⟩
  | .endsText word => ⟨.ok (.flag (wordEndsText word)), lexer⟩
  | .emit kind start stop => ⟨.ok .done, lexer.emit kind start stop⟩
  | .seek pos => ⟨.ok .done, { lexer with pos }⟩
  | .replaceSource text =>
    ⟨.ok .done, { lexer with source := Source.ofString text }⟩

/-- The state after a sequence of steps, failed ones included. -/
def after (lexer : Lexer) (steps : List Step) : Lexer :=
  steps.foldl (fun lexer step => (lexer.step step).lexer) lexer

end Lexer

/-! ## What can be offered as a source -/

/-- The sorts of value, other than text, that may be offered as a source. -/
inductive NonText where
  /-- No value. -/
  | absent
  /-- A truth value. -/
  | truth
  /-- A whole number. -/
  | integer
  /-- A number with a fraction. -/
  | fraction
  /-- A list of values. -/
  | list
  /-- A mapping from names to values. -/
  | mapping
  /-- A sequence of bytes. -/
  | bytes
deriving DecidableEq, Repr

/-- The word for a sort of value. -/
def NonText.name : NonText → String
  | .absent => "NoneType"
  | .truth => "bool"
  | .integer => "int"
  | .fraction => "float"
  | .list => "list"
  | .mapping => "dict"
  | .bytes => "bytes"

/-- The words with which a lexer refuses a source that is no text. -/
def NonText.message (found : NonText) : String :=
  "Lexer source must be str, got " ++ found.name

/-- A value offered as a source. -/
inductive Offer where
  /-- A text. -/
  | text (given : String)
  /-- Any other value, by its sort. -/
  | other (found : NonText)
deriving DecidableEq, Repr

/-- Only a text is accepted as a source. -/
def Offer.accept : Offer → Except NonText String
  | .text given => .ok given
  | .other found => .error found

end QueryHighlight
