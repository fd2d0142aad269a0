import QueryHighlight.Lexer.Extent
import QueryHighlight.Token.Basic

/-!
# Lexer states

A lexer reads a source from left to right.  Its state is the source, the
position of the cursor, the tokens made so far, and what it remembers about
the next equals sign.

Looking for an equals sign may take the whole rest of the source, so the
answer is kept until the cursor has passed it.  `search` is the only operation
that searches the source for it, and `lookAhead` the only one that uses it.
What searches cost shows in their number and in the positions they examine, so
the state also has a list of them, which no rule reads.

An operation that may fail returns an `Outcome`, which has the lexer's state
also when there is no answer.
-/

namespace QueryHighlight

/-! ## The state -/

/-- What a lexer remembers about the next equals sign. -/
inductive Lookahead where
  /-- The source has not been searched. -/
  | unsearched
  /-- A search found none. -/
  | absent
  /-- A search found one at this position. -/
  | found (i : Nat)
deriving DecidableEq, Repr

namespace Lookahead

/-- What a search remembers. -/
def ofSearch : Option Nat → Lookahead
  | none => .absent
  | some i => .found i

/-- The position of the equals sign, if one is known. -/
def position? : Lookahead → Option Nat
  | .found i => some i
  | _ => none

/-- Whether the source must be searched again once the cursor is at `pos`. -/
def isStale (lookahead : Lookahead) (pos : Int) : Bool :=
  match lookahead with
  | .unsearched => true
  | .absent => false
  | .found i => i < pos

end Lookahead

/-- A search of the source for the next equals sign. -/
structure Search where
  /-- The position where it begins. -/
  start : Int
  /-- The position that it finds, if there is one. -/
  found : Option Nat
deriving DecidableEq, Repr

/-- The state of a lexer. -/
structure Lexer where
  /-- The text that is read. -/
  source : Source
  /-- The position of the cursor. -/
  pos : Int
  /-- The tokens made so far, first to last. -/
  tokens : Array Token
  /-- What is remembered about the next equals sign. -/
  lookahead : Lookahead
  /-- The searches made so far, first to last. -/
  searches : Array Search
deriving DecidableEq

namespace Lexer

/-- A lexer at the start of a source. -/
def ofSource (source : Source) : Lexer :=
  ⟨source, 0, #[], .unsearched, #[]⟩

/-- A lexer at the start of a text. -/
def ofString (text : String) : Lexer :=
  ofSource (Source.ofString text)

/-- Whether the cursor is at the end of the source, or past it. -/
def atEnd (lexer : Lexer) : Bool :=
  lexer.source.size ≤ lexer.pos

/-- Makes a token of a span of the source, and moves the cursor behind it. -/
def emit (lexer : Lexer) (kind : TokenKind) (start stop : Int) : Lexer :=
  { lexer with
    tokens := lexer.tokens.push ⟨kind, lexer.source.slice start stop, start, stop⟩
    pos := stop }

/-- Makes a token of the span from the cursor up to `stop`. -/
def take (lexer : Lexer) (kind : TokenKind) (stop : Int) : Lexer :=
  lexer.emit kind lexer.pos stop

/-- Moves the cursor past one character and makes no token of it. -/
def skip (lexer : Lexer) : Lexer :=
  { lexer with pos := lexer.pos + 1 }

/-- Searches the source for the next equals sign, from the cursor on. -/
def search (lexer : Lexer) : Lexer :=
  let found := lexer.source.find? equalsSign lexer.pos
  { lexer with
    lookahead := .ofSearch found
    searches := lexer.searches.push ⟨lexer.pos, found⟩ }

/-- Makes sure that the next equals sign is known. -/
def lookAhead (lexer : Lexer) : Lexer :=
  if lexer.lookahead.isStale lexer.pos then lexer.search else lexer

@[simp] theorem emit_pos (lexer : Lexer) (kind : TokenKind) (start stop : Int) :
    (lexer.emit kind start stop).pos = stop := rfl

@[simp] theorem emit_source (lexer : Lexer) (kind : TokenKind) (start stop : Int) :
    (lexer.emit kind start stop).source = lexer.source := rfl

@[simp] theorem take_pos (lexer : Lexer) (kind : TokenKind) (stop : Int) :
    (lexer.take kind stop).pos = stop := rfl

@[simp] theorem take_source (lexer : Lexer) (kind : TokenKind) (stop : Int) :
    (lexer.take kind stop).source = lexer.source := rfl

@[simp] theorem skip_pos (lexer : Lexer) : lexer.skip.pos = lexer.pos + 1 := rfl

@[simp] theorem skip_source (lexer : Lexer) : lexer.skip.source = lexer.source := rfl

@[simp] theorem search_lookahead (lexer : Lexer) :
    lexer.search.lookahead = .ofSearch (lexer.source.find? equalsSign lexer.pos) := rfl

@[simp] theorem search_searches (lexer : Lexer) :
    lexer.search.searches =
      lexer.searches.push ⟨lexer.pos, lexer.source.find? equalsSign lexer.pos⟩ := rfl

@[simp] theorem lookAhead_pos (lexer : Lexer) : lexer.lookAhead.pos = lexer.pos := by
  unfold lookAhead; split <;> rfl

@[simp] theorem lookAhead_source (lexer : Lexer) :
    lexer.lookAhead.source = lexer.source := by
  unfold lookAhead; split <;> rfl

@[simp] theorem lookAhead_tokens (lexer : Lexer) :
    lexer.lookAhead.tokens = lexer.tokens := by
  unfold lookAhead; split <;> rfl

end Lexer

/-! ## Outcomes -/

/-- The result of an operation on a lexer: an answer or a fault, and the state
in which the lexer is left. -/
structure Outcome (α : Type) where
  /-- The answer, or why there is none. -/
  answer : Except LexerFault α
  /-- The state after the operation. -/
  lexer : Lexer

namespace Outcome

/-- The same outcome with its answer turned into another one. -/
def map {α β : Type} (f : α → β) (outcome : Outcome α) : Outcome β :=
  match outcome.answer with
  | .ok a => ⟨.ok (f a), outcome.lexer⟩
  | .error fault => ⟨.error fault, outcome.lexer⟩

@[simp] theorem map_lexer {α β : Type} (f : α → β) (outcome : Outcome α) :
    (outcome.map f).lexer = outcome.lexer := by
  unfold map; split <;> rfl

/-- The answer is no. -/
def declines (outcome : Outcome Bool) : Bool :=
  match outcome.answer with
  | .ok found => !found
  | .error _ => false

end Outcome

end QueryHighlight
