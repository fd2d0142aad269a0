import QueryHighlight.Text.Source
import QueryHighlight.Token.Lexicon

/-!
# Where tokens end

Each rule of the lexer starts at a position and decides from the source alone
where its token stops.  This module holds those decisions, without any lexer
state:

* a quoted literal stops after the first quote that closes it, or at the end
  (`quoteStop`);
* an operator stops after its letters, if it stands as a whole word
  (`operatorStop?`);
* a key stops after the last character before the equals sign that is not
  white space (`trimmedStop`);
* a run of ordinary text stops before the first character that ends it
  (`textStop`).

Positions are integers and may lie outside the source.  Only the search for the
end of a key reads a character before it is known to be there, so only that one
can fail.
-/

namespace QueryHighlight

/-- Why a lexing step cannot be carried out. -/
inductive LexerFault where
  /-- A character outside the source was to be read. -/
  | outOfRange
  /-- A character was to be read at a position that does not fit into an
  index. -/
  | indexOverflow
deriving DecidableEq, Repr

namespace LexerFault

/-- The words for a fault. -/
def message : LexerFault → String
  | .outOfRange => "string index out of range"
  | .indexOverflow => "cannot fit 'int' into an index-sized integer"

/-- Why there is no character at a position that cannot be read. -/
def ofPosition (i : Int) : LexerFault :=
  if isIndex i then .outOfRange else .indexOverflow

end LexerFault

namespace Source

/-- The test for white space at a position; `outside` is the answer at the
positions before the first character and after the last. -/
def isSpaceAt (source : Source) (i : Int) (outside : Bool) : Bool :=
  if i < 0 ∨ source.size ≤ i then outside
  else (source.get? i).any isSpace

/-! ## Quoted literals -/

/-- A quote closes a literal unless an escape sign stands right before it. -/
def closesQuote (source : Source) (quote : Char) (i : Int) : Bool :=
  source.get? i == some quote && source.get? (i - 1) != some escapeSign

/-- The position after the literal that `quote` opens at `start`.  A literal
that is never closed runs to the end of the source. -/
def quoteStop (source : Source) (quote : Char) (start : Int) : Int :=
  let close := firstFrom (source.closesQuote quote) (start + 1) source.size
  if close < source.size then close + 1 else source.size

/-! ## Operators -/

/-- Whether an operator stands at `start` as a whole word: its letters are
there, and on either side is white space or nothing. -/
def operatorStandsAt (source : Source) (operator : String) (start : Int) : Bool :=
  let stop := start + operator.length
  spells (source.slice start stop) operator &&
    (source.isSpaceAt (start - 1) true && source.isSpaceAt stop true)

/-- The position after the operator that stands at `start`, if one does. -/
def operatorStop? (source : Source) (start : Int) : Option Int :=
  (operators.find? fun operator => source.operatorStandsAt operator start).map
    fun operator => start + operator.length

theorem lt_of_operatorStop? {source : Source} {start stop : Int}
    (h : source.operatorStop? start = some stop) : start < stop := by
  obtain ⟨operator, hfind, rfl⟩ := Option.map_eq_some_iff.mp h
  have hmem : operator ∈ operators := List.mem_of_find?_eq_some hfind
  have hpos : 0 < operator.length := by
    simp only [operators, List.mem_cons, List.not_mem_nil, or_false] at hmem
    rcases hmem with rfl | rfl | rfl <;> decide
  omega

/-! ## Keys -/

/-- Moves `stop` back over white space, as far as `start`: what is left is the
position after the last character between the two that is not white space, or
`start` if there is none. -/
def trimmedStop (source : Source) (start stop : Int) : Except LexerFault Int :=
  if start < stop then
    match source.get? (stop - 1) with
    | none => .error (.ofPosition (stop - 1))
    | some c => if isSpace c then source.trimmedStop start (stop - 1) else .ok stop
  else .ok stop
termination_by (stop - start).toNat

/-! ## Ordinary text -/

/-- The test for a position that ends a run of ordinary text. -/
def endsTextAt (source : Source) (i : Int) : Bool :=
  (source.get? i).any endsText

/-- The position after the run of ordinary text that begins at `start`. -/
def textStop (source : Source) (start : Int) : Int :=
  firstFrom source.endsTextAt start source.size

/-- A literal covers at least its opening quote. -/
theorem lt_quoteStop {source : Source} {quote : Char} {start : Int}
    (h : source.get? start = some quote) : start < source.quoteStop quote start := by
  have hin : start < source.size := by
    apply Int.not_le.mp
    intro hle
    simp [get?_eq_none (Or.inr hle)] at h
  have hle := le_firstFrom (source.closesQuote quote) (start + 1) source.size
  simp only [quoteStop]
  split <;> omega

end Source
end QueryHighlight
