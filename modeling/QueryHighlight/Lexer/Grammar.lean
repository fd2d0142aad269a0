import QueryHighlight.Text.Source
import QueryHighlight.Token.Basic
import QueryHighlight.Token.Lexicon

/-!
# The grammar of tokens

What the tokens of a source are, said without a lexer.  `TokenAt` says which
token starts at a position, with its end as a least or a greatest position of
some kind.  `Reads` says which tokens are read from a position on.

The rules are those of `QueryHighlight.Lexer.Rules`.  Nothing is remembered
from one position to the next, and no rule depends on tokens read before.
-/

namespace QueryHighlight
namespace Source

/-! ## Characters by position -/

/-- White space stands at a position. -/
def Blank (source : Source) (i : Nat) : Prop :=
  ∃ c, source.chars[i]? = some c ∧ isSpace c = true

/-- Nothing but white space stands right before a position. -/
def OpenBefore (source : Source) (i : Nat) : Prop :=
  i = 0 ∨ source.Blank (i - 1)

/-- Nothing but white space stands at a position. -/
def OpenAt (source : Source) (i : Nat) : Prop :=
  source.size ≤ i ∨ source.Blank i

/-- The character at a position ends a run of text, or the source ends there. -/
def TextEnds (source : Source) (i : Nat) : Prop :=
  ∀ c, source.chars[i]? = some c → endsText c = true

/-- A quote at a position closes a literal: it is not escaped. -/
def Closes (source : Source) (quote : Char) (i : Nat) : Prop :=
  source.chars[i]? = some quote ∧ source.chars[i - 1]? ≠ some escapeSign

/-- `k` is the least position from `i` on at which `p` holds. -/
def LeastFrom (p : Nat → Prop) (i k : Nat) : Prop :=
  i ≤ k ∧ p k ∧ ∀ j, i ≤ j → j < k → ¬p j

/-- `k` is the greatest position below `stop` at which `p` holds. -/
def GreatestBelow (p : Nat → Prop) (stop k : Nat) : Prop :=
  k < stop ∧ p k ∧ ∀ j, k < j → j < stop → ¬p j

/-! ## Tokens by position -/

/-- The operator `operator` stands at a position as a whole word. -/
def OperatorAt (source : Source) (operator : String) (i : Nat) : Prop :=
  spells (source.slice i (i + operator.length)) operator = true ∧
    source.OpenBefore i ∧ source.OpenAt (i + operator.length)

/-- A word starts at a position: a character that is neither white space nor a
delimiter. -/
def WordAt (source : Source) (i : Nat) : Prop :=
  ∃ c, source.chars[i]? = some c ∧ endsText c = false

/-- An equals sign stands at a position. -/
def EqualsAt (source : Source) (i : Nat) : Prop :=
  source.chars[i]? = some equalsSign

instance (source : Source) (i : Nat) : Decidable (source.Blank i) :=
  Option.decidableExistsMem source.chars[i]?

instance (source : Source) (i : Nat) : Decidable (source.OpenBefore i) :=
  inferInstanceAs (Decidable (_ ∨ _))

instance (source : Source) (i : Nat) : Decidable (source.OpenAt i) :=
  inferInstanceAs (Decidable (_ ∨ _))

instance (source : Source) (quote : Char) (i : Nat) : Decidable (source.Closes quote i) :=
  inferInstanceAs (Decidable (_ ∧ _))

instance (source : Source) (operator : String) (i : Nat) :
    Decidable (source.OperatorAt operator i) :=
  inferInstanceAs (Decidable (_ ∧ _ ∧ _))

/-- A token of some kind starts at one position and stops before another. -/
inductive TokenAt (source : Source) :
    (start : Nat) → TokenKind → (stop : Nat) → Prop where
  /-- A parenthesis. -/
  | parenthesis {i : Nat} {c : Char} (hchar : source.chars[i]? = some c)
      (hc : c ∈ parentheses) : TokenAt source i .parenthesis (i + 1)
  /-- An equals sign. -/
  | equals {i : Nat} (hchar : source.EqualsAt i) : TokenAt source i .equals (i + 1)
  /-- A quoted literal, up to the first quote that closes it. -/
  | closedQuote {i k : Nat} {quote : Char} (hchar : source.chars[i]? = some quote)
      (hquote : quote ∈ quotes) (hclose : LeastFrom (source.Closes quote) (i + 1) k) :
      TokenAt source i .quote (k + 1)
  /-- A quoted literal that is never closed. -/
  | openQuote {i : Nat} {quote : Char} (hchar : source.chars[i]? = some quote)
      (hquote : quote ∈ quotes) (hopen : ∀ k, i < k → ¬source.Closes quote k) :
      TokenAt source i .quote source.size
  /-- An operator that stands as a whole word. -/
  | operator {i : Nat} {operator : String} (hword : source.WordAt i)
      (hmem : operator ∈ operators) (hoperator : source.OperatorAt operator i) :
      TokenAt source i .logicalOperator (i + operator.length)
  /-- A key: all before the next equals sign, less the white space at its end. -/
  | key {i q k : Nat} (hword : source.WordAt i)
      (hoperator : ∀ operator ∈ operators, ¬source.OperatorAt operator i)
      (hequals : LeastFrom source.EqualsAt i q)
      (hlast : GreatestBelow (fun j => ¬source.Blank j) q k) :
      TokenAt source i .key (k + 1)
  /-- A run of text, where no equals sign follows. -/
  | text {i k : Nat} (hword : source.WordAt i)
      (hoperator : ∀ operator ∈ operators, ¬source.OperatorAt operator i)
      (hequals : ∀ q, i ≤ q → ¬source.EqualsAt q)
      (hstop : LeastFrom source.TextEnds (i + 1) k) :
      TokenAt source i .text k

/-- The tokens that are read from a position on, up to the end of the source. -/
inductive Reads (source : Source) : (start : Nat) → List Token → Prop where
  /-- At the end there are none. -/
  | done : Reads source source.size []
  /-- White space is passed over. -/
  | blank {i : Nat} {tokens : List Token} (hblank : source.Blank i)
      (hrest : Reads source (i + 1) tokens) : Reads source i tokens
  /-- A token is read, and then what follows its end. -/
  | token {i k : Nat} {kind : TokenKind} {tokens : List Token}
      (htoken : source.TokenAt i kind k) (hrest : Reads source k tokens) :
      Reads source i (⟨kind, source.slice i k, i, k⟩ :: tokens)

end Source
end QueryHighlight
