import Mathlib.Data.List.Pairwise
import QueryHighlight.Proofs.Characters

/-!
# Which operators are found

The lexer looks for an operator only where its cursor stops.  This module says that
it stops at every operator that stands as a whole word, except at those that a literal
or a key takes whole.

* One token covers the first letter of an operator (`Reads.exists_covers`,
  `Reads.eq_of_covers`).  If it starts there, it is the operator itself.
* If it starts before, it is no operator and no run of text, since these hold no white
  space (`TokenAt.not_openBefore`).
* A literal or a key does not end between two word characters
  (`TokenAt.not_wordAt_of_stop`), so it does not end within the operator.
* `Reads.mem_or_encloses` puts the cases together, and `Reads.not_encloses` says that
  there is only one of them.

`tokenize_operators` is the result.
-/

namespace QueryHighlight

/-- A token starts before a span of positions and does not end within it. -/
def Token.Encloses (token : Token) (i k : Nat) : Prop :=
  token.start < i ∧ k ≤ token.stop

namespace Source

variable {source : Source} {i j k : Nat} {kind : TokenKind} {operator : String}
variable {tokens : List Token}

/-! ## The token that covers a position -/

theorem Reads.exists_covers (h : source.Reads i tokens) (hij : i ≤ j) (hj : j < source.size)
    (hvisible : ¬source.Blank j) : ∃ token ∈ tokens, token.Covers j := by
  by_contra hnone
  apply hvisible
  apply h.tilesFrom.blank_of_not_covers hij hj
  intro token hmem hcovers
  exact hnone ⟨token, hmem, hcovers⟩

/-- Only one token of a reading covers a position. -/
theorem Reads.eq_of_covers {a b : Token} (h : source.Reads i tokens) (ha : a ∈ tokens)
    (hb : b ∈ tokens) (hcovers : a.Covers j) (hcovers' : b.Covers j) : a = b := by
  have hapart : tokens.Pairwise fun a b => a.stop ≤ b.start ∨ b.stop ≤ a.start :=
    h.tilesFrom.ordered.imp fun hle => Or.inl hle
  have hsymm : Std.Symm fun a b : Token => a.stop ≤ b.start ∨ b.stop ≤ a.start :=
    ⟨fun _ _ => Or.symm⟩
  have hstart := hcovers.1
  have hstart' := hcovers'.1
  have hstop := hcovers.2
  have hstop' := hcovers'.2
  by_contra hne
  rcases hapart.forall ha hb hne with hle | hle <;> omega

/-! ## Tokens around an operator -/

theorem OperatorAt.lt_add_length (hmem : operator ∈ operators) : i < i + operator.length := by
  have hpos : ∀ operator ∈ operators, 0 < operator.length := by decide
  have := hpos operator hmem
  omega

/-- Where an operator stands as a whole word, it is a token. -/
theorem OperatorAt.tokenAt (h : source.OperatorAt operator i) (hmem : operator ∈ operators) :
    source.TokenAt i .logicalOperator (i + operator.length) :=
  .operator (h.wordAt hmem (Nat.le_refl i) (lt_add_length hmem)) hmem h

/-- Inside an operator or a run of text there is no place where a whole word could
start. -/
theorem TokenAt.not_openBefore (h : source.TokenAt j kind k)
    (hkind : kind = .text ∨ kind = .logicalOperator) (hji : j < i) (hik : i < k) :
    ¬source.OpenBefore i := by
  rintro (hzero | hblank)
  · omega
  · exact h.not_blank_within hkind (show j ≤ i - 1 by omega) (by omega) hblank

/-- A literal ends with its quote or with the source, and a key ends where there is
white space or an equals sign. -/
theorem TokenAt.not_wordAt_of_stop (h : source.TokenAt j kind k)
    (hkind : kind = .quote ∨ kind = .key) (hword : source.WordAt (k - 1)) :
    ¬source.WordAt k := by
  intro hword'
  cases h with
  | parenthesis | equals | operator | text => simp at hkind
  | @closedQuote m quote _ hquote hclose =>
    have hends := endsText_eq_true_iff.mpr (Or.inr (Or.inr (Or.inl hquote)))
    rw [hword.endsText_eq_false hclose.2.1.1] at hends
    exact Bool.false_ne_true hends
  | openQuote =>
    obtain ⟨c, hchar, _⟩ := hword'
    exact absurd (lt_size_of_eq_some hchar) (Nat.lt_irrefl _)
  | @key q m _ _ hequals hlast =>
    rcases Nat.eq_or_lt_of_le (show m + 1 ≤ q from hlast.1) with heq | hlt
    · exact not_equalsAt_of_wordAt hword' (heq ▸ hequals.2.1)
    · exact hlast.2.2 (m + 1) (Nat.lt_succ_self m) hlt (not_blank_of_wordAt hword')

/-- A token that covers the first letter of an operator and starts before it is a
literal or a key, and it holds the whole operator. -/
theorem TokenAt.encloses_operator (h : source.TokenAt j kind k)
    (hat : source.OperatorAt operator i) (hmem : operator ∈ operators)
    (hji : j < i) (hik : i < k) :
    (kind = .quote ∨ kind = .key) ∧ i + operator.length ≤ k := by
  have hkind : kind = .quote ∨ kind = .key := by
    cases id h with
    | parenthesis | equals => omega
    | closedQuote | openQuote | key => simp
    | operator | text => exact absurd hat.2.1 (h.not_openBefore (by simp) hji hik)
  refine ⟨hkind, ?_⟩
  by_contra hcut
  have hlast := hat.wordAt hmem (show i ≤ k - 1 by omega) (by omega)
  have hnext := hat.wordAt hmem (show i ≤ k by omega) (by omega)
  exact h.not_wordAt_of_stop hkind hlast hnext

/-- An operator that stands as a whole word is a token, or a literal or a key that
starts before it holds all of it. -/
theorem Reads.mem_or_encloses (h : source.Reads 0 tokens)
    (hat : source.OperatorAt operator i) (hmem : operator ∈ operators) :
    ⟨.logicalOperator, source.slice i (i + operator.length : Nat), i,
        (i + operator.length : Nat)⟩ ∈ tokens ∨
      ∃ token ∈ tokens, (token.kind = .quote ∨ token.kind = .key) ∧
        token.Encloses i (i + operator.length) := by
  have htoken := hat.tokenAt hmem
  obtain ⟨token, hin, hcovers⟩ :=
    h.exists_covers (Nat.zero_le i) htoken.lt_size htoken.not_blank
  obtain ⟨j, k, kind, rfl, htoken'⟩ := h.of_mem hin
  have hji : j ≤ i := Int.ofNat_le.mp hcovers.1
  have hik : i < k := Int.ofNat_lt.mp hcovers.2
  rcases Nat.eq_or_lt_of_le hji with rfl | hji
  · obtain ⟨rfl, rfl⟩ := htoken.unique htoken'
    exact Or.inl hin
  · obtain ⟨hkind, hstop⟩ := htoken'.encloses_operator hat hmem hji hik
    exact Or.inr ⟨_, hin, hkind, Int.ofNat_lt.mpr hji, Int.ofNat_le.mpr hstop⟩

/-- No token of a reading encloses another one. -/
theorem Reads.not_encloses {a b : Token} {p e : Nat} (h : source.Reads i tokens)
    (ha : a ∈ tokens) (hb : b ∈ tokens) (hstart : a.start = p) (hstop : a.stop = e)
    (hpe : p < e) : ¬b.Encloses p e := by
  intro hencloses
  have hbefore := hencloses.1
  have hbehind := hencloses.2
  have hcovers : a.Covers p := ⟨by omega, by omega⟩
  have hcovers' : b.Covers p := ⟨by omega, by omega⟩
  have hsame := h.eq_of_covers ha hb hcovers hcovers'
  rw [← hsame, hstart] at hbefore
  exact Int.lt_irrefl _ hbefore

end Source

/-- An operator that stands as a whole word is a token, or a literal or a key that
starts before it holds all of it, and not both.  The operators among the tokens are
such words. -/
theorem tokenize_operators (text : String) :
    (∀ operator ∈ operators, ∀ i : Nat, (Source.ofString text).OperatorAt operator i →
      Xor
        (⟨.logicalOperator, (Source.ofString text).slice i (i + operator.length : Nat), i,
          (i + operator.length : Nat)⟩ ∈ tokenize text)
        (∃ token ∈ tokenize text, (token.kind = .quote ∨ token.kind = .key) ∧
          token.Encloses i (i + operator.length))) ∧
    ∀ token ∈ tokenize text, token.kind = .logicalOperator →
      ∃ operator ∈ operators, ∃ i : Nat, (Source.ofString text).OperatorAt operator i ∧
        token = ⟨.logicalOperator, (Source.ofString text).slice i (i + operator.length : Nat),
          i, (i + operator.length : Nat)⟩ := by
  have hreads := (Source.ofString text).reads_tokens
  constructor
  · intro operator hmem i hat
    rw [xor_iff_or_and_not_and]
    refine ⟨hreads.mem_or_encloses hat hmem, ?_⟩
    rintro ⟨hin, token, hin', _, hencloses⟩
    have hlt := Source.OperatorAt.lt_add_length (i := i) hmem
    exact hreads.not_encloses hin hin' rfl rfl hlt hencloses
  · intro token hin hkind
    obtain ⟨i, k, kind, rfl, htoken⟩ := hreads.of_mem hin
    obtain rfl : kind = .logicalOperator := hkind
    cases htoken with
    | operator _ hmem hat => exact ⟨_, hmem, i, hat, rfl⟩

/-- One operator is in a key, one is a token, and one word only looks like an
operator. -/
theorem tokenize_operators_greedyKey :
    let source := Source.ofString "a AND b=or not"
    source.OperatorAt "AND" 2 ∧ source.OperatorAt "NOT" 11 ∧
      Xor (⟨.logicalOperator, source.slice (2 : Nat) (5 : Nat), (2 : Nat), (5 : Nat)⟩ ∈
          tokenize "a AND b=or not")
        (∃ token ∈ tokenize "a AND b=or not",
          (token.kind = .quote ∨ token.kind = .key) ∧ token.Encloses 2 5) ∧
      ⟨.logicalOperator, "not", 11, 14⟩ ∈ tokenize "a AND b=or not" ∧
      ∃ operator ∈ operators, ∃ i : Nat, source.OperatorAt operator i ∧
        (⟨.logicalOperator, "not", 11, 14⟩ : Token) =
          ⟨.logicalOperator, source.slice i (i + operator.length : Nat), i,
            (i + operator.length : Nat)⟩ := by
  intro source
  have hand : source.OperatorAt "AND" 2 := by decide +kernel
  have hnot : source.OperatorAt "NOT" 11 := by decide +kernel
  have hmem : (⟨.logicalOperator, "not", 11, 14⟩ : Token) ∈ tokenize "a AND b=or not" := by
    decide +kernel
  obtain ⟨hfound, htokens⟩ := tokenize_operators "a AND b=or not"
  exact ⟨hand, hnot, hfound "AND" (by decide) 2 hand, hmem, htokens _ hmem rfl⟩

end QueryHighlight
