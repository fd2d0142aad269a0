import Mathlib.Tactic.ByContra
import QueryHighlight.Proofs.Unambiguous

/-!
# Tokens tile the visible text

The tokens of a text are cut out of it in order, and what lies between them is
white space.  So no visible character is lost, and none is in two tokens.

`TokenAt.lt_stop` and `TokenAt.stop_le_size` are what one rule contributes: its
token is not empty and does not leave the source.  `TilesFrom` is the invariant
of a reading, and `Reads.tilesFrom` is the induction that carries it from the
end of the source back to its start.
-/

namespace QueryHighlight

/-- A position lies in the span of a token. -/
def Token.Covers (token : Token) (i : Nat) : Prop :=
  token.start ≤ i ∧ i < token.stop

instance (token : Token) (i : Nat) : Decidable (token.Covers i) :=
  inferInstanceAs (Decidable (_ ∧ _))

namespace Source

variable {source : Source}

/-- A token is a piece of a source that starts with a visible character. -/
structure Cuts (source : Source) (token : Token) : Prop where
  start_nonneg : 0 ≤ token.start
  start_lt_stop : token.start < token.stop
  stop_le_size : token.stop ≤ source.size
  content_eq : token.content = source.slice token.start token.stop
  visible : ∃ c, token.content.toList.head? = some c ∧ isSpace c = false

/-- From position `i` on, a source is made of tokens, in their order, and of
white space between them. -/
structure TilesFrom (source : Source) (i : Nat) (tokens : List Token) : Prop where
  cuts : ∀ token ∈ tokens, source.Cuts token
  le_start : ∀ token ∈ tokens, (i : Int) ≤ token.start
  ordered : tokens.Pairwise fun before after => before.stop ≤ after.start
  /-- A visible character is in exactly one token. -/
  covered : ∀ j, i ≤ j → j < source.size → ¬source.Blank j →
    tokens.countP (fun token => token.Covers j) = 1

/-- A character in no token is white space. -/
theorem TilesFrom.blank_of_not_covers {i j : Nat} {tokens : List Token}
    (h : source.TilesFrom i tokens) (hij : i ≤ j) (hj : j < source.size)
    (hnone : ∀ token ∈ tokens, ¬token.Covers j) : source.Blank j := by
  by_contra hvisible
  have hzero : tokens.countP (fun token => token.Covers j) = 0 := by
    rw [List.countP_eq_zero]
    intro token hmem hcovers
    exact hnone token hmem (of_decide_eq_true hcovers)
  rw [h.covered j hij hj hvisible] at hzero
  exact Nat.one_ne_zero hzero

/-! ## One token -/

theorem TokenAt.lt_stop {i k : Nat} {kind : TokenKind} (h : source.TokenAt i kind k) :
    i < k := by
  have hi := h.lt_size
  cases h with
  | parenthesis | equals => omega
  | closedQuote _ _ hclose =>
    have := hclose.1
    omega
  | openQuote => exact hi
  | operator _ hmem _ =>
    have hpos : ∀ operator ∈ operators, 0 < operator.length := by decide
    have := hpos _ hmem
    omega
  | @key q k hword _ hequals hlast =>
    have hiq := hequals.1
    have hne : i ≠ q := by
      intro heq
      subst heq
      exact not_equalsAt_of_wordAt hword hequals.2.1
    -- The first character is itself a candidate for the last one of the key.
    by_contra hlt
    apply hlast.2.2 i (by omega) (by omega)
    exact not_blank_of_wordAt hword
  | text _ _ _ hstop => exact hstop.1

theorem textEnds_size : source.TextEnds source.size := by
  intro c hchar
  exact absurd (lt_size_of_eq_some hchar) (Nat.lt_irrefl _)

theorem TokenAt.stop_le_size {i k : Nat} {kind : TokenKind}
    (h : source.TokenAt i kind k) : k ≤ source.size := by
  have hi := h.lt_size
  cases h with
  | parenthesis | equals => exact hi
  | closedQuote _ _ hclose => exact lt_size_of_eq_some hclose.2.1.1
  | openQuote => exact Nat.le_refl _
  | operator _ _ hat => exact operatorAt_le (Nat.le_of_lt hi) hat
  | key _ _ hequals hlast =>
    have hq := lt_size_of_eq_some hequals.2.1
    have hlt := hlast.1
    omega
  | text _ _ _ hstop =>
    by_contra hlt
    apply hstop.2.2 source.size hi (by omega)
    exact textEnds_size

theorem TokenAt.cuts {i k : Nat} {kind : TokenKind} (h : source.TokenAt i kind k) :
    source.Cuts ⟨kind, source.slice i k, i, k⟩ := by
  have hik := h.lt_stop
  have hks := h.stop_le_size
  obtain ⟨c, hchar, hvisible, _⟩ := h.first
  refine ⟨Int.natCast_nonneg i, by simpa using hik, by simpa using hks, rfl, c, ?_, hvisible⟩
  rw [toList_slice_natCast, List.head?_take, if_neg (by omega), List.head?_drop,
    Array.getElem?_toList, hchar]

/-! ## A reading -/

/-- The step of the induction: a token at `i` in front of tokens that tile the
source from its end on. -/
theorem TilesFrom.cons {i k : Nat} {kind : TokenKind} {tokens : List Token}
    (htoken : source.TokenAt i kind k) (hrest : source.TilesFrom k tokens) :
    source.TilesFrom i (⟨kind, source.slice i k, i, k⟩ :: tokens) := by
  have hik := htoken.lt_stop
  refine ⟨?_, ?_, ?_, ?_⟩
  · rw [List.forall_mem_cons]
    exact ⟨htoken.cuts, hrest.cuts⟩
  · rw [List.forall_mem_cons]
    refine ⟨Int.le_refl _, fun token hmem => ?_⟩
    have := hrest.le_start token hmem
    omega
  · exact List.pairwise_cons.mpr ⟨hrest.le_start, hrest.ordered⟩
  · intro j hij hj hvisible
    rw [List.countP_cons]
    rcases Nat.lt_or_ge j k with hjk | hkj
    · have hzero : tokens.countP (fun token => token.Covers j) = 0 := by
        rw [List.countP_eq_zero]
        intro token hmem hcovers
        have hstart := hrest.le_start token hmem
        have := (of_decide_eq_true hcovers).1
        omega
      rw [hzero, if_pos (decide_eq_true ⟨by simpa using hij, by simpa using hjk⟩)]
    · rw [hrest.covered j hkj hj hvisible, if_neg]
      intro hcovers
      have := (of_decide_eq_true hcovers).2
      simp only at this
      omega

/-- White space in front changes nothing. -/
theorem TilesFrom.blank_cons {i : Nat} {tokens : List Token} (hblank : source.Blank i)
    (hrest : source.TilesFrom (i + 1) tokens) : source.TilesFrom i tokens := by
  refine ⟨hrest.cuts, ?_, hrest.ordered, ?_⟩
  · intro token hmem
    have := hrest.le_start token hmem
    omega
  · intro j hij hj hvisible
    rcases Nat.eq_or_lt_of_le hij with rfl | hlt
    · exact absurd hblank hvisible
    · exact hrest.covered j hlt hj hvisible

theorem Reads.tilesFrom {i : Nat} {tokens : List Token} (h : source.Reads i tokens) :
    source.TilesFrom i tokens := by
  induction h with
  | done =>
    refine ⟨by simp, by simp, .nil, fun j hle hlt => ?_⟩
    exact absurd hlt (Nat.not_lt.mpr hle)
  | blank hblank _ ih => exact .blank_cons hblank ih
  | token htoken _ ih => exact .cons htoken ih

end Source

/-- The tokens of a text tile it from its first position on, and what is in no
token is white space. -/
theorem tokenize_tiles (text : String) :
    (Source.ofString text).TilesFrom 0 (tokenize text) ∧
      ∀ j, j < (Source.ofString text).size →
        (∀ token ∈ tokenize text, ¬token.Covers j) → (Source.ofString text).Blank j := by
  have htiles := (Source.ofString text).reads_tokens.tilesFrom
  refine ⟨htiles, fun j hj hnone => ?_⟩
  exact htiles.blank_of_not_covers (Nat.zero_le j) hj hnone

end QueryHighlight
