import QueryHighlight.Proofs.Tiling

/-!
# Readings, piece by piece

`Source.Reads` says which tokens are read from a position on.  This module
moves along a reading:

* white space in front of a reading can be put there and taken away
  (`Reads.of_blanks`, `Reads.drop_blanks`);
* what follows a token of a reading is again a reading, from the end of that
  token on (`Reads.of_suffix`), and each token is one of the grammar
  (`Reads.of_mem`).
-/

namespace QueryHighlight
namespace Source

variable {source : Source} {i k : Nat} {tokens : List Token}

theorem Reads.of_blanks (hik : i ≤ k) (hblank : ∀ j, i ≤ j → j < k → source.Blank j)
    (h : source.Reads k tokens) : source.Reads i tokens := by
  obtain ⟨n, rfl⟩ := Nat.exists_eq_add_of_le hik
  clear hik
  induction n with
  | zero => exact h
  | succ n ih =>
    apply ih
    · intro j hij hj
      exact hblank j hij (by omega)
    · exact .blank (hblank (i + n) (by omega) (by omega)) h

theorem Reads.drop_blanks (hik : i ≤ k) (hblank : ∀ j, i ≤ j → j < k → source.Blank j)
    (h : source.Reads i tokens) : source.Reads k tokens := by
  induction h with
  | done =>
    rcases Nat.eq_or_lt_of_le hik with rfl | hlt
    · exact .done
    · exact absurd (hblank _ (Nat.le_refl _) hlt).lt_size (Nat.lt_irrefl _)
  | @blank i tokens hi hrest ih =>
    rcases Nat.eq_or_lt_of_le hik with rfl | hlt
    · exact .blank hi hrest
    · apply ih hlt
      intro j hj
      exact hblank j (by omega)
  | token htoken hrest =>
    rcases Nat.eq_or_lt_of_le hik with rfl | hlt
    · exact .token htoken hrest
    · exact absurd (hblank _ (Nat.le_refl _) hlt) htoken.not_blank

/-- Where a token starts, it is the first one that is read. -/
theorem Reads.eq_cons {kind : TokenKind} (h : source.Reads i tokens)
    (htoken : source.TokenAt i kind k) :
    ∃ rest, tokens = ⟨kind, source.slice i k, i, k⟩ :: rest ∧ source.Reads k rest := by
  cases h with
  | done => exact absurd htoken.lt_size (Nat.lt_irrefl _)
  | blank hblank _ => exact absurd hblank htoken.not_blank
  | token htoken' hrest =>
    obtain ⟨rfl, rfl⟩ := htoken.unique htoken'
    exact ⟨_, rfl, hrest⟩

/-- Nothing is read at the end. -/
theorem Reads.eq_nil (h : source.Reads source.size tokens) : tokens = [] :=
  h.unique .done

/-- Every token of a reading is a token of the grammar, and the tokens after it
are read from its end on. -/
theorem Reads.of_suffix {token : Token} {after : List Token}
    (h : source.Reads i tokens) (hsuffix : token :: after <:+ tokens) :
    ∃ (j k : Nat) (kind : TokenKind), token = ⟨kind, source.slice j k, j, k⟩ ∧ i ≤ j ∧
      source.TokenAt j kind k ∧ source.Reads k after := by
  induction h with
  | done => exact absurd (List.suffix_nil.mp hsuffix) (List.cons_ne_nil _ _)
  | blank _ _ ih =>
    obtain ⟨j, k, kind, heq, hij, htoken, hafter⟩ := ih hsuffix
    exact ⟨j, k, kind, heq, by omega, htoken, hafter⟩
  | @token i k kind tokens htoken hrest ih =>
    rcases List.suffix_cons_iff.mp hsuffix with heq | hsuffix
    · obtain ⟨rfl, rfl⟩ := List.cons.inj heq
      exact ⟨i, k, kind, rfl, Nat.le_refl i, htoken, hrest⟩
    · have hik := htoken.lt_stop
      obtain ⟨j, k, kind, heq, hkj, htoken, hafter⟩ := ih hsuffix
      exact ⟨j, k, kind, heq, by omega, htoken, hafter⟩

theorem Reads.of_mem {token : Token} (h : source.Reads i tokens) (hmem : token ∈ tokens) :
    ∃ (j k : Nat) (kind : TokenKind), token = ⟨kind, source.slice j k, j, k⟩ ∧
      source.TokenAt j kind k := by
  obtain ⟨before, after, rfl⟩ := List.append_of_mem hmem
  obtain ⟨j, k, kind, heq, _, htoken, _⟩ := h.of_suffix (List.suffix_append before _)
  exact ⟨j, k, kind, heq, htoken⟩

end Source
end QueryHighlight
