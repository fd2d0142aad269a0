import Mathlib.Data.List.TakeDrop
import QueryHighlight.Proofs.Rendering
import QueryHighlight.Proofs.Tiling

/-!
# A highlighted text can be read back

A rendering shows the contents of its tokens and what lies between them.  When
the tokens are placed in the text, in order and each with the characters of its
span, that is the text itself (`shown_eq_drop`).  The tokens that the lexer
makes are placed so (`Reads.placed`), and all that is used of a rule is that its
token ends after it starts.
-/

namespace QueryHighlight
namespace Source

variable {source : Source}

/-- Tokens are placed in a source after position `last`: each holds the
characters of its span, and starts at the end of the one before or later. -/
inductive Placed (source : Source) : (last : Nat) → List Token → Prop where
  | nil {last : Nat} (hlast : last ≤ source.size) : Placed source last []
  | cons {last i k : Nat} {kind : TokenKind} {rest : List Token} (hi : last ≤ i)
      (hik : i ≤ k) (hrest : Placed source k rest) :
      Placed source last (⟨kind, source.slice i k, i, k⟩ :: rest)

theorem Reads.placed {i : Nat} {tokens : List Token} (h : source.Reads i tokens) :
    ∀ last, last ≤ i → source.Placed last tokens := by
  induction h with
  | done =>
    intro last hlast
    exact .nil hlast
  | blank _ _ ih =>
    intro last hlast
    apply ih
    omega
  | token htoken _ ih =>
    intro last hlast
    have hik := htoken.lt_stop
    apply Placed.cons hlast (Nat.le_of_lt hik)
    exact ih _ (Nat.le_refl _)

/-- What lies between two positions is the slice between them, also when they
are the same. -/
theorem between_natCast {i k : Nat} (h : i ≤ k) :
    source.between i k = (source.slice i k).toList := by
  unfold between
  by_cases hik : (i : Int) < k
  · rw [if_pos hik]
  · rw [if_neg hik, toList_slice_natCast, show k - i = 0 by omega, List.take_zero]

theorem slice_append_drop {i k : Nat} (h : i ≤ k) :
    (source.slice i k).toList ++ source.chars.toList.drop k =
      source.chars.toList.drop i := by
  obtain ⟨n, rfl⟩ := Nat.exists_eq_add_of_le h
  rw [toList_slice_natCast, Nat.add_sub_cancel_left]
  exact List.drop_take_append_drop _ i n

/-- Placed tokens and what lies between them are the rest of the source. -/
theorem shown_eq_drop {last : Nat} {tokens : List Token} (h : source.Placed last tokens) :
    source.shown last tokens = source.chars.toList.drop last := by
  induction h with
  | nil hlast =>
    rw [shown, between_natCast hlast, ← slice_append_drop hlast,
      show source.chars.toList.drop source.size = [] from List.drop_length, List.append_nil]
  | @cons last i k kind rest hi hik _ ih =>
    calc source.shown last (⟨kind, source.slice i k, i, k⟩ :: rest)
        = source.between last i ++ (source.slice i k).toList ++ source.shown k rest := rfl
      _ = source.between last i ++ source.chars.toList.drop i := by
          rw [ih, List.append_assoc, slice_append_drop hik]
      _ = source.chars.toList.drop last := by
          rw [between_natCast hi, slice_append_drop hi]

end Source

/-- Deleting the tags of a highlighted text and reading its entities back gives
the text. -/
theorem Renderer.unescape_withoutTags_highlight (renderer : Renderer) (text : String) :
    String.ofList (unescape (Markup.withoutTags (renderer.highlight text).toList)) = text := by
  have hplaced : (Source.ofString text).Placed 0 (tokenize text) :=
    (Source.ofString text).reads_tokens.placed 0 (Nat.le_refl 0)
  have hshown : (Source.ofString text).shown 0 (tokenize text) = text.toList :=
    Source.shown_eq_drop hplaced
  rw [highlight, render, unescape_withoutTags_renderSource, hshown, String.ofList_toList]

end QueryHighlight
