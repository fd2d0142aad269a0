import Mathlib.Data.List.Chain
import QueryHighlight.Proofs.Concatenation
import QueryHighlight.Proofs.RoundTrip

/-!
# Rendering a text in two parts

A text with its tokens can be rendered in two parts, cut anywhere between two tokens.
The renderer keeps the position after the last token, so that the cut can fall into
the gap that it writes next; and the two parts are escaped apart.

* A gap is written in pieces (`gap_append`), and it is the same in the source and in
  the part that it lies in (`gap_before`, `gap_behind`).
* Of the tokens it only matters that they stand in order (`InOrder`); their contents
  may be anything.  `markupFrom_before` and `markupFrom_behind` are the inductions over
  the tokens on either side of the cut.
* `renderSource_append` puts two sources behind each other, and `slice_append_slice`
  makes two of one text.

`render_split` is the result.
-/

namespace QueryHighlight

/-- The same token, `n` positions further in front. -/
def Token.lower (n : Nat) (token : Token) : Token :=
  { token with start := token.start - n, stop := token.stop - n }

theorem Token.shift_lower (n : Nat) (token : Token) : (token.lower n).shift n = token := by
  show { token with start := token.start - n + n, stop := token.stop - n + n } = token
  rw [Int.sub_add_cancel, Int.sub_add_cancel]

namespace Source

variable {source front back : Source} {i j k last : Nat} {tokens rest : List Token}

/-! ## Gaps in pieces -/

theorem gap_natCast (h : i ≤ k) : source.gap i k = escape (source.slice i k) := by
  apply String.toList_inj.mp
  rw [toList_gap, between_natCast h, toList_escape]

theorem slice_append (hij : i ≤ j) (hjk : j ≤ k) :
    (source.slice i k).toList = (source.slice i j).toList ++ (source.slice j k).toList := by
  have hcut : k - i = (j - i) + (k - j) := by omega
  have hdrop : (source.chars.toList.drop i).drop (j - i) = source.chars.toList.drop j := by
    rw [List.drop_drop, Nat.add_sub_cancel' hij]
  simp only [toList_slice_natCast]
  rw [hcut, List.take_add, hdrop]

/-- What is escaped in two pieces is the same as what is escaped at once. -/
theorem gap_append (hij : i ≤ j) (hjk : j ≤ k) :
    source.gap i k = source.gap i j ++ source.gap j k := by
  rw [gap_natCast (Nat.le_trans hij hjk), gap_natCast hij, gap_natCast hjk]
  apply String.toList_inj.mp
  rw [String.toList_append, toList_escape, toList_escape, toList_escape, slice_append hij hjk,
    escapeChars_append]

theorem gap_before (hk : k ≤ front.size) : (front ++ back).gap i k = front.gap i k := by
  unfold gap
  rw [slice_before i hk]

theorem gap_behind :
    (front ++ back).gap (front.size + i : Nat) (front.size + k : Nat) = back.gap i k := by
  unfold gap
  rw [slice_behind]
  simp only [Int.ofNat_lt, Nat.add_lt_add_iff_left]

/-! ## Tokens in order -/

/-- Tokens stand in a source after position `last`, none before the end of the one
before it.  Their contents may be anything. -/
inductive InOrder (source : Source) : (last : Nat) → List Token → Prop where
  | nil {last : Nat} (hlast : last ≤ source.size) : InOrder source last []
  | cons {last i k : Nat} {kind : TokenKind} {content : String} {rest : List Token}
      (hi : last ≤ i) (hik : i ≤ k) (hrest : InOrder source k rest) :
      InOrder source last (⟨kind, content, i, k⟩ :: rest)

theorem InOrder.last_le_size (h : source.InOrder last tokens) : last ≤ source.size := by
  induction h with
  | nil hlast => exact hlast
  | cons hi hik _ ih => omega

theorem inOrder_of_isChain (hlast : last ≤ source.size)
    (hfirst : ∀ token ∈ tokens.head?, (last : Int) ≤ token.start)
    (hspans : ∀ token ∈ tokens, token.start ≤ token.stop ∧ token.stop ≤ source.size)
    (hordered : tokens.IsChain fun before after => before.stop ≤ after.start) :
    source.InOrder last tokens := by
  induction tokens generalizing last with
  | nil => exact .nil hlast
  | cons token tokens ih =>
    obtain ⟨kind, content, start, stop⟩ := token
    obtain ⟨hnext, hrest⟩ := List.isChain_cons.mp hordered
    obtain ⟨⟨hle, hsize⟩, hbehind⟩ := List.forall_mem_cons.mp hspans
    have hstart : (last : Int) ≤ start := hfirst _ rfl
    have hle : start ≤ stop := hle
    have hsize : stop ≤ source.size := hsize
    obtain ⟨i, rfl⟩ := Int.eq_ofNat_of_zero_le (show 0 ≤ start by omega)
    obtain ⟨k, rfl⟩ := Int.eq_ofNat_of_zero_le (show 0 ≤ stop by omega)
    exact .cons (Int.ofNat_le.mp hstart) (Int.ofNat_le.mp hle)
      (ih (Int.ofNat_le.mp hsize) hnext hbehind hrest)

/-- Behind another source the same tokens stand in order further on. -/
theorem InOrder.behind (h : back.InOrder last tokens) :
    (front ++ back).InOrder (front.size + last) (tokens.map (Token.shift front.size)) := by
  induction h with
  | nil hlast =>
    refine .nil ?_
    rw [size_append]
    omega
  | @cons last i k kind content rest hi hik _ ih =>
    have hshift : Token.shift front.size ⟨kind, content, i, k⟩ =
        ⟨kind, content, (front.size + i : Nat), (front.size + k : Nat)⟩ := by
      rw [Int.natCast_add, Int.natCast_add, Int.add_comm front.size i,
        Int.add_comm front.size k]
      rfl
    rw [List.map_cons, hshift]
    exact .cons (by omega) (by omega) ih

end Source

namespace Renderer

variable {source front back : Source} {last m : Nat} {tokens rest : List Token}

/-! ## Markup on either side of the cut -/

/-- The text before the first token can be written in two pieces. -/
theorem markupFrom_lead (renderer : Renderer) (h : source.InOrder m tokens)
    (hlast : last ≤ m) :
    renderer.markupFrom source last tokens =
      source.gap last m ++ renderer.markupFrom source m tokens := by
  cases h with
  | nil hm => exact Source.gap_append hlast hm
  | cons hi _ _ =>
    simp only [markupFrom, ← String.append_assoc]
    rw [← Source.gap_append hlast hi]

theorem markupFrom_before (renderer : Renderer) (h : front.InOrder last tokens)
    (hrest : (front ++ back).InOrder front.size rest) :
    renderer.markupFrom (front ++ back) last (tokens ++ rest) =
      renderer.markupFrom front last tokens ++
        renderer.markupFrom (front ++ back) front.size rest := by
  induction h with
  | nil hlast =>
    rw [List.nil_append, renderer.markupFrom_lead hrest hlast,
      Source.gap_before (Nat.le_refl _)]
    rfl
  | cons hi hik hbehind ih =>
    have hk := hbehind.last_le_size
    rw [List.cons_append, markupFrom, markupFrom, ih,
      Source.gap_before (Nat.le_trans hik hk)]
    exact (String.append_assoc ..).symm

theorem markupFrom_behind (renderer : Renderer) (h : back.InOrder last tokens) :
    renderer.markupFrom (front ++ back) (front.size + last : Nat)
        (tokens.map (Token.shift front.size)) =
      renderer.markupFrom back last tokens := by
  induction h with
  | nil =>
    show (front ++ back).gap _ ((front ++ back).size : Nat) = _
    rw [Source.size_append]
    exact Source.gap_behind
  | @cons last i k kind content rest _ _ _ ih =>
    rw [List.map_cons, markupFrom, markupFrom]
    show (front ++ back).gap (front.size + last : Nat) ((i : Int) + front.size) ++ _ ++
      renderer.markupFrom (front ++ back) ((k : Int) + front.size) _ = _
    rw [Int.add_comm i, Int.add_comm k, ← Int.natCast_add, ← Int.natCast_add,
      Source.gap_behind, ih]
    rfl

/-- Two sources behind each other are rendered one after the other. -/
theorem renderSource_append (renderer : Renderer) (hfront : front.InOrder 0 tokens)
    (hback : back.InOrder 0 rest) :
    renderer.renderSource (front ++ back) (tokens ++ rest.map (Token.shift front.size)) =
      renderer.renderSource front tokens ++ renderer.renderSource back rest := by
  have hbehind : renderer.markupFrom (front ++ back) front.size
      (rest.map (Token.shift front.size)) = renderer.markupFrom back 0 rest :=
    renderer.markupFrom_behind hback
  rw [renderSource_eq_markupFrom, renderSource_eq_markupFrom, renderSource_eq_markupFrom,
    ← hbehind]
  exact renderer.markupFrom_before hfront hback.behind

end Renderer

namespace Source

variable {source : Source} {i k : Nat}

/-! ## Parts of a text -/

/-- A text is what comes before a position and what comes from it on. -/
theorem slice_append_slice (text : String) (hi : i ≤ text.length) :
    (ofString text).slice (0 : Nat) i ++ (ofString text).slice i text.length = text := by
  apply String.toList_inj.mp
  rw [String.toList_append, ← slice_append (Nat.zero_le i) hi, slice_ofString]

theorem size_ofString_slice (i : Nat) (hk : k ≤ source.size) :
    (ofString (source.slice i k)).size = k - i := by
  rw [size_ofString_eq_length, length_slice i hk]

/-- Tokens behind a position stand in order in what comes from it on. -/
theorem inOrder_lower {tokens : List Token}
    (hspans : ∀ token ∈ tokens, (i : Int) ≤ token.start ∧ token.start ≤ token.stop ∧
      token.stop ≤ (i + source.size : Nat))
    (hordered : tokens.IsChain fun before after => before.stop ≤ after.start) :
    source.InOrder 0 (tokens.map (Token.lower i)) := by
  apply inOrder_of_isChain (Nat.zero_le _)
  · intro lowered hmem
    obtain ⟨token, hbehind, rfl⟩ := List.mem_map.mp (List.mem_of_mem_head? hmem)
    exact Int.sub_nonneg_of_le (hspans token hbehind).1
  · intro lowered hmem
    obtain ⟨token, hbehind, rfl⟩ := List.mem_map.mp hmem
    have hspan := hspans token hbehind
    show token.start - i ≤ token.stop - i ∧ token.stop - i ≤ source.size
    omega
  · apply (List.isChain_map _).mpr
    refine hordered.imp ?_
    intro before after hle
    exact Int.sub_le_sub_right hle i

end Source

/-- A text is cut at a position between its tokens, which stand in order and may have
any kinds and contents.  Its rendering is that of the text before the cut with the
tokens before it, and then that of the text behind with the tokens there. -/
theorem Renderer.render_split (renderer : Renderer) (text : String) (i : Nat)
    (front back : List Token) (hi : i ≤ text.length)
    (hspans : ∀ token ∈ front ++ back,
      0 ≤ token.start ∧ token.start ≤ token.stop ∧ token.stop ≤ text.length)
    (hordered : (front ++ back).IsChain fun before after => before.stop ≤ after.start)
    (hfront : ∀ token ∈ front, token.stop ≤ i) (hback : ∀ token ∈ back, i ≤ token.start) :
    renderer.render text (front ++ back) =
      renderer.render ((Source.ofString text).slice (0 : Nat) i) front ++
        renderer.render ((Source.ofString text).slice i text.length)
          (back.map (Token.lower i)) := by
  have hsize := Source.size_ofString_eq_length text
  have hsizeFront := Source.size_ofString_slice 0 (hsize ▸ hi)
  have hsizeBack := Source.size_ofString_slice i (Nat.le_of_eq hsize.symm)
  obtain ⟨hchainFront, hchainBack, -⟩ := List.isChain_append.mp hordered
  have horderFront : (Source.ofString ((Source.ofString text).slice (0 : Nat) i)).InOrder 0
      front := by
    apply Source.inOrder_of_isChain (Nat.zero_le _)
    · intro token hmem
      exact (hspans token (List.mem_append_left _ (List.mem_of_mem_head? hmem))).1
    · intro token hmem
      have hspan := hspans token (List.mem_append_left _ hmem)
      have hstop := hfront token hmem
      omega
    · exact hchainFront
  have horderBack : (Source.ofString ((Source.ofString text).slice i text.length)).InOrder 0
      (back.map (Token.lower i)) := by
    apply Source.inOrder_lower _ hchainBack
    intro token hmem
    have hspan := hspans token (List.mem_append_right _ hmem)
    have hstart := hback token hmem
    omega
  have hraise : (back.map (Token.lower i)).map (Token.shift i) = back := by
    rw [List.map_map]
    exact List.map_id'' (Token.shift_lower i) back
  have happend := renderer.renderSource_append horderFront horderBack
  rw [hsizeFront, Nat.sub_zero, hraise, ← Source.ofString_append,
    Source.slice_append_slice text hi] at happend
  exact happend

/-- The cut is in the gap between two tokens, and one of them shows other characters
than those of its span. -/
theorem Renderer.render_split_gap :
    let front : List Token := [⟨.text, "<b>", 0, 1⟩]
    let back : List Token := [⟨.quote, "'&", 5, 7⟩]
    (∀ token ∈ front ++ back,
      0 ≤ token.start ∧ token.start ≤ token.stop ∧ token.stop ≤ "a < &'&>".length) ∧
      ((front ++ back).IsChain fun before after => before.stop ≤ after.start) ∧
      (∀ token ∈ front, token.stop ≤ (3 : Nat)) ∧
      (∀ token ∈ back, (3 : Nat) ≤ token.start) ∧
      Renderer.default.render "a < &'&>" (front ++ back) =
        Renderer.default.render "a <" front ++
          Renderer.default.render " &'&>" [⟨.quote, "'&", 2, 4⟩] := by
  intro front back
  have hspans : ∀ token ∈ front ++ back,
      0 ≤ token.start ∧ token.start ≤ token.stop ∧ token.stop ≤ "a < &'&>".length := by
    decide
  have hordered : (front ++ back).IsChain fun before after =>
      before.stop ≤ after.start := by decide
  have hfront : ∀ token ∈ front, token.stop ≤ (3 : Nat) := by decide
  have hback : ∀ token ∈ back, (3 : Nat) ≤ token.start := by decide
  exact ⟨hspans, hordered, hfront, hback,
    Renderer.default.render_split "a < &'&>" 3 front back (by decide) hspans hordered hfront
      hback⟩

end QueryHighlight
