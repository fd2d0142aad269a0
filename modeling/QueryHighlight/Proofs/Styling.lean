import Mathlib.Data.List.DropRight
import Mathlib.Data.List.Forall2
import Mathlib.Data.List.Nodup
import QueryHighlight.Proofs.Preview

/-!
# Every class that is written has its rule

The renderer and the stylesheet of a page put class names together on their own, from
the start that the renderer is given and the label of a kind.  This module reads both
sides back and compares them.

* Classes in markup.  `Markup.classValues` finds the values of class attributes, and
  `Renderer.classValues_highlight` says what they are.
* The stylesheet of a page.  `Markup.textsBehind` finds the text behind the tags of one
  sort; behind `<style>` there is the stylesheet and nothing else.
* The rules of a stylesheet.  `Stylesheet.rules` reads them by their braces, and
  `Renderer.rules_pageStyle` says that it finds those that were written.
* Selectors.  No start of class names makes two of the selectors equal.

`Renderer.page_styles` is the result.
-/

namespace QueryHighlight

/-! ## Classes in markup -/

namespace Markup

/-- The value of the class attribute of a tag that has this attribute first. -/
def classValue? (tag : List Char) : Option (List Char) :=
  match tag.dropWhile (· != '"') with
  | [] => none
  | _ :: rest =>
    if " class=".toList <:+ tag.takeWhile (· != '"') then some (rest.takeWhile (· != '"'))
    else none

/-- The values of the class attributes in markup, in order. -/
def classValues (markup : List Char) : List (List Char) :=
  (tags markup).filterMap classValue?

theorem classValue?_append {before value : List Char} (hbefore : '"' ∉ before)
    (hvalue : '"' ∉ value) (after : List Char) :
    classValue? (before ++ " class=".toList ++ '"' :: (value ++ '"' :: after)) =
      some value := by
  have hquote : '"' ∉ before ++ " class=".toList := by
    simp [hbefore]
  rw [classValue?, dropWhile_separator hquote, takeWhile_separator hquote]
  dsimp only
  rw [if_pos (List.suffix_append _ _), takeWhile_separator hvalue]

theorem classValue?_of_not_mem {tag : List Char} (h : '"' ∉ tag) : classValue? tag = none := by
  have hdrop : tag.dropWhile (· != '"') = [] := by
    rw [List.dropWhile_eq_nil_iff]
    intro c hmem
    apply bne_iff_ne.mpr
    rintro rfl
    exact h hmem
  rw [classValue?, hdrop]

end Markup

namespace Renderer

theorem classValue?_openTag (renderer : Renderer) (kind : TokenKind) :
    Markup.classValue? (renderer.openTag kind).toList =
      some (renderer.className kind).toList := by
  have hbefore : '"' ∉ '<' :: renderer.element.toList := by
    rw [List.mem_cons, not_or]
    exact ⟨by decide, renderer.not_mem_element (by decide)⟩
  have hvalue := Markup.classValue?_append hbefore
    (renderer.not_mem_className kind (by decide)) ['>']
  rw [← hvalue]
  simp [openTag]

theorem classValue?_closeTag (renderer : Renderer) :
    Markup.classValue? renderer.closeTag.toList = none := by
  have helement : '"' ∉ renderer.element.toList := renderer.not_mem_element (by decide)
  apply Markup.classValue?_of_not_mem
  simp [closeTag, helement]

/-- The classes in a highlighted text are those of its tokens. -/
theorem classValues_highlight (renderer : Renderer) (text : String) :
    Markup.classValues (renderer.highlight text).toList =
      (tokenize text).map fun token => (renderer.className token.kind).toList := by
  rw [Markup.classValues, tags_highlight, List.filterMap_flatMap, List.map_eq_flatMap]
  simp only [List.filterMap_cons, List.filterMap_nil, classValue?_openTag,
    classValue?_closeTag]

end Renderer

/-! ## The stylesheet of a page -/

namespace Markup

/-- The text behind each tag that is the given one, up to the next tag. -/
def textsBehind (tag : List Char) (pieces : List Piece) : List (List Char) :=
  (segments pieces).2.filterMap fun entry => if entry.1 = tag then some entry.2 else none

theorem textsBehind_append {tag : List Char} {a : List Piece} (h : .tag tag ∉ a)
    (b : List Piece) : textsBehind tag (a ++ b) = textsBehind tag b := by
  induction a with
  | nil => rfl
  | cons piece a ih =>
    rw [List.mem_cons, not_or] at h
    cases piece with
    | char c => exact ih h.2
    | tag other =>
      have hother : other ≠ tag := by
        rintro rfl
        exact h.1 rfl
      rw [← ih h.2, textsBehind, List.cons_append, segments, List.filterMap_cons,
        if_neg hother]
      rfl

theorem textsBehind_of_not_mem {tag : List Char} {pieces : List Piece}
    (h : .tag tag ∉ pieces) : textsBehind tag pieces = [] := by
  rw [← List.append_nil pieces, textsBehind_append h]
  rfl

theorem textsBehind_tag (tag text next : List Char) (rest : List Piece) :
    textsBehind tag (.tag tag :: (text.map .char ++ .tag next :: rest)) =
      text :: textsBehind tag (.tag next :: rest) := by
  rw [textsBehind, segments, segments_chars, List.filterMap_cons, if_pos rfl]
  simp [segments, textsBehind]

theorem mem_tags {tag markup : List Char} : tag ∈ tags markup ↔ .tag tag ∈ pieces markup := by
  rw [tags_eq_filterMap, List.mem_filterMap]
  constructor
  · rintro ⟨piece, hmem, hpiece⟩
    cases piece with
    | char c => exact absurd hpiece (Option.some_ne_none tag).symm
    | tag other =>
      rw [Piece.tag?, Option.some.injEq] at hpiece
      rwa [hpiece] at hmem
  · intro hmem
    exact ⟨_, hmem, rfl⟩

end Markup

namespace Renderer

/-- Every opening tag of a highlighted text has a class, so none is the bare one of a
style element. -/
theorem styleTag_not_mem_highlight (renderer : Renderer) (text : String) :
    .tag "<style>".toList ∉ Markup.pieces (renderer.highlight text).toList := by
  rw [← Markup.mem_tags, tags_highlight, List.mem_flatMap]
  rintro ⟨token, -, htag⟩
  rw [List.mem_cons, List.mem_singleton] at htag
  rcases htag with hopen | hclose
  · have hquote : '"' ∈ "<style>".toList := by
      rw [hopen]
      simp [openTag]
    exact absurd hquote (by decide)
  · have hsecond := congrArg (fun tag => tag.tail.head?) hclose
    simp [closeTag] at hsecond

/-- A page has one style element, which holds its stylesheet. -/
theorem textsBehind_page (renderer : Renderer) (text title : String) :
    Markup.textsBehind "<style>".toList (Markup.pieces (renderer.page text title).toList) =
      [renderer.pageStyle.toList] := by
  have hstyle : Markup.joinedPieces Page.beforeStyle =
      Markup.joinedPieces [("</title>", "\n")] ++ [.tag "<style>".toList] := rfl
  have hquery : Markup.joinedPieces Page.beforeQuery =
      .tag "</style>".toList :: .char '\n' :: Markup.joinedPieces Page.beforeQuery.tail := rfl
  have htitle : .tag "<style>".toList ∉ Markup.joinedPieces Page.beforeTitle := by decide +kernel
  have htitleEnd : .tag "<style>".toList ∉ Markup.joinedPieces [("</title>", "\n")] := by
    decide +kernel
  have hhead : .tag "<style>".toList ∉ Markup.joinedPieces Page.beforeQuery := by decide +kernel
  have hend : .tag "<style>".toList ∉ Markup.joinedPieces Page.afterQuery := by decide +kernel
  have hbehind : .tag "<style>".toList ∉ Markup.joinedPieces Page.beforeQuery ++
      (Markup.pieces (renderer.highlight text).toList ++
        Markup.joinedPieces Page.afterQuery) := by
    rw [List.mem_append, List.mem_append, not_or, not_or]
    exact ⟨hhead, renderer.styleTag_not_mem_highlight text, hend⟩
  rw [hquery, List.cons_append] at hbehind
  rw [pieces_page, Markup.textsBehind_append htitle, Markup.textsBehind_append (by simp),
    hstyle, List.append_assoc, Markup.textsBehind_append htitleEnd, List.singleton_append,
    hquery, List.cons_append, Markup.textsBehind_tag, Markup.textsBehind_of_not_mem hbehind]

end Renderer

/-! ## The rules of a stylesheet -/

/-- Text without the white space at both of its ends. -/
def trimmed (text : List Char) : List Char :=
  (text.dropWhile Char.isWhitespace).rdropWhile Char.isWhitespace

theorem trimmed_of_forall {text : List Char} (h : ∀ c ∈ text, c.isWhitespace = false) :
    trimmed text = text := by
  have hfront : text.dropWhile Char.isWhitespace = text := by
    rw [List.dropWhile_eq_self_iff]
    intro hl
    simp [h _ (List.getElem_mem hl)]
  have hback : text.rdropWhile Char.isWhitespace = text := by
    rw [List.rdropWhile_eq_self_iff]
    intro hl
    simp [h _ (List.getLast_mem hl)]
  rw [trimmed, hfront, hback]

/-- White space around a trimmed text is what trimming takes away. -/
theorem trimmed_append {before text after : List Char}
    (hbefore : ∀ c ∈ before, c.isWhitespace = true) (htext : trimmed text = text)
    (hafter : ∀ c ∈ after, c.isWhitespace = true) :
    trimmed (before ++ (text ++ after)) = text := by
  -- Nothing can be taken from the front of the text, or it would not be whole in the end.
  have hfront : text.dropWhile Char.isWhitespace = text := by
    apply (List.dropWhile_suffix _).eq_of_length_le
    have hle := (List.rdropWhile_prefix Char.isWhitespace
      (text.dropWhile Char.isWhitespace)).length_le
    rw [← trimmed, htext] at hle
    exact hle
  have hback : text.rdropWhile Char.isWhitespace = text := by
    rwa [trimmed, hfront] at htext
  have hnil : after.dropWhile Char.isWhitespace = [] := List.dropWhile_eq_nil_iff.mpr hafter
  rw [trimmed, List.dropWhile_append_of_pos hbefore, List.dropWhile_append, hfront, hnil]
  split
  · next hempty => rw [List.isEmpty_iff.mp hempty, List.rdropWhile_nil]
  · have hreverse : ∀ c ∈ after.reverse, c.isWhitespace = true := by
      simpa using hafter
    rw [List.rdropWhile, List.reverse_append, List.dropWhile_append_of_pos hreverse,
      ← List.rdropWhile, hback]

namespace Stylesheet

/-- A rule: what it applies to, and the style that it gives. -/
structure Rule where
  /-- What the rule applies to. -/
  selector : List Char
  /-- The style that it gives. -/
  style : List Char
deriving DecidableEq, Repr

/-- The rule that is written up to a closing brace, if there is an opening one. -/
def rule? (text : List Char) : Option Rule :=
  match text.dropWhile (· != '\x7b') with
  | [] => none
  | _ :: style => some ⟨trimmed (text.takeWhile (· != '\x7b')), trimmed style⟩

/-- The rules of a stylesheet, each of which ends in a closing brace. -/
def rules (css : List Char) : List Rule :=
  (css.splitOn '\x7d').filterMap rule?

example : rules ".a \x7b b: c; \x7d\n.d\x7b\x7d".toList =
    [⟨".a".toList, "b: c;".toList⟩, ⟨".d".toList, []⟩] := by
  decide +kernel

theorem rules_append {selector style : List Char} (hopen : '\x7b' ∉ selector)
    (hselector : '\x7d' ∉ selector) (hstyle : '\x7d' ∉ style) (rest : List Char) :
    rules (selector ++ '\x7b' :: (style ++ '\x7d' :: rest)) =
      ⟨trimmed selector, trimmed style⟩ :: rules rest := by
  have hclose : '\x7d' ∉ selector ++ '\x7b' :: style := by
    simp [hselector, hstyle]
  have hsplit : (selector ++ '\x7b' :: (style ++ '\x7d' :: rest)).splitOn '\x7d' =
      (selector ++ '\x7b' :: style) :: rest.splitOn '\x7d' := by
    have hne : ∀ c ∈ selector ++ '\x7b' :: style, (c == '\x7d') = false := by
      intro c hmem
      apply beq_eq_false_iff_ne.mpr
      rintro rfl
      exact hclose hmem
    have hfirst := List.splitOnP_append_cons_of_forall_mem hne '\x7d' (by decide) rest
    rwa [List.append_assoc, List.cons_append] at hfirst
  rw [rules, hsplit, List.filterMap_cons, rule?, dropWhile_separator hopen,
    takeWhile_separator hopen]
  rfl

theorem isWhitespace_of_isClassPrefix {name : String} (h : isClassPrefix name = true) :
    ∀ c ∈ name.toList, c.isWhitespace = false := by
  intro c hmem
  rw [Bool.eq_false_iff]
  intro hspace
  have hcases : c = ' ' ∨ c = '\t' ∨ c = '\r' ∨ c = '\n' := by
    simpa [Char.isWhitespace, or_assoc] using hspace
  rcases hcases with rfl | rfl | rfl | rfl <;>
    exact not_mem_of_isClassPrefix h (by decide) hmem

/-- A class with its style that can be written as a rule: the class is made of the
characters of a name, and the style has no brace that ends it and no white space at its
ends. -/
structure Clean (entry : String × String) : Prop where
  name_valid : isClassPrefix entry.1 = true
  style_unclosed : '\x7d' ∉ entry.2.toList
  style_trimmed : trimmed entry.2.toList = entry.2.toList

/-- A rule that is written on a line of its own is read as it is meant. -/
theorem rules_styleRule_append {entry : String × String} (h : Clean entry)
    (rest : List Char) :
    rules ('\n' :: (styleRule entry.1 entry.2).toList ++ rest) =
      ⟨'.' :: entry.1.toList, entry.2.toList⟩ :: rules rest := by
  have hparts : '\n' :: (styleRule entry.1 entry.2).toList ++ rest =
      (['\n'] ++ ('.' :: entry.1.toList ++ [' '])) ++
        '\x7b' :: (([' '] ++ (entry.2.toList ++ [' '])) ++ '\x7d' :: rest) := by
    simp [styleRule]
  have hselector : trimmed ('.' :: entry.1.toList) = '.' :: entry.1.toList := by
    apply trimmed_of_forall
    rw [List.forall_mem_cons]
    exact ⟨by decide, isWhitespace_of_isClassPrefix h.name_valid⟩
  have hopen : '\x7b' ∉ entry.1.toList := not_mem_of_isClassPrefix h.name_valid (by decide)
  have hclose : '\x7d' ∉ entry.1.toList := not_mem_of_isClassPrefix h.name_valid (by decide)
  have hnewline : ∀ c ∈ ['\n'], c.isWhitespace = true := List.forall_mem_singleton.mpr rfl
  have hspace : ∀ c ∈ [' '], c.isWhitespace = true := List.forall_mem_singleton.mpr rfl
  rw [hparts, rules_append (by simp [hopen]) (by simp [hclose]) (by simp [h.style_unclosed]),
    trimmed_append hnewline hselector hspace, trimmed_append hspace h.style_trimmed hspace]

/-- Rules that are written line by line are read as they are meant. -/
theorem rules_lines {entries : List (String × String)} (h : ∀ entry ∈ entries, Clean entry) :
    rules (entries.flatMap (fun entry => '\n' :: (styleRule entry.1 entry.2).toList) ++
        ['\n']) =
      entries.map fun entry => ⟨'.' :: entry.1.toList, entry.2.toList⟩ := by
  induction entries with
  | nil => decide +kernel
  | cons entry entries ih =>
    obtain ⟨hentry, hentries⟩ := List.forall_mem_cons.mp h
    rw [List.flatMap_cons, List.append_assoc, rules_styleRule_append hentry, ih hentries,
      List.map_cons]

/-- A selector that no other rule has finds its rule. -/
theorem filter_selector {rules : List Rule} (h : (rules.map Rule.selector).Nodup)
    {selector style : List Char} (hmem : ⟨selector, style⟩ ∈ rules) :
    rules.filter (fun rule => rule.selector = selector) = [⟨selector, style⟩] := by
  induction rules with
  | nil => exact absurd hmem List.not_mem_nil
  | cons first rules ih =>
    rw [List.map_cons, List.nodup_cons] at h
    have hother : ∀ rule ∈ rules, rule.selector ≠ first.selector := by
      intro rule hrule heq
      exact h.1 (heq ▸ List.mem_map_of_mem hrule)
    rcases List.mem_cons.mp hmem with rfl | hmem
    · rw [List.filter_cons_of_pos (by simp), List.filter_eq_nil_iff.mpr]
      simpa using hother
    · have hne : selector ≠ first.selector := hother _ hmem
      rw [List.filter_cons_of_neg (by simpa using hne.symm), ih h.2 hmem]

end Stylesheet

namespace Renderer

theorem clean_classStyles (renderer : Renderer) :
    ∀ entry ∈ renderer.classStyles, Stylesheet.Clean entry := by
  have hstyle : ∀ kind : TokenKind, '\x7d' ∉ kind.defaultStyle.toList ∧
      trimmed kind.defaultStyle.toList = kind.defaultStyle.toList := by
    intro kind
    cases kind <;> decide +kernel
  rw [classStyles, List.forall_mem_cons, List.forall_mem_map]
  constructor
  · exact ⟨by decide +kernel, by decide +kernel, by decide +kernel⟩
  · intro kind _
    exact ⟨renderer.isClassPrefix_className kind, (hstyle kind).1, (hstyle kind).2⟩

theorem rules_pageStyle (renderer : Renderer) :
    Stylesheet.rules renderer.pageStyle.toList =
      renderer.classStyles.map fun entry => ⟨'.' :: entry.1.toList, entry.2.toList⟩ := by
  rw [toList_pageStyle, Stylesheet.rules_lines renderer.clean_classStyles]

/-! ## Selectors -/

/-- No label ends the class of the preview, so no start makes that class of one. -/
theorem className_ne_previewClass (renderer : Renderer) (kind : TokenKind) :
    renderer.className kind ≠ previewClass := by
  intro heq
  have hsuffix : kind.label.toList <:+ previewClass.toList := by
    rw [← heq, className, String.toList_append]
    exact List.suffix_append _ _
  revert hsuffix
  cases kind <;> decide +kernel

theorem nodup_classes (renderer : Renderer) :
    (previewClass :: TokenKind.all.map renderer.className).Nodup := by
  have hkinds : TokenKind.all.Nodup := by decide
  rw [List.nodup_cons, List.mem_map]
  refine ⟨?_, hkinds.map fun _ _ => renderer.className_injective⟩
  rintro ⟨kind, -, heq⟩
  exact renderer.className_ne_previewClass kind heq

/-- The rules of a page are those of the preview and of the seven kinds. -/
theorem selectors_pageStyle (renderer : Renderer) :
    (Stylesheet.rules renderer.pageStyle.toList).map Stylesheet.Rule.selector =
      (previewClass :: TokenKind.all.map renderer.className).map fun name =>
        '.' :: name.toList := by
  rw [rules_pageStyle, classStyles]
  rfl

theorem nodup_selectors (renderer : Renderer) :
    ((Stylesheet.rules renderer.pageStyle.toList).map Stylesheet.Rule.selector).Nodup := by
  rw [selectors_pageStyle]
  apply renderer.nodup_classes.map
  intro name name' heq
  exact String.toList_inj.mp (List.tail_eq_of_cons_eq heq)

theorem filter_rules_className (renderer : Renderer) (kind : TokenKind) :
    (Stylesheet.rules renderer.pageStyle.toList).filter
        (fun rule => rule.selector = '.' :: (renderer.className kind).toList) =
      [⟨'.' :: (renderer.className kind).toList, kind.defaultStyle.toList⟩] := by
  have hentry : (renderer.className kind, kind.defaultStyle) ∈ renderer.classStyles := by
    rw [classStyles, List.mem_cons, List.mem_map]
    exact Or.inr ⟨kind, TokenKind.mem_all kind, rfl⟩
  have hmem : ⟨'.' :: (renderer.className kind).toList, kind.defaultStyle.toList⟩ ∈
      Stylesheet.rules renderer.pageStyle.toList := by
    rw [rules_pageStyle]
    exact List.mem_map_of_mem hentry
  exact Stylesheet.filter_selector renderer.nodup_selectors hmem

/-- The classes of a highlighted text agree with the stylesheet of its page.  A page has
one stylesheet.  There is one class for each token of the text, and just one rule has
the selector of this class: it gives the default style of the token's kind.  The
selectors are those of the preview and of the seven kinds, and whatever the class names
start with, no two of them are the same. -/
theorem page_styles (renderer : Renderer) (text title : String) :
    ∃ css : List Char,
      Markup.textsBehind "<style>".toList
          (Markup.pieces (renderer.page text title).toList) = [css] ∧
        List.Forall₂ (fun token value =>
            (Stylesheet.rules css).filter (fun rule => rule.selector = '.' :: value) =
              [⟨'.' :: value, token.kind.defaultStyle.toList⟩])
          (tokenize text) (Markup.classValues (renderer.highlight text).toList) ∧
        (Stylesheet.rules css).map Stylesheet.Rule.selector =
          (previewClass :: TokenKind.all.map renderer.className).map
            (fun name => '.' :: name.toList) ∧
        ((Stylesheet.rules css).map Stylesheet.Rule.selector).Nodup := by
  refine ⟨renderer.pageStyle.toList, renderer.textsBehind_page text title, ?_,
    renderer.selectors_pageStyle, renderer.nodup_selectors⟩
  rw [classValues_highlight, List.forall₂_map_right_iff, List.forall₂_same]
  intro token _
  exact renderer.filter_rules_className token.kind

end Renderer
end QueryHighlight
