import QueryHighlight.Markup.Renderer
import QueryHighlight.Markup.Tags
import QueryHighlight.Proofs.Escaping

/-!
# What a rendering is made of

The renderer writes text that it does not control: the query, the contents of
the tokens, and its own two words.  This module proves that none of them can
make a tag or end one, for any tokens whatever.

There are five groups.

* Text up to a separator.  A character that a text does not hold marks its end.
* The pieces of markup.  `pieces_append_of_not_mem` and `pieces_tag_append` take
  text without brackets, and a whole tag, off the front of a markup.
* Inert markup.  `Inert` says of a list of pieces that what is outside the tags
  means nothing but itself.
* The tags of a renderer.  The checks on its two words make `openTag` and
  `closeTag` tags.
* The pieces of a rendering.  `markupFrom` is the loop of the renderer as a
  recursion over the tokens, `piecesFrom` is what it falls into, and
  `pieces_renderSource` connects the two.  `render_inert` is the result.
-/

namespace QueryHighlight

/-! ## Text up to a separator -/

theorem takeWhile_separator {separator : Char} {a : List Char} (h : separator ∉ a)
    (b : List Char) : (a ++ separator :: b).takeWhile (· != separator) = a := by
  have hne : ∀ c ∈ a, (c != separator) = true := by
    intro c hmem
    apply bne_iff_ne.mpr
    rintro rfl
    exact h hmem
  rw [List.takeWhile_append_of_pos hne, List.takeWhile_cons_of_neg (by simp),
    List.append_nil]

theorem dropWhile_separator {separator : Char} {a : List Char} (h : separator ∉ a)
    (b : List Char) :
    (a ++ separator :: b).dropWhile (· != separator) = separator :: b := by
  have hwhole := List.takeWhile_append_dropWhile (p := (· != separator))
    (l := a ++ separator :: b)
  rw [takeWhile_separator h] at hwhole
  exact List.append_cancel_left hwhole

/-- A text without the separator ends where the first separator behind it stands. -/
theorem append_separator_inj {separator : Char} {a a' b b' : List Char}
    (ha : separator ∉ a) (ha' : separator ∉ a')
    (h : a ++ separator :: b = a' ++ separator :: b') : a = a' ∧ b = b' := by
  have hfront := congrArg (List.takeWhile (· != separator)) h
  have hback := congrArg (List.dropWhile (· != separator)) h
  rw [takeWhile_separator ha, takeWhile_separator ha'] at hfront
  rw [dropWhile_separator ha, dropWhile_separator ha'] at hback
  exact ⟨hfront, List.tail_eq_of_cons_eq hback⟩

namespace Markup

/-! ## The pieces of markup -/

theorem pieces_cons_of_ne {c : Char} (h : c ≠ '<') (text : List Char) :
    pieces (c :: text) = .char c :: pieces text := by
  rw [pieces, if_neg h]

theorem pieces_append_of_not_mem {a : List Char} (h : '<' ∉ a) (b : List Char) :
    pieces (a ++ b) = a.map .char ++ pieces b := by
  induction a with
  | nil => rfl
  | cons c a ih =>
    rw [List.mem_cons, not_or] at h
    rw [List.cons_append, pieces_cons_of_ne (Ne.symm h.1), ih h.2]
    rfl

/-- The tag that a piece is, if it is one. -/
def Piece.tag? : Piece → Option (List Char)
  | .tag chars => some chars
  | .char _ => none

/-- The character that a piece is, if it is one. -/
def Piece.char? : Piece → Option Char
  | .tag _ => none
  | .char c => some c

theorem tags_eq_filterMap (text : List Char) :
    tags text = (pieces text).filterMap Piece.tag? := rfl

theorem withoutTags_eq_filterMap (text : List Char) :
    withoutTags text = (pieces text).filterMap Piece.char? := rfl

@[simp] theorem filterMap_tag?_map_char (text : List Char) :
    (text.map Piece.char).filterMap Piece.tag? = [] := by
  rw [List.filterMap_map, List.filterMap_eq_nil_iff]
  exact fun _ _ => rfl

@[simp] theorem filterMap_char?_map_char (text : List Char) :
    (text.map Piece.char).filterMap Piece.char? = text := by
  rw [List.filterMap_map]
  exact List.filterMap_some

/-- A tag: brackets around one or more characters that do not close it. -/
def IsTag (tag : List Char) : Prop :=
  ∃ body, tag = '<' :: (body ++ ['>']) ∧ body ≠ [] ∧ '>' ∉ body

theorem splitTag?_append {body : List Char} (hne : body ≠ []) (hclose : '>' ∉ body)
    (rest : List Char) :
    splitTag? (body ++ '>' :: rest) = some (body ++ ['>'], rest) := by
  rw [splitTag?, takeWhile_separator hclose, dropWhile_separator hclose]
  exact if_neg hne

theorem pieces_tag_append {tag : List Char} (h : IsTag tag) (rest : List Char) :
    pieces (tag ++ rest) = .tag tag :: pieces rest := by
  obtain ⟨body, rfl, hne, hclose⟩ := h
  have hsplit := splitTag?_append hne hclose rest
  rw [List.cons_append, List.append_assoc, List.singleton_append, pieces, if_pos rfl]
  split
  · next hsome =>
    rw [hsplit, Option.some.injEq, Prod.mk.injEq] at hsome
    rw [← hsome.1, ← hsome.2]
  · next hnone =>
    rw [hsplit] at hnone
    exact absurd hnone (Option.some_ne_none _)

/-- What is split off as the rest of a tag is that of a whole tag. -/
theorem eq_of_splitTag? {text body rest : List Char} (h : splitTag? text = some (body, rest)) :
    IsTag ('<' :: body) ∧ text = body ++ rest := by
  have hclose : '>' ∉ text.takeWhile (· != '>') := by
    intro hmem
    have hall := List.all_eq_true.mp (List.all_takeWhile (p := (· != '>')) (l := text))
    exact absurd (hall '>' hmem) (by decide)
  have htext := List.takeWhile_append_dropWhile (p := (· != '>')) (l := text)
  unfold splitTag? at h
  split at h
  · next close after hdrop =>
    obtain rfl : close = '>' := by
      have hhead := List.head?_dropWhile_not (· != '>') text
      rw [hdrop] at hhead
      simpa using hhead
    by_cases hempty : text.takeWhile (· != '>') = []
    · rw [if_pos hempty] at h
      exact absurd h.symm (Option.some_ne_none _)
    · rw [if_neg hempty, Option.some.injEq, Prod.mk.injEq] at h
      obtain ⟨rfl, rfl⟩ := h
      refine ⟨⟨_, rfl, hempty, hclose⟩, ?_⟩
      rw [List.append_assoc, List.singleton_append, ← hdrop, htext]
  · exact absurd h.symm (Option.some_ne_none _)

/-- A tag is an opening bracket with all of the rest of a tag behind it. -/
theorem isTag_iff {tag : List Char} :
    IsTag tag ↔ tag.head? = some '<' ∧ splitTag? tag.tail = some (tag.tail, []) := by
  constructor
  · rintro ⟨body, rfl, hne, hclose⟩
    exact ⟨rfl, splitTag?_append hne hclose []⟩
  · intro ⟨hopen, hsplit⟩
    obtain ⟨text, rfl⟩ := List.head?_eq_some_iff.mp hopen
    exact (eq_of_splitTag? hsplit).1

instance (tag : List Char) : Decidable (IsTag tag) :=
  decidable_of_iff _ isTag_iff.symm

/-- Markup that leaves no bracket open is taken apart on its own, whatever follows
it. -/
theorem pieces_append {a : List Char} (h : .char '<' ∉ pieces a) (b : List Char) :
    pieces (a ++ b) = pieces a ++ pieces b := by
  fun_induction pieces a with
  | case1 => rfl
  | case2 text body rest hsplit ih =>
    obtain ⟨htag, rfl⟩ := eq_of_splitTag? hsplit
    rw [List.mem_cons, not_or] at h
    have hpieces := pieces_tag_append htag (rest ++ b)
    rw [ih h.2] at hpieces
    simpa using hpieces
  | case3 => simp at h
  | case4 c text hc ih =>
    rw [List.mem_cons, not_or] at h
    rw [List.cons_append, pieces_cons_of_ne hc, ih h.2, List.cons_append]

/-! ## Inert markup -/

/-- What stands outside the tags means nothing but itself: there is no bracket
and no quote, and every ampersand begins an entity. -/
inductive Inert : List Piece → Prop where
  | nil : Inert []
  | tag {chars : List Char} {rest : List Piece} (hrest : Inert rest) :
      Inert (.tag chars :: rest)
  | char {c : Char} {rest : List Piece} (hplain : c ∉ ['<', '>', '"', '\''])
      (hentity : c = '&' →
        ∃ entry ∈ entities, entry.2.toList.map Piece.char <+: .char c :: rest)
      (hrest : Inert rest) : Inert (.char c :: rest)

theorem inert_char_iff {c : Char} {rest : List Piece} :
    Inert (.char c :: rest) ↔
      c ∉ ['<', '>', '"', '\''] ∧
        (c = '&' → ∃ entry ∈ entities, entry.2.toList.map Piece.char <+: .char c :: rest) ∧
        Inert rest := by
  constructor
  · intro h
    cases h with
    | char hplain hentity hrest => exact ⟨hplain, hentity, hrest⟩
  · intro h
    exact .char h.1 h.2.1 h.2.2

theorem inert_tag_iff {chars : List Char} {rest : List Piece} :
    Inert (.tag chars :: rest) ↔ Inert rest := by
  constructor
  · intro h
    cases h with
    | tag hrest => exact hrest
  · exact .tag

/-- Inertness is decided piece by piece. -/
def decideInert : (text : List Piece) → Decidable (Inert text)
  | [] => isTrue .nil
  | .tag _ :: rest =>
    have := decideInert rest
    decidable_of_iff _ inert_tag_iff.symm
  | .char _ :: rest =>
    have := decideInert rest
    decidable_of_iff _ inert_char_iff.symm

instance (text : List Piece) : Decidable (Inert text) :=
  decideInert text

example : ¬Inert [.char '&', .tag "</b>".toList, .char 'l'] := by decide

theorem Inert.append {a b : List Piece} (ha : Inert a) (hb : Inert b) : Inert (a ++ b) := by
  induction ha with
  | nil => exact hb
  | tag _ ih => exact .tag ih
  | char hplain hentity _ ih =>
    apply Inert.char hplain _ ih
    intro hamp
    obtain ⟨entry, hmem, hbegins⟩ := hentity hamp
    exact ⟨entry, hmem, hbegins.trans (List.prefix_append _ _)⟩

theorem inert_escapeChar (c : Char) : Inert ((escapeChar c).map .char) := by
  have hentities : ∀ entry ∈ entities, Inert (entry.2.toList.map .char) := by decide
  rcases escapeChar_cases c with ⟨entry, hmem, _, heq⟩ | ⟨hne, heq⟩
  · rw [heq]
    exact hentities entry hmem
  · rw [heq]
    simp only [entities, List.forall_mem_cons] at hne
    have hplain : c ∉ ['<', '>', '"', '\''] := by simp [hne]
    exact .char hplain (fun hamp => absurd hamp hne.1) .nil

theorem inert_escapeChars (text : List Char) : Inert ((escapeChars text).map .char) := by
  rw [escapeChars_eq_flatMap]
  induction text with
  | nil => exact .nil
  | cons c text ih =>
    rw [List.flatMap_cons, List.map_append]
    exact (inert_escapeChar c).append ih

/-- Inert markup leaves no bracket open. -/
theorem Inert.char_not_mem {pieces : List Piece} (h : Inert pieces) : .char '<' ∉ pieces := by
  induction h with
  | nil => exact List.not_mem_nil
  | tag _ ih => simpa using ih
  | char hplain _ _ ih =>
    rw [List.mem_cons, not_or]
    refine ⟨?_, ih⟩
    intro heq
    rw [← Piece.char.inj heq] at hplain
    exact hplain (by decide)

theorem Inert.not_mem {text : List Char} (h : Inert (text.map .char)) : '<' ∉ text := by
  intro hmem
  exact h.char_not_mem (List.mem_map_of_mem hmem)

end Markup

/-! ## The tags of a renderer -/

theorem isAlphanum_of_isElementName {word : String} (h : isElementName word = true) :
    ∀ c ∈ word.toList, (c.isAlphanum || c == '-') = true := by
  unfold isElementName at h
  split at h
  · exact absurd h Bool.false_ne_true
  · next first rest heq =>
    rw [Bool.and_eq_true, List.all_eq_true] at h
    rw [heq, List.forall_mem_cons]
    refine ⟨?_, h.2⟩
    rw [Char.isAlphanum, h.1]
    rfl

theorem not_mem_of_isClassPrefix {word : String} (h : isClassPrefix word = true) {c : Char}
    (hc : (c.isAlphanum || c == '_' || c == '-') = false) : c ∉ word.toList := by
  intro hmem
  have hchar := List.all_eq_true.mp h c hmem
  rw [hc] at hchar
  exact absurd hchar Bool.false_ne_true

namespace Renderer

theorem not_mem_element (renderer : Renderer) {c : Char}
    (hc : (c.isAlphanum || c == '-') = false) : c ∉ renderer.element.toList := by
  intro hmem
  have h := isAlphanum_of_isElementName renderer.element_valid c hmem
  rw [hc] at h
  exact absurd h Bool.false_ne_true

/-- A class name is made of the characters that the start of one may hold. -/
theorem isClassPrefix_className (renderer : Renderer) (kind : TokenKind) :
    isClassPrefix (renderer.className kind) = true := by
  have hlabel : isClassPrefix kind.label = true := by
    cases kind <;> decide +kernel
  have hstart := renderer.classPrefix_valid
  unfold isClassPrefix at hlabel hstart ⊢
  rw [className, String.toList_append, List.all_append, hstart, hlabel]
  rfl

theorem not_mem_className (renderer : Renderer) (kind : TokenKind) {c : Char}
    (hc : (c.isAlphanum || c == '_' || c == '-') = false) :
    c ∉ (renderer.className kind).toList :=
  not_mem_of_isClassPrefix (renderer.isClassPrefix_className kind) hc

theorem isTag_openTag (renderer : Renderer) (kind : TokenKind) :
    Markup.IsTag (renderer.openTag kind).toList := by
  have helement : '>' ∉ renderer.element.toList := renderer.not_mem_element (by decide)
  have hclass : '>' ∉ (renderer.className kind).toList :=
    renderer.not_mem_className kind (by decide)
  refine ⟨renderer.element.toList ++ " class=\"".toList ++
    (renderer.className kind).toList ++ ['"'], ?_, ?_, ?_⟩
  · simp [openTag]
  · simp
  · simp [helement, hclass]

theorem isTag_closeTag (renderer : Renderer) : Markup.IsTag renderer.closeTag.toList := by
  have helement : '>' ∉ renderer.element.toList := renderer.not_mem_element (by decide)
  refine ⟨'/' :: renderer.element.toList, ?_, ?_, ?_⟩
  · simp [closeTag]
  · simp
  · simp [helement]

end Renderer

/-! ## The pieces of a rendering -/

/-- The text between two positions; nothing unless the first lies before the
second. -/
def Source.between (source : Source) (last start : Int) : List Char :=
  if last < start then (source.slice last start).toList else []

/-- The text that a rendering shows after position `last`: the contents of the
tokens, and what lies between them. -/
def Source.shown (source : Source) : (last : Int) → List Token → List Char
  | last, [] => source.between last source.size
  | last, token :: rest =>
    source.between last token.start ++ token.content.toList ++ source.shown token.stop rest

example : (Source.ofString "abc").shown 0 [⟨.text, "x", -2, 1⟩, ⟨.key, "y", 2, 9⟩] =
    "xby".toList := by
  decide

theorem Source.toList_gap (source : Source) (last start : Int) :
    (source.gap last start).toList = escapeChars (source.between last start) := by
  unfold gap between
  split
  · exact toList_escape _
  · rfl

namespace Renderer

/-- The markup for the tokens of a source after position `last`. -/
def markupFrom (renderer : Renderer) (source : Source) : (last : Int) → List Token → String
  | last, [] => source.gap last source.size
  | last, token :: rest =>
    source.gap last token.start ++ renderer.wrap token ++
      renderer.markupFrom source token.stop rest

/-- The loop adds the markup for the remaining tokens to what is written. -/
theorem markup_foldl_append (renderer : Renderer) (source : Source) (tokens : List Token)
    (done : Rendering) :
    (tokens.foldl (renderer.append source) done).markup ++
        source.gap (tokens.foldl (renderer.append source) done).last source.size =
      done.markup ++ renderer.markupFrom source done.last tokens := by
  induction tokens generalizing done with
  | nil => rfl
  | cons token tokens ih =>
    rw [List.foldl_cons, ih, markupFrom]
    simp only [append, String.append_assoc]

theorem renderSource_eq_markupFrom (renderer : Renderer) (source : Source)
    (tokens : List Token) :
    renderer.renderSource source tokens = renderer.markupFrom source 0 tokens := by
  have hloop := renderer.markup_foldl_append source tokens ⟨"", 0⟩
  rw [String.empty_append] at hloop
  exact hloop

/-- The pieces of the markup for the tokens of a source after position
`last`. -/
def piecesFrom (renderer : Renderer) (source : Source) :
    (last : Int) → List Token → List Markup.Piece
  | last, [] => (escapeChars (source.between last source.size)).map .char
  | last, token :: rest =>
    (escapeChars (source.between last token.start)).map .char ++
      .tag (renderer.openTag token.kind).toList ::
      ((escapeChars token.content.toList).map .char ++
        .tag renderer.closeTag.toList :: renderer.piecesFrom source token.stop rest)

theorem pieces_escapeChars_append (text rest : List Char) :
    Markup.pieces (escapeChars text ++ rest) =
      (escapeChars text).map .char ++ Markup.pieces rest :=
  Markup.pieces_append_of_not_mem (Markup.inert_escapeChars text).not_mem rest

theorem pieces_markupFrom (renderer : Renderer) (source : Source) (last : Int)
    (tokens : List Token) :
    Markup.pieces (renderer.markupFrom source last tokens).toList =
      renderer.piecesFrom source last tokens := by
  induction tokens generalizing last with
  | nil =>
    have hpieces := pieces_escapeChars_append (source.between last source.size) []
    rw [List.append_nil] at hpieces
    rw [markupFrom, Source.toList_gap, hpieces, piecesFrom, Markup.pieces, List.append_nil]
  | cons token tokens ih =>
    rw [markupFrom, wrap]
    simp only [String.toList_append, Source.toList_gap, toList_escape, List.append_assoc]
    rw [pieces_escapeChars_append, Markup.pieces_tag_append (renderer.isTag_openTag _),
      pieces_escapeChars_append, Markup.pieces_tag_append renderer.isTag_closeTag, ih,
      piecesFrom]

theorem pieces_renderSource (renderer : Renderer) (source : Source) (tokens : List Token) :
    Markup.pieces (renderer.renderSource source tokens).toList =
      renderer.piecesFrom source 0 tokens := by
  rw [renderSource_eq_markupFrom, pieces_markupFrom]

/-- The tags of a rendering are those of its elements, and only the kinds of the
tokens matter for them. -/
theorem tags_renderSource (renderer : Renderer) (source : Source) (tokens : List Token) :
    Markup.tags (renderer.renderSource source tokens).toList =
      tokens.flatMap fun token =>
        [(renderer.openTag token.kind).toList, renderer.closeTag.toList] := by
  rw [Markup.tags_eq_filterMap, pieces_renderSource]
  generalize (0 : Int) = last
  induction tokens generalizing last with
  | nil => exact Markup.filterMap_tag?_map_char _
  | cons token tokens ih =>
    simp only [piecesFrom, List.filterMap_append, List.filterMap_cons, Markup.Piece.tag?,
      Markup.filterMap_tag?_map_char, List.nil_append, ih, List.flatMap_cons,
      List.cons_append]

theorem tags_highlight (renderer : Renderer) (text : String) :
    Markup.tags (renderer.highlight text).toList =
      (tokenize text).flatMap fun token =>
        [(renderer.openTag token.kind).toList, renderer.closeTag.toList] :=
  renderer.tags_renderSource _ _

theorem inert_piecesFrom (renderer : Renderer) (source : Source) (last : Int)
    (tokens : List Token) : Markup.Inert (renderer.piecesFrom source last tokens) := by
  induction tokens generalizing last with
  | nil =>
    rw [piecesFrom]
    exact Markup.inert_escapeChars _
  | cons token tokens ih =>
    have hgap := Markup.inert_escapeChars (source.between last token.start)
    have hcontent := Markup.inert_escapeChars token.content.toList
    rw [piecesFrom]
    exact hgap.append (.tag (hcontent.append (.tag (ih token.stop))))

/-- A reader of a rendering sees the contents of its tokens and what lies
between them. -/
theorem unescape_withoutTags_renderSource (renderer : Renderer) (source : Source)
    (tokens : List Token) :
    unescape (Markup.withoutTags (renderer.renderSource source tokens).toList) =
      source.shown 0 tokens := by
  rw [Markup.withoutTags_eq_filterMap, pieces_renderSource]
  generalize (0 : Int) = last
  induction tokens generalizing last with
  | nil =>
    rw [piecesFrom, Markup.filterMap_char?_map_char, unescape_escapeChars, Source.shown]
  | cons token tokens ih =>
    simp only [piecesFrom, List.filterMap_append, List.filterMap_cons, Markup.Piece.char?,
      Markup.filterMap_char?_map_char]
    rw [unescape_escapeChars_append, unescape_escapeChars_append, ih, Source.shown,
      List.append_assoc]

/-- Whatever the tokens are, the tags of a rendering are the two of each token,
what stands outside them is inert, and a reader sees the contents of the tokens
and the text between them. -/
theorem render_inert (renderer : Renderer) (text : String) (tokens : List Token) :
    let markup := (renderer.render text tokens).toList
    Markup.tags markup =
        tokens.flatMap (fun token =>
          [(renderer.openTag token.kind).toList, renderer.closeTag.toList]) ∧
      Markup.Inert (Markup.pieces markup) ∧
      unescape (Markup.withoutTags markup) = (Source.ofString text).shown 0 tokens := by
  intro markup
  refine ⟨renderer.tags_renderSource _ tokens, ?_,
    renderer.unescape_withoutTags_renderSource _ tokens⟩
  show Markup.Inert (Markup.pieces (renderer.renderSource (Source.ofString text) tokens).toList)
  rw [pieces_renderSource]
  exact renderer.inert_piecesFrom _ 0 tokens

end Renderer
end QueryHighlight
