import QueryHighlight.Markup.Page
import QueryHighlight.Proofs.Decoding

/-!
# What a page is made of

A page writes a title, a stylesheet and a highlighted query into one document.
This module proves that the document around them is always the same, and that
what is written in one place cannot be taken for what stands in another.

* Markup in parts.  `Markup.joined` writes tags with the text behind each, and
  `Markup.pieces_joined_append` finds them again.
* The frame of a page.  `Renderer.page_eq` gives it as four runs of such tags,
  with the title, the stylesheet and the query between them, and
  `Renderer.pieces_page` says that it falls into these.
* What is written into the frame.  The title is escaped, the check on the start
  of the class names keeps brackets out of the stylesheet, and a highlighted query
  leaves no tag open.

`Renderer.page_separates` is the result.
-/

namespace QueryHighlight
namespace Markup

/-! ## Markup in parts -/

/-- Tags, each with the text behind it, written one after the other. -/
def joined : List (String × String) → String
  | [] => ""
  | (tag, text) :: tagged => tag ++ text ++ joined tagged

/-- The tags are tags, and there is no opening bracket in the text behind them. -/
def WellTagged (tagged : List (String × String)) : Prop :=
  ∀ entry ∈ tagged, IsTag entry.1.toList ∧ '<' ∉ entry.2.toList

instance (tagged : List (String × String)) : Decidable (WellTagged tagged) :=
  inferInstanceAs (Decidable (∀ entry ∈ tagged, _))

theorem filterMap_tag?_text_append (text : List Char) (rest : List Piece) :
    (text.map Piece.char ++ rest).filterMap Piece.tag? = rest.filterMap Piece.tag? := by
  rw [List.filterMap_append, filterMap_tag?_map_char, List.nil_append]

theorem tags_text_append {text : List Char} (h : '<' ∉ text) (rest : List Char) :
    tags (text ++ rest) = tags rest := by
  rw [tags_eq_filterMap, pieces_append_of_not_mem h, filterMap_tag?_text_append]
  rfl

/-- What tags with text behind them fall into. -/
def joinedPieces (tagged : List (String × String)) : List Piece :=
  tagged.flatMap fun entry => .tag entry.1.toList :: entry.2.toList.map .char

theorem pieces_joined_append {tagged : List (String × String)} (h : WellTagged tagged)
    (rest : List Char) :
    pieces ((joined tagged).toList ++ rest) = joinedPieces tagged ++ pieces rest := by
  induction tagged with
  | nil => rfl
  | cons entry tagged ih =>
    obtain ⟨⟨htag, htext⟩, hrest⟩ := List.forall_mem_cons.mp h
    rw [joined, String.toList_append, String.toList_append, List.append_assoc,
      List.append_assoc, pieces_tag_append htag, pieces_append_of_not_mem htext, ih hrest,
      joinedPieces, joinedPieces, List.flatMap_cons, List.append_assoc, List.cons_append]

theorem pieces_joined {tagged : List (String × String)} (h : WellTagged tagged) :
    pieces (joined tagged).toList = joinedPieces tagged := by
  have hpieces := pieces_joined_append h []
  rwa [List.append_nil, pieces, List.append_nil] at hpieces

theorem filterMap_tag?_joinedPieces (tagged : List (String × String)) :
    (joinedPieces tagged).filterMap Piece.tag? = tagged.map fun entry => entry.1.toList := by
  induction tagged with
  | nil => rfl
  | cons entry tagged ih =>
    rw [joinedPieces, List.flatMap_cons, ← joinedPieces, List.filterMap_append, ih,
      List.filterMap_cons, filterMap_tag?_map_char]
    rfl

theorem filterMap_tag?_joinedPieces_append (tagged : List (String × String))
    (rest : List Piece) :
    (joinedPieces tagged ++ rest).filterMap Piece.tag? =
      tagged.map (fun entry => entry.1.toList) ++ rest.filterMap Piece.tag? := by
  rw [List.filterMap_append, filterMap_tag?_joinedPieces]

theorem tags_joined_append {tagged : List (String × String)} (h : WellTagged tagged)
    (rest : List Char) :
    tags ((joined tagged).toList ++ rest) =
      tagged.map (fun entry => entry.1.toList) ++ tags rest := by
  rw [tags_eq_filterMap, pieces_joined_append h, filterMap_tag?_joinedPieces_append]
  rfl

end Markup

/-! ## The frame of a page -/

namespace Page

/-- What stands before the title. -/
def beforeTitle : List (String × String) :=
  [("<!DOCTYPE html>", "\n"), ("<html>", "\n"), ("<head>", "\n"),
   ("<meta charset=\"utf-8\">", "\n"), ("<title>", "")]

/-- What stands between the title and the stylesheet. -/
def beforeStyle : List (String × String) :=
  [("</title>", "\n"), ("<style>", "")]

/-- What stands between the stylesheet and the query. -/
def beforeQuery : List (String × String) :=
  [("</style>", "\n"), ("</head>", "\n"), ("<body>", "\n"),
   ("<div class=\"highlight-preview\">", "")]

/-- What stands behind the query. -/
def afterQuery : List (String × String) :=
  [("</div>", "\n"), ("</body>", "\n"), ("</html>", "\n")]

/-- The tags of a page up to the one that holds the query. -/
def openingTags : List String :=
  ["<!DOCTYPE html>", "<html>", "<head>", "<meta charset=\"utf-8\">", "<title>",
   "</title>", "<style>", "</style>", "</head>", "<body>",
   "<div class=\"highlight-preview\">"]

/-- The tags of a page behind the query. -/
def closingTags : List String :=
  ["</div>", "</body>", "</html>"]

theorem wellTagged_beforeTitle : Markup.WellTagged beforeTitle := by
  decide +kernel

theorem wellTagged_beforeStyle : Markup.WellTagged beforeStyle := by
  decide +kernel

theorem wellTagged_beforeQuery : Markup.WellTagged beforeQuery := by
  decide +kernel

theorem wellTagged_afterQuery : Markup.WellTagged afterQuery := by
  decide +kernel

/-- The title is followed by a bracket. -/
theorem toList_joined_beforeStyle :
    (Markup.joined beforeStyle).toList = '<' :: "/title>\n<style>".toList := by
  decide +kernel

end Page

namespace Renderer

/-- What stands in the style element of a page. -/
def pageStyle (renderer : Renderer) : String :=
  "\n" ++ stylesheet renderer.classPrefix [] ++ "\n"

theorem page_eq (renderer : Renderer) (text title : String) :
    (renderer.page text title).toList =
      (Markup.joined Page.beforeTitle).toList ++ ((escape title).toList ++
        ((Markup.joined Page.beforeStyle).toList ++ (renderer.pageStyle.toList ++
          ((Markup.joined Page.beforeQuery).toList ++ ((renderer.highlight text).toList ++
            (Markup.joined Page.afterQuery).toList))))) := by
  have hdiv : "<div class=\"highlight-preview\">" =
      "<div class=\"" ++ previewClass ++ "\">" := by
    decide +kernel
  unfold page pageStyle Page.beforeTitle Page.beforeStyle Page.beforeQuery Page.afterQuery
  rw [hdiv]
  simp [Markup.joined]

end Renderer

/-! ## What is written into the frame -/

theorem not_mem_escape (text : String) : '<' ∉ (escape text).toList := by
  rw [toList_escape]
  exact (Markup.inert_escapeChars _).not_mem

/-- Parts with newlines between them are lines with a newline in front of each. -/
theorem newline_append_intercalate {parts : List String} (h : parts ≠ []) :
    '\n' :: (String.intercalate "\n" parts).toList =
      parts.flatMap fun part => '\n' :: part.toList := by
  rw [String.toList_intercalate]
  induction parts with
  | nil => exact absurd rfl h
  | cons part parts ih =>
    cases parts with
    | nil => simp
    | cons next parts =>
      have hrest := ih (List.cons_ne_nil _ _)
      rw [List.flatMap_cons, ← hrest]
      simp [List.intercalate_cons_cons]

theorem not_mem_styleRule {className style : String} (hclass : '<' ∉ className.toList)
    (hstyle : '<' ∉ style.toList) : '<' ∉ (styleRule className style).toList := by
  simp [styleRule, hclass, hstyle]

namespace Renderer

/-- The classes with a rule on every page, each with its style. -/
def classStyles (renderer : Renderer) : List (String × String) :=
  (previewClass, previewStyle) ::
    TokenKind.all.map fun kind => (renderer.className kind, kind.defaultStyle)

theorem toList_pageStyle (renderer : Renderer) :
    renderer.pageStyle.toList =
      renderer.classStyles.flatMap (fun entry => '\n' :: (styleRule entry.1 entry.2).toList) ++
        ['\n'] := by
  have hstyles : stylesheet renderer.classPrefix [] = String.intercalate "\n"
      (renderer.classStyles.map fun entry => styleRule entry.1 entry.2) := by
    rw [classStyles, List.map_cons, List.map_map]
    rfl
  have hne : (renderer.classStyles.map fun entry => styleRule entry.1 entry.2) ≠ [] := by
    simp [classStyles]
  have hlines := newline_append_intercalate hne
  rw [List.flatMap_map] at hlines
  rw [← hlines, pageStyle, hstyles]
  simp

theorem not_mem_pageStyle (renderer : Renderer) : '<' ∉ renderer.pageStyle.toList := by
  have hstyle : ∀ kind : TokenKind, '<' ∉ kind.defaultStyle.toList := by
    intro kind
    cases kind <;> decide
  have hrules : ∀ entry ∈ renderer.classStyles, '<' ∉ (styleRule entry.1 entry.2).toList := by
    rw [classStyles, List.forall_mem_cons, List.forall_mem_map]
    refine ⟨not_mem_styleRule (by decide) (by decide), ?_⟩
    intro kind _
    exact not_mem_styleRule (renderer.not_mem_className kind (by decide)) (hstyle kind)
  rw [toList_pageStyle, List.mem_append, List.mem_flatMap]
  rintro (⟨entry, hentry, hmem⟩ | hmem)
  · exact hrules entry hentry (List.mem_of_ne_of_mem (by decide) hmem)
  · exact absurd hmem (by decide)

theorem highlight_char_not_mem (renderer : Renderer) (text : String) :
    .char '<' ∉ Markup.pieces (renderer.highlight text).toList := by
  show .char '<' ∉ Markup.pieces
    (renderer.renderSource (Source.ofString text) (tokenize text)).toList
  rw [pieces_renderSource]
  exact (renderer.inert_piecesFrom _ 0 _).char_not_mem

theorem highlight_injective (renderer : Renderer) {text text' : String}
    (h : renderer.highlight text = renderer.highlight text') : text = text' := by
  have hread : ∀ text, renderer.read? (renderer.highlight text) = some (text, tokenize text) := by
    intro text
    exact renderer.read?_render
      ((Source.ofString text).reads_tokens.placed 0 (Nat.le_refl 0))
  have hsome := hread text
  rw [h, hread text', Option.some.injEq, Prod.mk.injEq] at hsome
  exact hsome.1.symm

/-- A page falls into the frame, and the title, the stylesheet and the query in it. -/
theorem pieces_page (renderer : Renderer) (text title : String) :
    Markup.pieces (renderer.page text title).toList =
      Markup.joinedPieces Page.beforeTitle ++ ((escape title).toList.map .char ++
        (Markup.joinedPieces Page.beforeStyle ++ (renderer.pageStyle.toList.map .char ++
          (Markup.joinedPieces Page.beforeQuery ++
            (Markup.pieces (renderer.highlight text).toList ++
              Markup.joinedPieces Page.afterQuery))))) := by
  rw [page_eq, Markup.pieces_joined_append Page.wellTagged_beforeTitle,
    Markup.pieces_append_of_not_mem (not_mem_escape title),
    Markup.pieces_joined_append Page.wellTagged_beforeStyle,
    Markup.pieces_append_of_not_mem renderer.not_mem_pageStyle,
    Markup.pieces_joined_append Page.wellTagged_beforeQuery,
    Markup.pieces_append (renderer.highlight_char_not_mem text),
    Markup.pieces_joined Page.wellTagged_afterQuery]

/-- The tags of a page are those of the frame around the ones of the highlighted
query. -/
theorem tags_page (renderer : Renderer) (text title : String) :
    Markup.tags (renderer.page text title).toList =
      Page.openingTags.map String.toList ++ Markup.tags (renderer.highlight text).toList ++
        Page.closingTags.map String.toList := by
  have hopening : Page.openingTags.map String.toList =
      Page.beforeTitle.map (fun entry => entry.1.toList) ++
        (Page.beforeStyle.map (fun entry => entry.1.toList) ++
          Page.beforeQuery.map (fun entry => entry.1.toList)) := rfl
  have hclosing : Page.closingTags.map String.toList =
      Page.afterQuery.map (fun entry => entry.1.toList) := rfl
  rw [Markup.tags_eq_filterMap, pieces_page, Markup.filterMap_tag?_joinedPieces_append,
    Markup.filterMap_tag?_text_append, Markup.filterMap_tag?_joinedPieces_append,
    Markup.filterMap_tag?_text_append, Markup.filterMap_tag?_joinedPieces_append,
    List.filterMap_append, Markup.filterMap_tag?_joinedPieces, ← Markup.tags_eq_filterMap,
    hopening, hclosing, List.append_assoc, List.append_assoc, List.append_assoc]

/-- Texts with the same kinds of tokens have the same tags on their pages. -/
theorem tags_page_congr (renderer : Renderer) {text text' : String}
    (h : (tokenize text).map Token.kind = (tokenize text').map Token.kind)
    (title title' : String) :
    Markup.tags (renderer.page text title).toList =
      Markup.tags (renderer.page text' title').toList := by
  have hhighlight : ∀ text, Markup.tags (renderer.highlight text).toList =
      ((tokenize text).map Token.kind).flatMap fun kind =>
        [(renderer.openTag kind).toList, renderer.closeTag.toList] := by
    intro text
    rw [tags_highlight, List.flatMap_map]
  rw [tags_page, tags_page, hhighlight, hhighlight, h]

/-- The style element of a page: the tags before it are those of the frame, and
what stands in it holds no bracket. -/
theorem page_style (renderer : Renderer) (text title : String) :
    ∃ before style after : List Char,
      (renderer.page text title).toList =
        before ++ "<style>".toList ++ style ++ "</style>".toList ++ after ∧
      Markup.tags before = (Page.openingTags.take 6).map String.toList ∧ '<' ∉ style := by
  have hopen : (Markup.joined Page.beforeStyle).toList =
      "</title>\n".toList ++ "<style>".toList := by
    decide +kernel
  have hclose : (Markup.joined Page.beforeQuery).toList = "</style>".toList ++
      ("\n" ++ Markup.joined Page.beforeQuery.tail).toList := by
    decide +kernel
  refine ⟨(Markup.joined Page.beforeTitle).toList ++
      ((escape title).toList ++ "</title>\n".toList),
    renderer.pageStyle.toList,
    ("\n" ++ Markup.joined Page.beforeQuery.tail).toList ++
      ((renderer.highlight text).toList ++ (Markup.joined Page.afterQuery).toList),
    ?_, ?_, renderer.not_mem_pageStyle⟩
  · rw [page_eq, hopen, hclose]
    simp only [List.append_assoc]
  · rw [Markup.tags_joined_append Page.wellTagged_beforeTitle,
      Markup.tags_text_append (not_mem_escape title)]
    decide +kernel

theorem page_injective (renderer : Renderer) {text text' title title' : String}
    (h : renderer.page text title = renderer.page text' title') :
    text = text' ∧ title = title' := by
  have hlist := congrArg String.toList h
  rw [page_eq, page_eq, Page.toList_joined_beforeStyle, List.append_cancel_left_eq,
    List.cons_append, List.cons_append] at hlist
  -- Both titles end at the first bracket, so what stands behind them is the same too.
  obtain ⟨htitle, hrest⟩ :=
    append_separator_inj (not_mem_escape title) (not_mem_escape title') hlist
  simp only [List.append_cancel_left_eq, List.append_cancel_right_eq] at hrest
  refine ⟨renderer.highlight_injective (String.toList_inj.mp hrest), ?_⟩
  rw [toList_escape, toList_escape] at htitle
  rw [← unescaped_escapeChars title, htitle, unescaped_escapeChars]

/-- A page keeps its title and its query apart from the document around them.  Its
tags are those of a fixed frame, with the ones of the highlighted query in their
place, so they show of the query the kinds of its tokens and of the title nothing.
There is no bracket in its style element.  And no two titles and queries make the
same page. -/
theorem page_separates (renderer : Renderer) :
    (∀ text title : String,
        Markup.tags (renderer.page text title).toList =
          Page.openingTags.map String.toList ++
            Markup.tags (renderer.highlight text).toList ++
            Page.closingTags.map String.toList) ∧
      (∀ text text' title title' : String,
        (tokenize text).map Token.kind = (tokenize text').map Token.kind →
        Markup.tags (renderer.page text title).toList =
          Markup.tags (renderer.page text' title').toList) ∧
      (∀ text title : String, ∃ before style after : List Char,
        (renderer.page text title).toList =
          before ++ "<style>".toList ++ style ++ "</style>".toList ++ after ∧
        Markup.tags before = (Page.openingTags.take 6).map String.toList ∧ '<' ∉ style) ∧
      ∀ text text' title title' : String,
        renderer.page text title = renderer.page text' title' →
        text = text' ∧ title = title' := by
  refine ⟨renderer.tags_page, ?_, renderer.page_style, ?_⟩
  · intro text text' title title' hkinds
    exact renderer.tags_page_congr hkinds title title'
  · intro text text' title title' hpage
    exact renderer.page_injective hpage

/-- A title and a query that end the elements they stand in show no tag that an
ordinary title and query do not show, and they still make a page of their own. -/
theorem page_separates_imitation :
    (tokenize "=</div>").map Token.kind = (tokenize "=1").map Token.kind ∧
      Markup.tags (default.page "=</div>" "</title><style>").toList =
        Markup.tags (default.page "=1" "One").toList ∧
      default.page "=</div>" "</title><style>" ≠ default.page "=</div>" "</title></style>" := by
  have hkinds : (tokenize "=</div>").map Token.kind = (tokenize "=1").map Token.kind := by
    decide +kernel
  refine ⟨hkinds, (page_separates default).2.1 _ _ _ _ hkinds, ?_⟩
  intro heq
  have hsame := (page_separates default).2.2.2 _ _ _ _ heq
  exact absurd hsame.2 (by decide)

end Renderer
end QueryHighlight
