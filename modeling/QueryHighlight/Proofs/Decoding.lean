import QueryHighlight.Proofs.Layout

/-!
# Renderings can be decoded

A rendering holds no positions, and the text in it may look like markup itself.
Still the text and all its tokens can be read back from it, by a reader that
knows no more than the renderer's two words (`Renderer.read?`).

The reader cuts the markup at its tags (`Markup.segments`).  Tags come in pairs,
the first of which names a kind, so the characters behind them are contents and
gaps by turns: the cells of a layout.  Their lengths give the positions.

`readElements?_piecesFrom` follows the renderer over tokens that are placed in
a source, and `Renderer.render_decodable` is the result.
-/

namespace QueryHighlight

/-! ## A reader of renderings -/

namespace Markup

/-- The characters before the first tag, and each tag with the characters behind
it. -/
def segments : List Piece → List Char × List (List Char × List Char)
  | [] => ([], [])
  | .char c :: rest =>
    match segments rest with
    | (before, tagged) => (c :: before, tagged)
  | .tag tag :: rest =>
    match segments rest with
    | (before, tagged) => ([], (tag, before) :: tagged)

theorem segments_chars (text : List Char) (rest : List Piece) :
    segments (text.map .char ++ rest) = (text ++ (segments rest).1, (segments rest).2) := by
  induction text with
  | nil => rfl
  | cons c text ih =>
    rw [List.map_cons, List.cons_append, segments, ih]
    rfl

/-- The segments of an element and the text around it. -/
theorem segments_element (before first content second : List Char) (rest : List Piece) :
    segments (before.map .char ++
        .tag first :: (content.map .char ++ .tag second :: rest)) =
      (before, (first, content) :: (second, (segments rest).1) :: (segments rest).2) := by
  rw [segments_chars, segments, segments_chars, segments, List.append_nil, List.append_nil]

end Markup

/-- The text that escaped characters stand for. -/
def unescaped (chars : List Char) : String :=
  String.ofList (unescape chars)

theorem unescaped_escapeChars (text : String) : unescaped (escapeChars text.toList) = text := by
  rw [unescaped, unescape_escapeChars, String.ofList_toList]

namespace Renderer

/-- The kind of the tokens whose elements a tag opens. -/
def kindOf? (renderer : Renderer) (tag : List Char) : Option TokenKind :=
  TokenKind.all.find? fun kind => (renderer.openTag kind).toList == tag

/-- The lexemes of elements, each with the text behind its element. -/
def readElements? (renderer : Renderer) :
    List (List Char × List Char) → Option (List (Lexeme × String))
  | [] => some []
  | [_] => none
  | (first, content) :: (second, gap) :: rest => do
    let kind ← renderer.kindOf? first
    guard (second = renderer.closeTag.toList)
    let cells ← renderer.readElements? rest
    some ((⟨kind, unescaped content⟩, unescaped gap) :: cells)

/-- The text and the tokens that a markup shows. -/
def read? (renderer : Renderer) (markup : String) : Option (String × List Token) :=
  match Markup.segments (Markup.pieces markup.toList) with
  | (before, tagged) =>
    (renderer.readElements? tagged).map fun cells =>
      (unescaped before ++ printed cells, placed (unescaped before).length cells)

/-! ## Reading a rendering -/

theorem className_injective (renderer : Renderer) {a b : TokenKind}
    (h : renderer.className a = renderer.className b) : a = b := by
  have hlist := congrArg String.toList h
  simp only [className, String.toList_append, List.append_cancel_left_eq] at hlist
  exact TokenKind.label_injective (String.toList_inj.mp hlist)

theorem openTag_injective (renderer : Renderer) {a b : TokenKind}
    (h : renderer.openTag a = renderer.openTag b) : a = b := by
  have hlist := congrArg String.toList h
  simp only [openTag, String.toList_append, List.append_assoc,
    List.append_cancel_left_eq, List.append_cancel_right_eq] at hlist
  exact renderer.className_injective (String.toList_inj.mp hlist)

theorem kindOf?_openTag (renderer : Renderer) (kind : TokenKind) :
    renderer.kindOf? (renderer.openTag kind).toList = some kind := by
  unfold kindOf?
  cases hfind : TokenKind.all.find? fun other =>
      (renderer.openTag other).toList == (renderer.openTag kind).toList with
  | none => simpa using List.find?_eq_none.mp hfind kind (TokenKind.mem_all kind)
  | some other =>
    have htag := List.find?_some (p := fun other =>
      (renderer.openTag other).toList == (renderer.openTag kind).toList) hfind
    rw [renderer.openTag_injective (String.toList_inj.mp (beq_iff_eq.mp htag))]

/-- The segments of the markup for placed tokens: the gap before the first one,
and elements that are read as the cells of the tokens. -/
theorem readElements?_piecesFrom (renderer : Renderer) {source : Source} {last : Nat}
    {tokens : List Token} (h : source.Placed last tokens) :
    ∃ tagged, Markup.segments (renderer.piecesFrom source last tokens) =
        (escapeChars (source.slice last (source.nextStart tokens)).toList, tagged) ∧
      renderer.readElements? tagged = some (source.cells tokens) := by
  induction h with
  | @nil last hlast =>
    refine ⟨[], ?_, rfl⟩
    have hchars := Markup.segments_chars (escapeChars (source.between last source.size)) []
    rw [List.append_nil, Markup.segments, List.append_nil] at hchars
    rw [piecesFrom, hchars, Source.between_natCast hlast]
    rfl
  | @cons last i k kind rest hi _ _ ih =>
    obtain ⟨tagged, hsegments, hread⟩ := ih
    have helement := Markup.segments_element (escapeChars (source.slice last i).toList)
      (renderer.openTag kind).toList (escapeChars (source.slice i k).toList)
      renderer.closeTag.toList (renderer.piecesFrom source k rest)
    rw [hsegments] at helement
    refine ⟨_, (congrArg Markup.segments ?_).trans helement, ?_⟩
    · rw [piecesFrom, Source.between_natCast hi]
    · rw [readElements?, kindOf?_openTag, hread, unescaped_escapeChars, unescaped_escapeChars]
      simp [guard, Source.cells, Token.lexeme]

theorem read?_eq (renderer : Renderer) {markup : String} {before : List Char}
    {tagged : List (List Char × List Char)}
    (h : Markup.segments (Markup.pieces markup.toList) = (before, tagged)) :
    renderer.read? markup = (renderer.readElements? tagged).map fun cells =>
      (unescaped before ++ printed cells, placed (unescaped before).length cells) := by
  rw [read?, h]

/-- A rendering of placed tokens is read back as the text and the tokens. -/
theorem read?_render (renderer : Renderer) {text : String} {tokens : List Token}
    (h : (Source.ofString text).Placed 0 tokens) :
    renderer.read? (renderer.render text tokens) = some (text, tokens) := by
  obtain ⟨tagged, hsegments, hread⟩ := renderer.readElements?_piecesFrom h
  have hmarkup : Markup.segments (Markup.pieces (renderer.render text tokens).toList) =
      (escapeChars ((Source.ofString text).lead tokens).toList, tagged) :=
    (congrArg Markup.segments (renderer.pieces_renderSource _ tokens)).trans hsegments
  rw [renderer.read?_eq hmarkup, hread, Option.map_some, unescaped_escapeChars,
    lead_append_printed h, placed_lead h]

/-- A rendering of placed tokens can be decoded, by a reader that depends on the
renderer's two words only: it gives back the text and the tokens, with their
kinds and positions.  So it is the rendering of no other text and tokens, and a
highlighted text shows all that the lexer found in it. -/
theorem render_decodable (renderer : Renderer) :
    (∀ (text : String) (tokens : List Token), (Source.ofString text).Placed 0 tokens →
        renderer.read? (renderer.render text tokens) = some (text, tokens)) ∧
      (∀ (text text' : String) (tokens tokens' : List Token),
        (Source.ofString text).Placed 0 tokens → (Source.ofString text').Placed 0 tokens' →
        renderer.render text tokens = renderer.render text' tokens' →
        text = text' ∧ tokens = tokens') ∧
      ∀ text text' : String, renderer.highlight text = renderer.highlight text' →
        text = text' ∧ tokenize text = tokenize text' := by
  have hinjective : ∀ (text text' : String) (tokens tokens' : List Token),
      (Source.ofString text).Placed 0 tokens → (Source.ofString text').Placed 0 tokens' →
      renderer.render text tokens = renderer.render text' tokens' →
      text = text' ∧ tokens = tokens' := by
    intro text text' tokens tokens' hplaced hplaced' heq
    have hread := renderer.read?_render hplaced
    rw [heq, renderer.read?_render hplaced', Option.some.injEq, Prod.mk.injEq] at hread
    exact ⟨hread.1.symm, hread.2.symm⟩
  refine ⟨fun text tokens => renderer.read?_render, hinjective, ?_⟩
  intro text text' heq
  exact hinjective text text' _ _ ((Source.ofString text).reads_tokens.placed 0 (Nat.le_refl 0))
    ((Source.ofString text').reads_tokens.placed 0 (Nat.le_refl 0)) heq

/-- A text that looks like markup. -/
def markupText : String :=
  "<b>&lt;</span>"

/-- Some of its spans, empty ones and neighbours among them. -/
def markupTokens : List Token :=
  [⟨.value, "", 0, 0⟩, ⟨.key, "<b>", 0, 3⟩, ⟨.text, "", 3, 3⟩, ⟨.value, "lt;<", 4, 8⟩]

theorem render_decodable_markup :
    (Source.ofString markupText).Placed 0 markupTokens ∧
      default.read? (default.render markupText markupTokens) =
        some (markupText, markupTokens) ∧
      default.render markupText markupTokens ≠ default.render markupText [] := by
  have hplaced : (Source.ofString markupText).Placed 0 markupTokens := by decide +kernel
  refine ⟨hplaced, (render_decodable default).1 markupText markupTokens hplaced, fun heq => ?_⟩
  have hsame := (render_decodable default).2.1 markupText markupText markupTokens [] hplaced
    (.nil (Nat.zero_le _)) heq
  exact List.cons_ne_nil _ _ hsame.2

end Renderer
end QueryHighlight
