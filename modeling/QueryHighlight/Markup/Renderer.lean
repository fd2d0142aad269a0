import QueryHighlight.Lexer.Tokenize
import QueryHighlight.Markup.Escape
import QueryHighlight.Text.Quoted

/-!
# Rendering

A renderer writes a text as markup: each token becomes an element whose class
names the token's kind, and what lies between tokens is copied.  Both are
escaped, so the only tags in the result are those of the elements.

The renderer's own two words, the element name and the start of every class
name, are written without escaping.  They are checked when a renderer is made,
and the checks are part of its type.

A token list is taken as it is.  The gap before a token is what lies between
the end of the token before and its own start, in the sense of `Source.slice`,
and there is none unless the first comes before the second.
-/

namespace QueryHighlight

/-! ## Renderers -/

/-- An element name: an ASCII letter, then ASCII letters, digits and hyphens. -/
def isElementName (word : String) : Bool :=
  match word.toList with
  | [] => false
  | c :: rest => c.isAlpha && rest.all fun c => c.isAlphanum || c == '-'

/-- The start of a class name: any ASCII letters, digits, underscores and
hyphens. -/
def isClassPrefix (word : String) : Bool :=
  word.toList.all fun c => c.isAlphanum || c == '_' || c == '-'

/-- What is wrapped around tokens. -/
structure Renderer where
  /-- The name of the element around each token. -/
  element : String
  /-- What stands before the kind of a token in a class name. -/
  classPrefix : String
  /-- The element name is written without escaping, so it must be one. -/
  element_valid : isElementName element = true
  /-- The same holds for the start of the class name. -/
  classPrefix_valid : isClassPrefix classPrefix = true

/-- Why there is no renderer with given words. -/
inductive RendererFault where
  /-- The first word is no element name. -/
  | element (word : String)
  /-- The second word cannot start a class name. -/
  | classPrefix (word : String)
deriving DecidableEq, Repr

/-- The words for a refusal. -/
def RendererFault.message : RendererFault → String
  | .element word => "invalid element name: " ++ quoted word
  | .classPrefix word => "invalid class prefix: " ++ quoted word

namespace Renderer

/-- The element name that is used when none is asked for. -/
def defaultElement : String :=
  "span"

/-- The start of class names that is used when none is asked for. -/
def defaultClassPrefix : String :=
  "token-"

/-- The renderer with the given words, or the first of them that is not
valid. -/
def ofWords (element classPrefix : String) : Except RendererFault Renderer :=
  if helement : isElementName element = true then
    if hprefix : isClassPrefix classPrefix = true then
      .ok ⟨element, classPrefix, helement, hprefix⟩
    else .error (.classPrefix classPrefix)
  else .error (.element element)

/-- The words of a renderer are valid, and they make this renderer. -/
theorem ofWords_self (renderer : Renderer) :
    ofWords renderer.element renderer.classPrefix = .ok renderer := by
  rw [ofWords, dif_pos renderer.element_valid, dif_pos renderer.classPrefix_valid]

/-- The renderer that is used when none is asked for. -/
def default : Renderer where
  element := defaultElement
  classPrefix := defaultClassPrefix
  element_valid := by decide +kernel
  classPrefix_valid := by decide +kernel

/-! ## Markup -/

/-- The class name for a kind of token. -/
def className (renderer : Renderer) (kind : TokenKind) : String :=
  renderer.classPrefix ++ kind.label

/-- The tag before a token's content. -/
def openTag (renderer : Renderer) (kind : TokenKind) : String :=
  "<" ++ renderer.element ++ " class=\"" ++ renderer.className kind ++ "\">"

/-- The tag after a token's content. -/
def closeTag (renderer : Renderer) : String :=
  "</" ++ renderer.element ++ ">"

/-- The element for a token. -/
def wrap (renderer : Renderer) (token : Token) : String :=
  renderer.openTag token.kind ++ escape token.content ++ renderer.closeTag

end Renderer

/-- The text between two positions, escaped; nothing unless the first lies
before the second. -/
def Source.gap (source : Source) (last start : Int) : String :=
  if last < start then escape (source.slice last start) else ""

/-- Markup that is being written. -/
structure Rendering where
  /-- What has been written. -/
  markup : String
  /-- The position after the last token written. -/
  last : Int

namespace Renderer

/-- Writes the gap before a token, and the token. -/
def append (renderer : Renderer) (source : Source) (done : Rendering)
    (token : Token) : Rendering where
  markup := done.markup ++ source.gap done.last token.start ++ renderer.wrap token
  last := token.stop

/-- The markup for a source with given tokens. -/
def renderSource (renderer : Renderer) (source : Source) (tokens : List Token) :
    String :=
  let done := tokens.foldl (renderer.append source) ⟨"", 0⟩
  done.markup ++ source.gap done.last source.size

/-- The markup for a text with given tokens. -/
def render (renderer : Renderer) (text : String) (tokens : List Token) : String :=
  renderer.renderSource (Source.ofString text) tokens

/-- The markup for a text with its own tokens. -/
def highlight (renderer : Renderer) (text : String) : String :=
  renderer.render text (tokenize text)

end Renderer
end QueryHighlight
