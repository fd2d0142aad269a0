import QueryHighlight.Token.Basic

/-!
# Stylesheets

A stylesheet has one rule for the element that holds a whole query, and one for
each kind of token.  Kinds without a style of their own have a default one, so
every class name that a renderer writes has a rule.
-/

namespace QueryHighlight

/-- The class of the element that holds a highlighted query. -/
def previewClass : String :=
  "highlight-preview"

/-- A rule of a stylesheet: the style of the elements of one class. -/
def styleRule (className style : String) : String :=
  "." ++ className ++ " \x7b " ++ style ++ " \x7d"

/-- The style of the element that holds a highlighted query. -/
def previewStyle : String :=
  "white-space: pre-wrap; word-break: break-word; font-family: monospace;"

/-- The style of a kind of token that is given no other. -/
def TokenKind.defaultStyle : TokenKind → String
  | .logicalOperator => "color: #d73a49; font-weight: bold;"
  | .key => "color: #005cc5;"
  | .value => "color: #22863a;"
  | .quote => "color: #032f62;"
  | .parenthesis => "color: #6f42c1; font-weight: bold;"
  | .equals => "color: #e36209;"
  | .text => "color: #24292e;"

/-- The styles that replace default ones, each with its kind. -/
abbrev Styles :=
  List (TokenKind × String)

/-- The style of a kind: the one given for it, or else its default. -/
def Styles.style (styles : Styles) (kind : TokenKind) : String :=
  (styles.lookup kind).getD kind.defaultStyle

/-- The rules for the preview element and for every kind of token, one to a
line. -/
def stylesheet (classPrefix : String) (styles : Styles) : String :=
  let kindRules := TokenKind.all.map fun kind =>
    styleRule (classPrefix ++ kind.label) (styles.style kind)
  String.intercalate "\n" (styleRule previewClass previewStyle :: kindRules)

end QueryHighlight
