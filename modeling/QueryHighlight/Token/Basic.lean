import QueryHighlight.Text.Source

/-!
# Tokens

A token is a classified span of a query: its kind, the characters it covers,
and the half-open range of positions where they stand.  Positions are integers
because a token list handed to the renderer is taken as it is, whatever its
spans are.

Each kind has two names.  Its label is written into markup and is the word by
which requests name it; its constant is what a token listing shows.
-/

namespace QueryHighlight

/-! ## Kinds -/

/-- The classes of tokens. -/
inductive TokenKind where
  /-- One of the words that combine conditions. -/
  | logicalOperator
  /-- The text before an equals sign. -/
  | key
  /-- Reserved for the text after an equals sign; the lexer makes none. -/
  | value
  /-- A quoted literal, quotes included. -/
  | quote
  /-- A single parenthesis. -/
  | parenthesis
  /-- An equals sign. -/
  | equals
  /-- A run of other characters. -/
  | text
deriving DecidableEq, Repr

namespace TokenKind

/-- Every kind, in the order in which styles and listings name them. -/
def all : List TokenKind :=
  [.logicalOperator, .key, .value, .quote, .parenthesis, .equals, .text]

/-- The word for a kind in markup and in requests. -/
def label : TokenKind → String
  | .logicalOperator => "logical-operator"
  | .key => "key"
  | .value => "value"
  | .quote => "quote"
  | .parenthesis => "parenthesis"
  | .equals => "equals"
  | .text => "text"

/-- The word for a kind in a token listing. -/
def constant : TokenKind → String
  | .logicalOperator => "LOGICAL_OPERATOR"
  | .key => "KEY"
  | .value => "VALUE"
  | .quote => "QUOTE"
  | .parenthesis => "PARENTHESIS"
  | .equals => "EQUALS"
  | .text => "TEXT"

/-- The kind with a given label. -/
def ofLabel? (label : String) : Option TokenKind :=
  all.find? fun kind => kind.label == label

theorem mem_all (kind : TokenKind) : kind ∈ all := by
  cases kind <;> decide

theorem ofLabel?_label (kind : TokenKind) : ofLabel? kind.label = some kind := by
  cases kind <;> decide

/-- A label names one kind. -/
theorem label_injective {a b : TokenKind} (h : a.label = b.label) : a = b := by
  have hkind := ofLabel?_label a
  rw [h, ofLabel?_label b] at hkind
  exact (Option.some.inj hkind).symm

end TokenKind

/-! ## Tokens -/

/-- A classified span of a text. -/
structure Token where
  /-- The class of the token. -/
  kind : TokenKind
  /-- The characters of the token. -/
  content : String
  /-- The position of its first character. -/
  start : Int
  /-- The position after its last character. -/
  stop : Int
deriving DecidableEq, Repr

/-- Why a question about a token, or a change to it, is refused. -/
inductive TokenFault where
  /-- The span ends before it starts, so it has no length. -/
  | negativeLength
  /-- The length of the span does not fit into an index. -/
  | lengthOverflow
  /-- The field cannot be changed. -/
  | readOnly (field : String)
deriving DecidableEq, Repr

/-- The words for a refusal. -/
def TokenFault.message : TokenFault → String
  | .negativeLength => "__len__() should return >= 0"
  | .lengthOverflow => "cannot fit 'int' into an index-sized integer"
  | .readOnly field => "cannot assign to field '" ++ field ++ "'"

namespace Token

/-- The length of the span.  It is refused when the span ends before it
starts, and when the length does not fit into an index. -/
def length (token : Token) : Except TokenFault Nat :=
  let span := token.stop - token.start
  if span < 0 then .error .negativeLength
  else if !isIndex span then .error .lengthOverflow
  else .ok span.toNat

/-- A token is never changed: setting any of its fields is refused. -/
def setField (_token : Token) (field : String) : Except TokenFault Token :=
  .error (.readOnly field)

/-- Whether a quoted literal lacks its closing quote: it is a lone quote, it
ends in another character than it starts with, or its last quote is escaped. -/
def isUnterminated (token : Token) : Bool :=
  let chars := token.content.toList
  token.kind == .quote &&
    (chars.length ≤ 1 || chars.getLast? != chars.head? ||
      chars.dropLast.getLast? == some '\\')

end Token
end QueryHighlight
