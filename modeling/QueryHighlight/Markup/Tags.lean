/-!
# Taking markup apart

A tag is an opening bracket, one or more characters that are no closing
bracket, and a closing bracket.  `pieces` splits markup, from left to right,
into its tags and the characters outside them; `tags` and `withoutTags` are the
two halves of that view.
-/

namespace QueryHighlight
namespace Markup

/-- A piece of markup. -/
inductive Piece where
  /-- A tag, both brackets included. -/
  | tag (chars : List Char)
  /-- A character outside every tag. -/
  | char (c : Char)
deriving DecidableEq, Repr

/-- The rest of the tag that starts right before a text, and what comes after
it, if the text does continue a tag. -/
def splitTag? (text : List Char) : Option (List Char × List Char) :=
  match text.takeWhile (· != '>'), text.dropWhile (· != '>') with
  | body, close :: rest => if body = [] then none else some (body ++ [close], rest)
  | _, [] => none

theorem length_lt_of_splitTag? {text body rest : List Char}
    (h : splitTag? text = some (body, rest)) : rest.length < text.length := by
  have hle := (List.dropWhile_suffix (· != '>') (l := text)).length_le
  unfold splitTag? at h
  split at h
  · next hdrop =>
    split at h
    · simp at h
    · simp only [Option.some.injEq, Prod.mk.injEq] at h
      rw [hdrop, h.2, List.length_cons] at hle
      omega
  · simp at h

/-- The pieces of a text, in order. -/
def pieces : List Char → List Piece
  | [] => []
  | c :: text =>
    if c = '<' then
      match _hsplit : splitTag? text with
      | some (body, rest) => .tag (c :: body) :: pieces rest
      | none => .char c :: pieces text
    else .char c :: pieces text
termination_by text => text.length
decreasing_by
  · have := length_lt_of_splitTag? _hsplit
    simp only [List.length_cons]; omega
  · simp
  · simp

/-- The tags of a text, in order. -/
def tags (text : List Char) : List (List Char) :=
  (pieces text).filterMap fun
    | .tag chars => some chars
    | .char _ => none

/-- The text with every tag deleted. -/
def withoutTags (text : List Char) : List Char :=
  (pieces text).filterMap fun
    | .tag _ => none
    | .char c => some c

end Markup
end QueryHighlight
