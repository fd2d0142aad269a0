/-!
# Character classes

A character class is a list of closed ranges of code points.  This module
holds the type, its membership test, and the one class that decides where
words end: white space.

The second class of the library, the characters that quoted text shows as
escapes, is long and has the module `QueryHighlight.Text.Printable` to
itself.
-/

namespace QueryHighlight

/-- A set of characters, given by closed ranges of code points. -/
structure CharClass where
  /-- The first and the last code point of each range. -/
  ranges : List (Nat × Nat)
deriving Repr

namespace CharClass

/-- A class holds the characters whose code point lies in one of its
ranges. -/
def contains (charClass : CharClass) (c : Char) : Bool :=
  charClass.ranges.any fun range => range.1 ≤ c.toNat && c.toNat ≤ range.2

theorem contains_iff {charClass : CharClass} {c : Char} :
    charClass.contains c = true ↔
      ∃ range ∈ charClass.ranges, range.1 ≤ c.toNat ∧ c.toNat ≤ range.2 := by
  simp [contains]

end CharClass

/-! ## White space -/

/-- The white space characters: the horizontal and vertical blanks of ASCII,
its four separators, the next-line control, and every Unicode space, line or
paragraph separator. -/
def whiteSpace : CharClass where
  ranges :=
    [(0x09, 0x0D), (0x1C, 0x20), (0x85, 0x85), (0xA0, 0xA0), (0x1680, 0x1680),
     (0x2000, 0x200A), (0x2028, 0x2029), (0x202F, 0x202F), (0x205F, 0x205F),
     (0x3000, 0x3000)]

/-- The test for white space. -/
def isSpace (c : Char) : Bool :=
  whiteSpace.contains c

/-- Every blank that the standard library knows is white space here. -/
theorem isSpace_of_isWhitespace {c : Char} (hc : c.isWhitespace = true) :
    isSpace c = true := by
  simp only [Char.isWhitespace, Bool.or_eq_true, decide_eq_true_eq] at hc
  rcases hc with ((rfl | rfl) | rfl) | rfl <;> decide

end QueryHighlight
