import QueryHighlight.Text.Printable

/-!
# Quoted text

Messages and token listings show a text inside quotes.  The rule has three
parts:

* the delimiter is a single quote, unless the text holds a single quote and no
  double quote;
* a backslash, the delimiter, a newline, a carriage return and a tab are
  written as two characters;
* any other character that is not printable is written by its code point, in
  the shortest of three fixed widths of hexadecimal digits.

Every escape starts with a backslash and no bare backslash is written, so the
quoted text shows where it ends and what it holds.
-/

namespace QueryHighlight
namespace Quoted

/-- The last `width` hexadecimal digits of a number, highest first, in lower
case. -/
def hexDigits : (width : Nat) → (n : Nat) → List Char
  | 0, _ => []
  | width + 1, n => hexDigits width (n / 16) ++ [Nat.digitChar (n % 16)]

theorem length_hexDigits (width n : Nat) : (hexDigits width n).length = width := by
  induction width generalizing n with
  | zero => rfl
  | succ width ih => simp [hexDigits, ih]

/-- The quote that encloses a text. -/
def delimiter (text : List Char) : Char :=
  if text.contains '\'' && !text.contains '"' then '"' else '\''

/-- The escape that names a character by its code point. -/
def escapeCodePoint (n : Nat) : List Char :=
  if n < 0x100 then '\\' :: 'x' :: hexDigits 2 n
  else if n < 0x10000 then '\\' :: 'u' :: hexDigits 4 n
  else '\\' :: 'U' :: hexDigits 8 n

/-- One character as it stands between the quotes. -/
def escapeChar (delimiter c : Char) : List Char :=
  if c = delimiter ∨ c = '\\' then ['\\', c]
  else if c = '\n' then ['\\', 'n']
  else if c = '\r' then ['\\', 'r']
  else if c = '\t' then ['\\', 't']
  else if isPrintable c then [c]
  else escapeCodePoint c.toNat

/-- The characters of a quoted text, both quotes included. -/
def encode (text : List Char) : List Char :=
  let quote := delimiter text
  quote :: (text.flatMap (escapeChar quote) ++ [quote])

end Quoted

/-- A text in quotes, with every character that would be misread escaped. -/
def quoted (text : String) : String :=
  String.ofList (Quoted.encode text.toList)

end QueryHighlight
