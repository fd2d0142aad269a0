import Mathlib
import QueryHighlight.Text.Quoted

/-!
# Quoted text is unambiguous

A text in quotes shows where it ends and what it holds, whatever stands behind it,
although the delimiter is chosen by the text and escapes have several lengths.

* One character.  `readChar?` reads what is written for a character, without knowing
  the delimiter, and `Writes.readChar?_append` says that it finds the character and
  what follows.
* A whole text.  The delimiter is the first character, and behind it only the
  closing one stands without a backslash, so `encode_append_inj` follows by reading
  two quoted texts side by side.
* Nothing that is written is unprintable (`isPrintable_of_mem_encode`).
-/

namespace QueryHighlight
namespace Quoted

/-! ## Hexadecimal digits -/

/-- The number that a hexadecimal digit stands for. -/
def digitValue (c : Char) : Nat :=
  if c.isDigit then c.toNat - '0'.toNat else c.toNat - 'a'.toNat + 10

/-- The number that hexadecimal digits stand for, the highest one first. -/
def number (digits : List Char) : Nat :=
  digits.foldl (fun n c => 16 * n + digitValue c) 0

theorem digitValue_digitChar : ∀ d < 16, digitValue (Nat.digitChar d) = d := by
  decide

theorem number_concat (digits : List Char) (c : Char) :
    number (digits ++ [c]) = 16 * number digits + digitValue c := by
  rw [number, List.foldl_append]
  rfl

theorem number_hexDigits {width n : Nat} (h : n < 16 ^ width) :
    number (hexDigits width n) = n := by
  induction width generalizing n with
  | zero =>
    rw [Nat.pow_zero] at h
    obtain rfl : n = 0 := by omega
    rfl
  | succ width ih =>
    rw [Nat.pow_succ] at h
    have hdigit : n % 16 < 16 := Nat.mod_lt n (by decide)
    rw [hexDigits, number_concat, ih (by omega), digitValue_digitChar _ hdigit]
    omega

theorem isPrintable_digitChar : ∀ d < 16, isPrintable (Nat.digitChar d) = true := by
  decide +kernel

theorem isPrintable_of_mem_hexDigits {width n : Nat} {c : Char}
    (h : c ∈ hexDigits width n) : isPrintable c = true := by
  induction width generalizing n with
  | zero => exact absurd h List.not_mem_nil
  | succ width ih =>
    rw [hexDigits, List.mem_append, List.mem_singleton] at h
    rcases h with hmem | rfl
    · exact ih hmem
    · exact isPrintable_digitChar _ (Nat.mod_lt n (by decide))

/-! ## What is written for a character -/

/-- The characters that are escaped by a letter, each with its letter. -/
def letterEscapes : List (Char × Char) :=
  [('\n', 'n'), ('\r', 'r'), ('\t', 't')]

/-- The letters that announce a code point, each with its number of digits. -/
def codePointEscapes : List (Char × Nat) :=
  [('x', 2), ('u', 4), ('U', 8)]

/-- The ways of writing a character between two quotes. -/
inductive Writes (quote c : Char) : List Char → Prop where
  /-- A backslash or the quote stands behind a backslash. -/
  | self (hmarked : c = quote ∨ c = '\\') : Writes quote c ['\\', c]
  /-- Three characters have a letter. -/
  | letter {mark : Char} (hmark : (c, mark) ∈ letterEscapes) : Writes quote c ['\\', mark]
  /-- A printable character stands as it is. -/
  | plain (hquote : c ≠ quote) (hbackslash : c ≠ '\\') (hprintable : isPrintable c = true) :
      Writes quote c [c]
  /-- The code point stands in digits, enough of them to hold it. -/
  | codePoint {mark : Char} {width : Nat} (hmark : (mark, width) ∈ codePointEscapes)
      (hfits : c.toNat < 16 ^ width) :
      Writes quote c ('\\' :: mark :: hexDigits width c.toNat)

theorem writes_escapeCodePoint (quote c : Char) :
    Writes quote c (escapeCodePoint c.toNat) := by
  have hlast : c.toNat < 16 ^ 8 := c.val.toNat_lt_size
  unfold escapeCodePoint
  split
  · next hlatin => exact .codePoint (by decide) hlatin
  · split
    · next hbasic => exact .codePoint (by decide) hbasic
    · exact .codePoint (by decide) hlast

theorem writes_escapeChar (quote c : Char) : Writes quote c (escapeChar quote c) := by
  unfold escapeChar
  split
  · next hmarked => exact .self hmarked
  · next hplain =>
    rw [not_or] at hplain
    split
    · next heq => exact .letter (heq ▸ by decide)
    · split
      · next heq => exact .letter (heq ▸ by decide)
      · split
        · next heq => exact .letter (heq ▸ by decide)
        · split
          · next hprintable => exact .plain hplain.1 hplain.2 hprintable
          · exact writes_escapeCodePoint quote c

/-- The quotes that can enclose a text. -/
def delimiterChoices : List Char :=
  ['\'', '"']

theorem delimiter_mem (text : List Char) : delimiter text ∈ delimiterChoices := by
  unfold delimiter
  split <;> decide

theorem isPrintable_delimiterChoices :
    ∀ c ∈ '\\' :: delimiterChoices, isPrintable c = true := by
  rw [← List.all_eq_true]
  decide +kernel

theorem isPrintable_letterEscapes :
    ∀ entry ∈ letterEscapes, isPrintable entry.2 = true := by
  rw [← List.all_eq_true (p := fun entry : Char × Char => isPrintable entry.2)]
  decide +kernel

theorem isPrintable_codePointEscapes :
    ∀ entry ∈ codePointEscapes, isPrintable entry.1 = true := by
  rw [← List.all_eq_true (p := fun entry : Char × Nat => isPrintable entry.1)]
  decide +kernel

theorem Writes.forall_isPrintable {quote c : Char} {chars : List Char}
    (h : Writes quote c chars) (hquote : quote ∈ delimiterChoices) :
    ∀ d ∈ chars, isPrintable d = true := by
  obtain ⟨hbackslash, hdelimiter⟩ := List.forall_mem_cons.mp isPrintable_delimiterChoices
  cases h with
  | self hmarked =>
    refine List.forall_mem_cons.mpr ⟨hbackslash, List.forall_mem_singleton.mpr ?_⟩
    rcases hmarked with rfl | rfl
    · exact hdelimiter _ hquote
    · exact hbackslash
  | letter hmark =>
    refine List.forall_mem_cons.mpr ⟨hbackslash, List.forall_mem_singleton.mpr ?_⟩
    exact isPrintable_letterEscapes _ hmark
  | plain _ _ hprintable => exact List.forall_mem_singleton.mpr hprintable
  | codePoint hmark _ =>
    refine List.forall_mem_cons.mpr ⟨hbackslash, List.forall_mem_cons.mpr ?_⟩
    exact ⟨isPrintable_codePointEscapes _ hmark, fun _ => isPrintable_of_mem_hexDigits⟩

/-- Nothing that is written begins with a bare quote. -/
theorem Writes.append_ne_cons {quote c : Char} {chars : List Char} (h : Writes quote c chars)
    (hquote : quote ∈ delimiterChoices) (rest rest' : List Char) :
    chars ++ rest ≠ quote :: rest' := by
  have hbackslash : '\\' ≠ quote := by
    rintro rfl
    exact absurd hquote (by decide)
  intro heq
  cases h with
  | plain hne _ _ => exact hne (List.head_eq_of_cons_eq heq)
  | _ => exact hbackslash (List.head_eq_of_cons_eq heq)

/-! ## Reading a character -/

/-- The character whose code point stands at the front of a text in `width` digits, and
what comes after it. -/
def readCodePoint (width : Nat) (text : List Char) : Char × List Char :=
  (Char.ofNat (number (text.take width)), text.drop width)

/-- The character that an escape names, read behind its backslash, and what comes after
it. -/
def readEscape? : List Char → Option (Char × List Char)
  | [] => none
  | 'n' :: rest => some ('\n', rest)
  | 'r' :: rest => some ('\r', rest)
  | 't' :: rest => some ('\t', rest)
  | 'x' :: rest => some (readCodePoint 2 rest)
  | 'u' :: rest => some (readCodePoint 4 rest)
  | 'U' :: rest => some (readCodePoint 8 rest)
  | c :: rest => some (c, rest)

/-- The character that is written at the front of a text, and what comes after it. -/
def readChar? : List Char → Option (Char × List Char)
  | [] => none
  | c :: rest => if c = '\\' then readEscape? rest else some (c, rest)

theorem readEscape?_self {quote c : Char} (hquote : quote ∈ delimiterChoices)
    (hmarked : c = quote ∨ c = '\\') (rest : List Char) :
    readEscape? (c :: rest) = some (c, rest) := by
  simp only [delimiterChoices, List.mem_cons, List.not_mem_nil, or_false] at hquote
  rcases hmarked with rfl | rfl
  · rcases hquote with rfl | rfl <;> rfl
  · rfl

theorem readEscape?_letter {c mark : Char} (hmark : (c, mark) ∈ letterEscapes)
    (rest : List Char) : readEscape? (mark :: rest) = some (c, rest) := by
  simp only [letterEscapes, List.mem_cons, List.not_mem_nil, or_false, Prod.mk.injEq] at hmark
  rcases hmark with ⟨rfl, rfl⟩ | ⟨rfl, rfl⟩ | ⟨rfl, rfl⟩ <;> rfl

theorem readEscape?_codePoint {mark : Char} {width : Nat}
    (hmark : (mark, width) ∈ codePointEscapes) (rest : List Char) :
    readEscape? (mark :: rest) = some (readCodePoint width rest) := by
  simp only [codePointEscapes, List.mem_cons, List.not_mem_nil, or_false, Prod.mk.injEq]
    at hmark
  rcases hmark with ⟨rfl, rfl⟩ | ⟨rfl, rfl⟩ | ⟨rfl, rfl⟩ <;> rfl

theorem readCodePoint_hexDigits {width : Nat} {c : Char} (h : c.toNat < 16 ^ width)
    (rest : List Char) :
    readCodePoint width (hexDigits width c.toNat ++ rest) = (c, rest) := by
  have hlength := length_hexDigits width c.toNat
  rw [readCodePoint, List.take_left' hlength, List.drop_left' hlength, number_hexDigits h,
    Char.ofNat_toNat]

/-- What is written for a character is read as that character, whatever follows it. -/
theorem Writes.readChar?_append {quote c : Char} {chars : List Char}
    (h : Writes quote c chars) (hquote : quote ∈ delimiterChoices) (rest : List Char) :
    readChar? (chars ++ rest) = some (c, rest) := by
  cases h with
  | self hmarked => exact readEscape?_self hquote hmarked rest
  | letter hmark => exact readEscape?_letter hmark rest
  | plain _ hbackslash _ => exact if_neg hbackslash
  | codePoint hmark hfits =>
    exact (readEscape?_codePoint hmark _).trans
      (congrArg some (readCodePoint_hexDigits hfits rest))

/-! ## Quoted texts side by side -/

theorem escaped_append_inj {quote : Char} (hquote : quote ∈ delimiterChoices)
    {a b rest rest' : List Char}
    (h : a.flatMap (escapeChar quote) ++ quote :: rest =
      b.flatMap (escapeChar quote) ++ quote :: rest') :
    a = b ∧ rest = rest' := by
  induction a generalizing b with
  | nil =>
    cases b with
    | nil => exact ⟨rfl, List.tail_eq_of_cons_eq h⟩
    | cons d b =>
      rw [List.flatMap_cons, List.append_assoc] at h
      exact absurd h.symm ((writes_escapeChar quote d).append_ne_cons hquote _ _)
  | cons c a ih =>
    rw [List.flatMap_cons, List.append_assoc] at h
    cases b with
    | nil => exact absurd h ((writes_escapeChar quote c).append_ne_cons hquote _ _)
    | cons d b =>
      rw [List.flatMap_cons, List.append_assoc] at h
      have hread := congrArg readChar? h
      rw [(writes_escapeChar quote c).readChar?_append hquote,
        (writes_escapeChar quote d).readChar?_append hquote, Option.some.injEq,
        Prod.mk.injEq] at hread
      obtain ⟨rfl, hrest⟩ := hread
      obtain ⟨rfl, rfl⟩ := ih hrest
      exact ⟨rfl, rfl⟩

theorem encode_append (text rest : List Char) :
    encode text ++ rest = delimiter text ::
      (text.flatMap (escapeChar (delimiter text)) ++ delimiter text :: rest) := by
  simp [encode]

/-- A quoted text shows what it holds and where it ends, whatever stands behind it. -/
theorem encode_append_inj {a b rest rest' : List Char}
    (h : encode a ++ rest = encode b ++ rest') : a = b ∧ rest = rest' := by
  rw [encode_append, encode_append] at h
  obtain ⟨hquote, hrest⟩ := List.cons.inj h
  rw [← hquote] at hrest
  exact escaped_append_inj (delimiter_mem a) hrest

/-- Nothing in a quoted text is unprintable. -/
theorem isPrintable_of_mem_encode {text : List Char} {c : Char} (h : c ∈ encode text) :
    isPrintable c = true := by
  have hquote := delimiter_mem text
  have hdelimiter : isPrintable (delimiter text) = true :=
    isPrintable_delimiterChoices _ (List.mem_cons_of_mem _ hquote)
  rw [encode, List.mem_cons, List.mem_append, List.mem_singleton, List.mem_flatMap] at h
  rcases h with rfl | ⟨d, _, hmem⟩ | rfl
  · exact hdelimiter
  · exact (writes_escapeChar _ d).forall_isPrintable hquote c hmem
  · exact hdelimiter

end Quoted
end QueryHighlight
