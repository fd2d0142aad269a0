/-!
# Source text by position

The lexer and the renderer both address a text by character positions, and
both may be handed positions that lie outside it.  A `Source` is the text as an
array of characters, with the two ways of looking at it that stay meaningful
for every integer:

* `get?` reads one character; a negative position counts back from the end;
* `slice` reads the characters between two positions, each moved to the
  nearest end of the text when it lies outside.

The last section holds the one loop that every search in this library is made
of.
-/

namespace QueryHighlight

/-! ## Indices -/

/-- The greatest index.  Indices are signed words of 64 bits. -/
def maxIndex : Int :=
  0x7FFFFFFFFFFFFFFF

/-- Whether an integer fits into an index. -/
def isIndex (i : Int) : Bool :=
  -(maxIndex + 1) ≤ i && i ≤ maxIndex

/-! ## Sources -/

/-- A text whose characters are addressed by position. -/
structure Source where
  /-- The characters, first to last. -/
  chars : Array Char
deriving DecidableEq

namespace Source

/-- The source that holds the characters of a string. -/
def ofString (text : String) : Source :=
  ⟨text.toList.toArray⟩

/-- The number of characters. -/
def size (source : Source) : Nat :=
  source.chars.size

@[simp] theorem size_ofString (text : String) :
    (ofString text).size = text.toList.length := by
  simp [ofString, size]

/-! ## Reading -/

/-- The character at a position, where position `-1` is the last one.
Positions at or past the end, and those before the first character, hold
nothing. -/
def get? (source : Source) (i : Int) : Option Char :=
  if 0 ≤ i then source.chars[i.toNat]?
  else if 0 ≤ i + source.size then source.chars[(i + source.size).toNat]?
  else none

/-- A position inside the text can be read. -/
theorem get?_ne_none {source : Source} {i : Int}
    (hlo : -(source.size : Int) ≤ i) (hhi : i < source.size) :
    source.get? i ≠ none := by
  have hsize : source.chars.size = source.size := rfl
  unfold get?
  split
  · rw [ne_eq, Array.getElem?_eq_none_iff]; omega
  · rw [if_pos (by omega), ne_eq, Array.getElem?_eq_none_iff]; omega

/-- A position outside the text cannot be read. -/
theorem get?_eq_none {source : Source} {i : Int}
    (h : i < -(source.size : Int) ∨ source.size ≤ i) :
    source.get? i = none := by
  have hsize : source.chars.size = source.size := rfl
  unfold get?
  split
  · rw [Array.getElem?_eq_none_iff]; omega
  · rw [if_neg (by omega)]

/-- Positions from zero on are read directly. -/
@[simp] theorem get?_natCast (source : Source) (i : Nat) :
    source.get? (i : Int) = source.chars[i]? := by
  rw [get?, if_pos (Int.natCast_nonneg i), Int.toNat_natCast]

/-- The place in the text that a position of a slice stands for: negative
positions count back from the end, and positions outside move to the nearest
end. -/
def clamp (source : Source) (i : Int) : Nat :=
  if 0 ≤ i then min i.toNat source.size
  else (i + source.size).toNat

@[simp] theorem clamp_natCast (source : Source) (i : Nat) :
    source.clamp (i : Int) = min i source.size := by
  rw [clamp, if_pos (Int.natCast_nonneg i), Int.toNat_natCast]

/-- The characters from one position up to, but not including, another; empty
when the first does not lie before the second. -/
def slice (source : Source) (start stop : Int) : String :=
  String.ofList
    (source.chars.extract (source.clamp start) (source.clamp stop)).toList

/-- Between positions from zero on, a slice is cut out of the text directly. -/
theorem toList_slice_natCast (source : Source) (i k : Nat) :
    (source.slice i k).toList = (source.chars.toList.drop i).take (k - i) := by
  have hlength : source.chars.toList.length = source.size := rfl
  simp only [slice, clamp_natCast, String.toList_ofList, Array.toList_extract,
    List.extract_eq_take_drop]
  rcases Nat.le_total i source.size with hi | hi
  · rw [Nat.min_eq_left hi, List.take_eq_take_iff, List.length_drop, hlength]
    omega
  · rw [Nat.min_eq_right hi, List.drop_eq_nil_of_le (Nat.le_of_eq hlength),
      List.drop_eq_nil_of_le (hlength ▸ hi), List.take_nil, List.take_nil]

theorem length_slice {source : Source} (i : Nat) {k : Nat} (hk : k ≤ source.size) :
    (source.slice i k).length = k - i := by
  have hlength : source.chars.toList.length = source.size := rfl
  rw [← String.length_toList, toList_slice_natCast, List.length_take, List.length_drop, hlength]
  omega

theorem getElem?_toList_slice {source : Source} {i j k : Nat} (hj : i + j < k) :
    (source.slice i k).toList[j]? = source.chars[i + j]? := by
  rw [toList_slice_natCast, List.getElem?_take_of_lt (by omega), List.getElem?_drop,
    Array.getElem?_toList]

/-! ## The source of a text -/

theorem size_ofString_eq_length (text : String) : (ofString text).size = text.length := by
  rw [size_ofString, String.length_toList]

theorem chars_ofString (text : String) (i : Nat) :
    (ofString text).chars[i]? = text.toList[i]? :=
  List.getElem?_toArray

theorem chars_zero_of_head? {text : String} {c : Char} (h : text.toList.head? = some c) :
    (ofString text).chars[0]? = some c := by
  rw [chars_ofString, ← List.head?_eq_getElem?, h]

theorem slice_ofString (text : String) :
    (ofString text).slice (0 : Nat) text.length = text := by
  apply String.toList_inj.mp
  rw [toList_slice_natCast, List.drop_zero, Nat.sub_zero]
  show List.take text.length text.toList = text.toList
  rw [List.take_of_length_le]
  exact Nat.le_of_eq String.length_toList

end Source

/-! ## Searching -/

/-- The least position from `i` on at which `p` holds, or `stop` when there is
none below it.  A search that starts at or past `stop` stays where it is. -/
def firstFrom (p : Int → Bool) (i stop : Int) : Int :=
  if i < stop then
    if p i then i else firstFrom p (i + 1) stop
  else i
termination_by (stop - i).toNat

theorem le_firstFrom (p : Int → Bool) (i stop : Int) : i ≤ firstFrom p i stop := by
  fun_induction firstFrom p i stop <;> omega

theorem firstFrom_le (p : Int → Bool) {i stop : Int} (h : i ≤ stop) :
    firstFrom p i stop ≤ stop := by
  fun_induction firstFrom p i stop <;> omega

/-- A search that ends before its bound ends where the test holds. -/
theorem firstFrom_holds {p : Int → Bool} {i stop : Int}
    (h : firstFrom p i stop < stop) : p (firstFrom p i stop) = true := by
  fun_induction firstFrom p i stop with
  | case1 i _ hp => exact hp
  | case2 i _ _ ih => exact ih h
  | case3 => omega

/-- The test fails at every position that a search passes over. -/
theorem firstFrom_fails {p : Int → Bool} {i stop k : Int}
    (hlo : i ≤ k) (hhi : k < firstFrom p i stop) : p k = false := by
  fun_induction firstFrom p i stop with
  | case1 => omega
  | case2 i _ hp ih =>
      rcases Int.lt_or_eq_of_le hlo with hlt | rfl
      · exact ih (by omega) hhi
      · simpa using hp
  | case3 => omega

namespace Source

/-- Where a search from a position begins: a negative position counts back from
the end, and stands for the first position when it reaches past it. -/
def searchStart (source : Source) (start : Int) : Int :=
  if 0 ≤ start then start else max 0 (start + source.size)

theorem searchStart_nonneg (source : Source) (start : Int) :
    0 ≤ source.searchStart start := by
  unfold searchStart
  split <;> omega

/-- The least position, from `start` on, that holds the character `c`. -/
def find? (source : Source) (c : Char) (start : Int) : Option Nat :=
  let found :=
    firstFrom (fun i => source.get? i == some c) (source.searchStart start) source.size
  if found < source.size then some found.toNat else none

/-- What a search finds is the character. -/
theorem find?_holds {source : Source} {c : Char} {start : Int} {i : Nat}
    (h : source.find? c start = some i) : source.chars[i]? = some c := by
  simp only [find?] at h
  split at h
  · next hlt =>
    have hle := le_firstFrom (fun i => source.get? i == some c)
      (source.searchStart start) source.size
    have hholds := firstFrom_holds hlt
    obtain ⟨n, hn⟩ := Int.eq_ofNat_of_zero_le
      (Int.le_trans (source.searchStart_nonneg start) hle)
    rw [hn] at h hholds
    rw [get?_natCast, beq_iff_eq] at hholds
    simp only [Int.toNat_natCast, Option.some.injEq] at h
    exact h ▸ hholds
  · simp at h

end Source
end QueryHighlight
