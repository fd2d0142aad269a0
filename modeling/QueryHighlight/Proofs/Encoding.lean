import Mathlib.Tactic.SplitIfs
import QueryHighlight.Command.Reply

/-!
# Bytes and the query they hold

A query comes as bytes.  They are read as UTF-8, and then every line end is made a
newline.  The program reads them in one pass, and on the way it keeps what an error
message may need.  This module says which bytes hold which query without any of
that, and proves that the program reads the query they hold.

* `Utf8.Spells` is the table of well-formed byte sequences: for one to four bytes,
  the ranges they lie in and the number they stand for.  `decodeChar` reads what the
  table says (`spells_of_decodeChar`, `decodeChar_of_spells`), and so does the
  encoder of characters (`spells_utf8EncodeChar`, `utf8EncodeChar_of_spells`).
* `Utf8.encode` writes a text character by character.  `Utf8.decode` accepts what it
  writes and nothing else (`Utf8.decode_eq_ok_iff`).
* `LinesUnified` relates a text to the one where each line ends with a newline.
* `Holds` puts the two together, and `decodeQuery_eq_ok_iff` is the result.
-/

namespace QueryHighlight
namespace Utf8

/-! ## Byte sequences of one character -/

/-- A byte that continues a character. -/
def Continues (byte : UInt8) : Prop :=
  0x80 ≤ byte.toNat ∧ byte.toNat ≤ 0xBF

/-- A byte sequence stands for the number of a character.  The sequence is the
shortest one for its number, and no surrogate is spelled. -/
inductive Spells : List UInt8 → Nat → Prop where
  | one {a : UInt8} (ha : a.toNat < 0x80) : Spells [a] a.toNat
  | two {a b : UInt8} (hlo : 0xC2 ≤ a.toNat) (hhi : a.toNat < 0xE0) (hb : Continues b) :
      Spells [a, b] ((a.toNat - 0xC0) * 64 + (b.toNat - 0x80))
  | three {a b c : UInt8} (hlo : 0xE0 ≤ a.toNat) (hhi : a.toNat < 0xF0) (hb : Continues b)
      (hc : Continues c) (hlong : a.toNat = 0xE0 → 0xA0 ≤ b.toNat)
      (hsurrogate : a.toNat = 0xED → b.toNat ≤ 0x9F) :
      Spells [a, b, c]
        (((a.toNat - 0xE0) * 64 + (b.toNat - 0x80)) * 64 + (c.toNat - 0x80))
  | four {a b c d : UInt8} (hlo : 0xF0 ≤ a.toNat) (hhi : a.toNat < 0xF5) (hb : Continues b)
      (hc : Continues c) (hd : Continues d) (hlong : a.toNat = 0xF0 → 0x90 ≤ b.toNat)
      (hlast : a.toNat = 0xF4 → b.toNat ≤ 0x8F) :
      Spells [a, b, c, d]
        ((((a.toNat - 0xF0) * 64 + (b.toNat - 0x80)) * 64 + (c.toNat - 0x80)) * 64 +
          (d.toNat - 0x80))

theorem Spells.of_eq {bytes : List UInt8} {n m : Nat} (h : Spells bytes n) (hn : n = m) :
    Spells bytes m :=
  hn ▸ h

/-! ## What a first byte announces -/

theorem announce_one {a : UInt8} (h : a.toNat < 0x80) :
    announce a = some ⟨0, 0x80, 0xBF, a.toNat⟩ := by
  rw [announce, if_pos (UInt8.lt_iff_toNat_lt.mpr h)]

theorem announce_two {a : UInt8} (hlo : 0xC2 ≤ a.toNat) (hhi : a.toNat < 0xE0) :
    announce a = some ⟨1, 0x80, 0xBF, a.toNat - 0xC0⟩ := by
  simp only [announce, UInt8.lt_iff_toNat_lt]
  rw [if_neg (by simp; omega), if_neg (by simp; omega), if_pos (by simp; omega)]

theorem announce_three {a : UInt8} (hlo : 0xE0 ≤ a.toNat) (hhi : a.toNat < 0xF0) :
    announce a = some ⟨2, if a.toNat = 0xE0 then 0xA0 else 0x80,
      if a.toNat = 0xED then 0x9F else 0xBF, a.toNat - 0xE0⟩ := by
  simp only [announce, UInt8.lt_iff_toNat_lt, ← UInt8.toNat_inj]
  rw [if_neg (by simp; omega), if_neg (by simp; omega), if_neg (by simp; omega),
    if_pos (by simp; omega)]
  rfl

theorem announce_four {a : UInt8} (hlo : 0xF0 ≤ a.toNat) (hhi : a.toNat < 0xF5) :
    announce a = some ⟨3, if a.toNat = 0xF0 then 0x90 else 0x80,
      if a.toNat = 0xF4 then 0x8F else 0xBF, a.toNat - 0xF0⟩ := by
  simp only [announce, UInt8.lt_iff_toNat_lt, ← UInt8.toNat_inj]
  rw [if_neg (by simp; omega), if_neg (by simp; omega), if_neg (by simp; omega),
    if_neg (by simp; omega), if_pos (by simp; omega)]
  rfl

theorem announce_eq_none {a : UInt8}
    (h : 0x80 ≤ a.toNat ∧ a.toNat < 0xC2 ∨ 0xF5 ≤ a.toNat) : announce a = none := by
  simp only [announce, UInt8.lt_iff_toNat_lt]
  rw [if_neg (by simp; omega)]
  by_cases hlo : a.toNat < 0xC2
  · rw [if_pos (by simpa using hlo)]
  · rw [if_neg (by simp; omega), if_neg (by simp; omega), if_neg (by simp; omega),
      if_neg (by simp; omega)]

theorem toNat_ite_le_iff {p : Prop} [Decidable p] {a b : UInt8} {n : Nat} :
    (if p then a else b).toNat ≤ n ↔ (p → a.toNat ≤ n) ∧ (¬p → b.toNat ≤ n) := by
  by_cases hp : p <;> simp [hp]

theorem le_toNat_ite_iff {p : Prop} [Decidable p] {a b : UInt8} {n : Nat} :
    n ≤ (if p then a else b).toNat ↔ (p → n ≤ a.toNat) ∧ (¬p → n ≤ b.toNat) := by
  by_cases hp : p <;> simp [hp]

/-! ## Reading one character -/

theorem continueWith_zero_iff {least greatest : UInt8} {bits read point : Nat}
    {bytes rest : List UInt8} :
    continueWith 0 least greatest bits read bytes = .ok (point, rest) ↔
      point = bits ∧ bytes = rest := by
  simp [continueWith, eq_comm]

theorem continueWith_succ_iff {due : Nat} {least greatest : UInt8} {bits read point : Nat}
    {bytes rest : List UInt8} :
    continueWith (due + 1) least greatest bits read bytes = .ok (point, rest) ↔
      ∃ byte tail, bytes = byte :: tail ∧
        (least.toNat ≤ byte.toNat ∧ byte.toNat ≤ greatest.toNat) ∧
        continueWith due 0x80 0xBF (bits * 64 + (byte.toNat - 0x80)) (read + 1) tail =
          .ok (point, rest) := by
  simp only [← UInt8.le_iff_toNat_le]
  cases bytes with
  | nil =>
    constructor
    · intro h
      simp [continueWith] at h
    · intro h
      obtain ⟨_, _, h, _⟩ := h
      exact absurd h.symm (List.cons_ne_nil _ _)
  | cons byte tail =>
    constructor
    · intro h
      rw [continueWith] at h
      split at h
      · next hfits => exact ⟨byte, tail, rfl, hfits, h⟩
      · simp at h
    · intro h
      obtain ⟨_, _, hcons, hfits, hrest⟩ := h
      obtain ⟨rfl, rfl⟩ := List.cons.inj hcons
      rw [continueWith, if_pos hfits]
      exact hrest

theorem decodeChar_of_announce {lead : UInt8} {bytes rest : List UInt8} {pending : Pending}
    {point : Nat} (h : announce lead = some pending)
    (hread : continueWith pending.due pending.least pending.greatest pending.bits 0 bytes =
      .ok (point, rest)) :
    decodeChar lead bytes = .ok ⟨Char.ofNat point, pending.due + 1, rest⟩ := by
  rw [decodeChar, h]
  simp only [hread]

theorem continueWith_of_decodeChar {lead : UInt8} {bytes : List UInt8} {pending : Pending}
    {decoded : Decoded} (h : announce lead = some pending)
    (hread : decodeChar lead bytes = .ok decoded) :
    ∃ point, decoded.char = Char.ofNat point ∧
      continueWith pending.due pending.least pending.greatest pending.bits 0 bytes =
        .ok (point, decoded.rest) := by
  rw [decodeChar, h] at hread
  dsimp only at hread
  split at hread
  · simp at hread
  · next point rest hcontinue =>
    rw [Except.ok.injEq] at hread
    rw [← hread]
    exact ⟨point, rfl, hcontinue⟩

/-- What is read from the front of an input is spelled there. -/
theorem spells_of_decodeChar {lead : UInt8} {bytes : List UInt8} {decoded : Decoded}
    (h : decodeChar lead bytes = .ok decoded) :
    ∃ tail point, bytes = tail ++ decoded.rest ∧ Spells (lead :: tail) point ∧
      decoded.char = Char.ofNat point := by
  -- The cases are the rows of `announce`.
  by_cases hnone : 0x80 ≤ lead.toNat ∧ lead.toNat < 0xC2 ∨ 0xF5 ≤ lead.toNat
  · rw [decodeChar, announce_eq_none hnone] at h
    simp at h
  by_cases hone : lead.toNat < 0x80
  · obtain ⟨point, hchar, hread⟩ := continueWith_of_decodeChar (announce_one hone) h
    simp only [continueWith_zero_iff] at hread
    obtain ⟨hpoint, hrest⟩ := hread
    exact ⟨[], point, hrest, hpoint ▸ .one hone, hchar⟩
  by_cases htwo : lead.toNat < 0xE0
  · obtain ⟨point, hchar, hread⟩ := continueWith_of_decodeChar (announce_two (by omega) htwo) h
    simp only [continueWith_succ_iff, continueWith_zero_iff] at hread
    obtain ⟨b, _, hbytes, hb, hpoint, hrest⟩ := hread
    rw [hrest] at hbytes
    exact ⟨[b], point, hbytes, hpoint ▸ .two (by omega) htwo hb, hchar⟩
  by_cases hthree : lead.toNat < 0xF0
  · obtain ⟨point, hchar, hread⟩ :=
      continueWith_of_decodeChar (announce_three (by omega) hthree) h
    simp only [continueWith_succ_iff, continueWith_zero_iff] at hread
    obtain ⟨b, _, hbytes, hb, c, _, htail, hc, hpoint, hrest⟩ := hread
    simp only [toNat_ite_le_iff, le_toNat_ite_iff, UInt8.reduceToNat] at hb
    rw [htail, hrest] at hbytes
    refine ⟨[b, c], point, hbytes, ?_, hchar⟩
    rw [hpoint]
    exact .three (by omega) hthree ⟨by omega, by omega⟩ hc (by omega) (by omega)
  · obtain ⟨point, hchar, hread⟩ :=
      continueWith_of_decodeChar (announce_four (by omega) (by omega)) h
    simp only [continueWith_succ_iff, continueWith_zero_iff] at hread
    obtain ⟨b, _, hbytes, hb, c, _, htail, hc, d, _, htail', hd, hpoint, hrest⟩ := hread
    simp only [toNat_ite_le_iff, le_toNat_ite_iff, UInt8.reduceToNat] at hb
    rw [htail, htail', hrest] at hbytes
    refine ⟨[b, c, d], point, hbytes, ?_, hchar⟩
    rw [hpoint]
    exact .four (by omega) (by omega) ⟨by omega, by omega⟩ hc hd (by omega) (by omega)

/-- What is spelled at the front of an input is read, whatever follows it. -/
theorem decodeChar_of_spells {lead : UInt8} {tail : List UInt8} {point : Nat}
    (h : Spells (lead :: tail) point) (rest : List UInt8) :
    decodeChar lead (tail ++ rest) = .ok ⟨Char.ofNat point, tail.length + 1, rest⟩ := by
  cases h with
  | one ha =>
    exact decodeChar_of_announce (announce_one ha) (continueWith_zero_iff.mpr ⟨rfl, rfl⟩)
  | two hlo hhi hb =>
    refine decodeChar_of_announce (announce_two hlo hhi) ?_
    simp only [continueWith_succ_iff, continueWith_zero_iff]
    exact ⟨_, _, rfl, hb, rfl, rfl⟩
  | three hlo hhi hb hc hlong hsurrogate =>
    refine decodeChar_of_announce (announce_three hlo hhi) ?_
    simp only [continueWith_succ_iff, continueWith_zero_iff, toNat_ite_le_iff,
      le_toNat_ite_iff, UInt8.reduceToNat]
    obtain ⟨hb, hb'⟩ := hb
    exact ⟨_, _, rfl, by omega, _, _, rfl, hc, rfl, rfl⟩
  | four hlo hhi hb hc hd hlong hlast =>
    refine decodeChar_of_announce (announce_four hlo hhi) ?_
    simp only [continueWith_succ_iff, continueWith_zero_iff, toNat_ite_le_iff,
      le_toNat_ite_iff, UInt8.reduceToNat]
    obtain ⟨hb, hb'⟩ := hb
    exact ⟨_, _, rfl, by omega, _, _, rfl, hc, _, _, rfl, hd, rfl, rfl⟩

/-! ## Writing one character -/

/-- The bytes of a character are in the table. -/
theorem spells_utf8EncodeChar (c : Char) : Spells (String.utf8EncodeChar c) c.toNat := by
  have hvalid : c.val.toNat < 0xD800 ∨ 0xDFFF < c.val.toNat ∧ c.val.toNat < 0x110000 :=
    c.valid
  show Spells (String.utf8EncodeChar c) c.val.toNat
  unfold String.utf8EncodeChar
  dsimp only
  generalize c.val.toNat = v at hvalid ⊢
  split_ifs with h1 h2 h3
  · refine Spells.of_eq (.one ?_) ?_ <;>
      simp only [UInt8.toNat_ofNat'] <;> omega
  · refine Spells.of_eq (.two ?_ ?_ ⟨?_, ?_⟩) ?_ <;>
      simp only [UInt8.toNat_ofNat'] <;> omega
  · refine Spells.of_eq (.three ?_ ?_ ⟨?_, ?_⟩ ⟨?_, ?_⟩ ?_ ?_) ?_ <;>
      simp only [UInt8.toNat_ofNat'] <;> omega
  · refine Spells.of_eq (.four ?_ ?_ ⟨?_, ?_⟩ ⟨?_, ?_⟩ ⟨?_, ?_⟩ ?_ ?_) ?_ <;>
      simp only [UInt8.toNat_ofNat'] <;> omega

theorem exists_char {n : Nat} (h : n < 0xD800 ∨ 0xDFFF < n ∧ n < 0x110000) :
    ∃ c : Char, c.val.toNat = n :=
  ⟨Char.ofNatAux n h, rfl⟩

/-- What the table spells is a character, and its bytes are the encoder's. -/
theorem utf8EncodeChar_of_spells {bytes : List UInt8} {point : Nat} (h : Spells bytes point) :
    ∃ c : Char, c.toNat = point ∧ String.utf8EncodeChar c = bytes := by
  -- The bounds on the first two bytes leave one branch of the encoder in each case.
  cases h with
  | @one a ha =>
    obtain ⟨c, hc⟩ := exists_char (n := a.toNat) (by omega)
    refine ⟨c, hc, ?_⟩
    simp only [String.utf8EncodeChar, hc]
    rw [if_pos (by omega), UInt8.ofNat_toNat]
  | @two a b hlo hhi hb =>
    obtain ⟨hb, hb'⟩ := hb
    obtain ⟨c, hc⟩ := exists_char
      (n := (a.toNat - 0xC0) * 64 + (b.toNat - 0x80)) (by omega)
    refine ⟨c, hc, ?_⟩
    simp only [String.utf8EncodeChar]
    rw [if_neg (by omega), if_pos (by omega)]
    simp only [← UInt8.toNat_inj, List.cons.injEq, and_true, UInt8.toNat_ofNat', hc]
    exact ⟨by omega, by omega⟩
  | @three a b c hlo hhi hb hc hlong hsurrogate =>
    obtain ⟨hb, hb'⟩ := hb
    obtain ⟨hc, hc'⟩ := hc
    obtain ⟨char, hchar⟩ := exists_char
      (n := ((a.toNat - 0xE0) * 64 + (b.toNat - 0x80)) * 64 + (c.toNat - 0x80)) (by omega)
    refine ⟨char, hchar, ?_⟩
    simp only [String.utf8EncodeChar]
    rw [if_neg (by omega), if_neg (by omega), if_pos (by omega)]
    simp only [← UInt8.toNat_inj, List.cons.injEq, and_true, UInt8.toNat_ofNat', hchar]
    exact ⟨by omega, by omega, by omega⟩
  | @four a b c d hlo hhi hb hc hd hlong hlast =>
    obtain ⟨hb, hb'⟩ := hb
    obtain ⟨hc, hc'⟩ := hc
    obtain ⟨hd, hd'⟩ := hd
    obtain ⟨char, hchar⟩ := exists_char
      (n := (((a.toNat - 0xF0) * 64 + (b.toNat - 0x80)) * 64 + (c.toNat - 0x80)) * 64 +
        (d.toNat - 0x80)) (by omega)
    refine ⟨char, hchar, ?_⟩
    simp only [String.utf8EncodeChar]
    rw [if_neg (by omega), if_neg (by omega), if_neg (by omega)]
    simp only [← UInt8.toNat_inj, List.cons.injEq, and_true, UInt8.toNat_ofNat', hchar]
    exact ⟨by omega, by omega, by omega, by omega⟩

/-! ## Whole texts -/

/-- The bytes of a text. -/
def encode (chars : List Char) : List UInt8 :=
  chars.flatMap String.utf8EncodeChar

/-- The bytes of a character are read as that character. -/
theorem decodeChar_utf8EncodeChar (c : Char) :
    ∃ lead tail, String.utf8EncodeChar c = lead :: tail ∧ ∀ rest,
      decodeChar lead (tail ++ rest) = .ok ⟨c, tail.length + 1, rest⟩ := by
  have hspells := spells_utf8EncodeChar c
  cases hbytes : String.utf8EncodeChar c with
  | nil =>
    rw [hbytes] at hspells
    cases hspells
  | cons lead tail =>
    rw [hbytes] at hspells
    refine ⟨lead, tail, rfl, fun rest => ?_⟩
    rw [decodeChar_of_spells hspells, Char.ofNat_toNat]

/-- A character is read where its bytes stand and nowhere else. -/
theorem encode_eq_cons_iff {chars : List Char} {lead : UInt8} {bytes : List UInt8} :
    encode chars = lead :: bytes ↔
      ∃ decoded rest, decodeChar lead bytes = .ok decoded ∧ encode rest = decoded.rest ∧
        chars = decoded.char :: rest := by
  constructor
  · intro h
    cases chars with
    | nil => exact absurd h.symm (List.cons_ne_nil _ _)
    | cons c rest =>
      obtain ⟨first, tail, hchar, hread⟩ := decodeChar_utf8EncodeChar c
      rw [encode, List.flatMap_cons, hchar, List.cons_append, List.cons.injEq] at h
      obtain ⟨rfl, rfl⟩ := h
      exact ⟨_, rest, hread (encode rest), rfl, rfl⟩
  · intro h
    obtain ⟨decoded, rest, hread, hrest, rfl⟩ := h
    obtain ⟨tail, point, rfl, hspells, hchar⟩ := spells_of_decodeChar hread
    obtain ⟨c, rfl, hbytes⟩ := utf8EncodeChar_of_spells hspells
    rw [hchar, Char.ofNat_toNat, encode, List.flatMap_cons, hbytes, ← encode, hrest]
    rfl

theorem decodeOnto_eq_ok_iff {position : Nat} {done chars : List Char} {bytes : List UInt8} :
    decodeOnto position done bytes = .ok chars ↔
      ∃ more, encode more = bytes ∧ chars = done.reverse ++ more := by
  fun_induction decodeOnto position done bytes with
  | case1 position done =>
    constructor
    · intro h
      exact ⟨[], rfl, by simpa using h.symm⟩
    · intro h
      obtain ⟨more, hmore, rfl⟩ := h
      cases more with
      | nil => rw [List.append_nil]
      | cons c more =>
        obtain ⟨lead, tail, hchar, _⟩ := decodeChar_utf8EncodeChar c
        rw [encode, List.flatMap_cons, hchar] at hmore
        exact absurd hmore (List.cons_ne_nil _ _)
  | case2 position done lead bytes stopped hread =>
    constructor
    · intro h
      exact absurd h (by simp)
    · intro h
      obtain ⟨more, hmore, _⟩ := h
      obtain ⟨decoded, _, hok, _⟩ := encode_eq_cons_iff.mp hmore
      rw [hread] at hok
      exact absurd hok (by simp)
  | case3 position done lead bytes decoded hread ih =>
    rw [ih]
    constructor
    · intro h
      obtain ⟨more, hmore, hchars⟩ := h
      refine ⟨decoded.char :: more, ?_, ?_⟩
      · exact encode_eq_cons_iff.mpr ⟨decoded, more, hread, hmore, rfl⟩
      · rw [hchars, List.reverse_cons, List.append_assoc]
        rfl
    · intro h
      obtain ⟨more, hmore, hchars⟩ := h
      obtain ⟨decoded', more, hread', hrest, rfl⟩ := encode_eq_cons_iff.mp hmore
      rw [hread, Except.ok.injEq] at hread'
      obtain rfl := hread'
      refine ⟨more, hrest, ?_⟩
      rw [hchars, List.reverse_cons, List.append_assoc]
      rfl

/-- The decoder accepts the bytes of a text, and no other bytes. -/
theorem decode_eq_ok_iff {bytes : List UInt8} {chars : List Char} :
    decode bytes = .ok chars ↔ encode chars = bytes := by
  rw [decode, decodeOnto_eq_ok_iff]
  constructor
  · intro h
    obtain ⟨more, hmore, rfl⟩ := h
    exact hmore
  · intro h
    exact ⟨chars, h, rfl⟩

end Utf8

/-! ## Line ends -/

/-- The second text is the first one with each line end turned into a newline. -/
inductive LinesUnified : List Char → List Char → Prop where
  | nil : LinesUnified [] []
  /-- A carriage return and a newline end one line. -/
  | pair {raw text : List Char} (h : LinesUnified raw text) :
      LinesUnified ('\r' :: '\n' :: raw) ('\n' :: text)
  /-- So does a carriage return without a newline behind it. -/
  | alone {raw text : List Char} (hnext : raw.head? ≠ some '\n') (h : LinesUnified raw text) :
      LinesUnified ('\r' :: raw) ('\n' :: text)
  /-- Every other character stays. -/
  | keep {c : Char} {raw text : List Char} (hc : c ≠ '\r') (h : LinesUnified raw text) :
      LinesUnified (c :: raw) (c :: text)

theorem linesUnified_unifyNewlines (raw : List Char) :
    LinesUnified raw (unifyNewlines raw) := by
  induction hlength : raw.length using Nat.strongRecOn generalizing raw with
  | ind n ih =>
    cases raw with
    | nil => exact .nil
    | cons c raw =>
      rw [List.length_cons] at hlength
      have hraw := ih raw.length (by omega) raw rfl
      by_cases hc : c = '\r'
      · subst hc
        by_cases hnext : raw.head? = some '\n'
        · obtain ⟨rest, rfl⟩ := List.head?_eq_some_iff.mp hnext
          rw [List.length_cons] at hlength
          rw [unifyNewlines_pair]
          exact .pair (ih rest.length (by omega) rest rfl)
        · rw [unifyNewlines_return hnext]
          exact .alone hnext hraw
      · rw [unifyNewlines_cons hc]
        exact .keep hc hraw

theorem LinesUnified.unifyNewlines_eq {raw text : List Char} (h : LinesUnified raw text) :
    unifyNewlines raw = text := by
  induction h with
  | nil => rfl
  | pair _ ih => rw [unifyNewlines_pair, ih]
  | alone hnext _ ih => rw [unifyNewlines_return hnext, ih]
  | keep hc _ ih => rw [unifyNewlines_cons hc, ih]

theorem linesUnified_iff {raw text : List Char} :
    LinesUnified raw text ↔ unifyNewlines raw = text := by
  constructor
  · exact LinesUnified.unifyNewlines_eq
  · intro h
    exact h ▸ linesUnified_unifyNewlines raw

theorem exists_linesUnified (raw : List Char) :
    ∃ query : String, LinesUnified raw query.toList := by
  refine ⟨String.ofList (unifyNewlines raw), ?_⟩
  rw [String.toList_ofList]
  exact linesUnified_unifyNewlines raw

/-! ## Queries -/

/-- Bytes hold a query: they are the bytes of a text whose line ends are newlines in
the query. -/
def Holds (bytes : List UInt8) (query : String) : Prop :=
  ∃ raw, Utf8.encode raw = bytes ∧ LinesUnified raw query.toList

/-- The query that is read is the one that the bytes hold. -/
theorem decodeQuery_eq_ok_iff {input : Input} {bytes : List UInt8} {query : String} :
    decodeQuery input bytes = .ok query ↔ Holds bytes query := by
  unfold decodeQuery Holds
  cases hread : Utf8.decode bytes with
  | error fault =>
    constructor
    · intro h
      exact absurd h (by simp)
    · intro h
      obtain ⟨raw, hraw, _⟩ := h
      rw [Utf8.decode_eq_ok_iff.mpr hraw] at hread
      exact absurd hread (by simp)
  | ok chars =>
    dsimp only
    rw [Except.ok.injEq, ← String.toList_inj, String.toList_ofList]
    constructor
    · intro h
      exact ⟨chars, Utf8.decode_eq_ok_iff.mp hread, linesUnified_iff.mpr h⟩
    · intro h
      obtain ⟨raw, hraw, hlines⟩ := h
      rw [Utf8.decode_eq_ok_iff.mpr hraw, Except.ok.injEq] at hread
      exact hread ▸ hlines.unifyNewlines_eq

theorem decodeQuery_of_fault {input : Input} {bytes : List UInt8} {fault : Utf8.Fault}
    (h : Utf8.decode bytes = .error fault) :
    decodeQuery input bytes = .error (.notUtf8 input fault) := by
  rw [decodeQuery, h]

/-- Bytes hold a query unless the decoder finds a fault in them. -/
theorem holds_or_fault (bytes : List UInt8) :
    (∃ query, Holds bytes query) ∨ ∃ fault, Utf8.decode bytes = .error fault := by
  cases hread : Utf8.decode bytes with
  | error fault => exact Or.inr ⟨fault, rfl⟩
  | ok chars =>
    obtain ⟨query, hlines⟩ := exists_linesUnified chars
    exact Or.inl ⟨query, chars, Utf8.decode_eq_ok_iff.mp hread, hlines⟩

end QueryHighlight
