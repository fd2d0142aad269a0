import QueryHighlight.Proofs.Printing
import QueryHighlight.Proofs.Relocation
import QueryHighlight.Proofs.RoundTrip

/-!
# The layout of a text

A text is white space, and then the contents of its tokens, each with the white
space behind it.  White space can be exchanged, and the tokens are the same; only
between two tokens it matters whether there is any, and an open literal takes in
all that follows it.

* Placed tokens as cells.  `Source.cells` takes tokens apart into lexemes and
  gaps; printing the cells gives the source back (`Placed.append_printed`), and
  placing them gives the tokens back (`Placed.placed_cells`).
* Two layouts.  `Relaid` compares them cell by cell.  Of the text behind a gap
  the rules see no more than `Source.StartsLike` says, so a token of one layout
  is a token of the other (`TokenAt.relaid`, by `TokenAt.relocate`).
* Cells that are read as their lexemes.  `readBehind_cons_iff` splits off the
  first of them, and `Relaid.readBehind` is the induction over the cells.
  `tokenize_relaid` is the result for texts.
-/

namespace QueryHighlight

/-! ## Tokens and the gaps between them -/

namespace Source

variable {source : Source} {i k last : Nat} {tokens : List Token}

/-- Where the first of some tokens starts; if there is none, the end of the
source. -/
def nextStart (source : Source) (tokens : List Token) : Int :=
  (tokens.head?.map Token.start).getD source.size

/-- What stands before the first of some tokens. -/
def lead (source : Source) (tokens : List Token) : String :=
  source.slice (0 : Nat) (source.nextStart tokens)

/-- The tokens without their places, each with what stands between it and the
next one. -/
def cells (source : Source) : List Token → List (Lexeme × String)
  | [] => []
  | token :: rest =>
    (token.lexeme, source.slice token.stop (source.nextStart rest)) :: source.cells rest

theorem cells_lexemes (source : Source) (tokens : List Token) :
    (source.cells tokens).map Prod.fst = tokens.map Token.lexeme := by
  induction tokens with
  | nil => rfl
  | cons token tokens ih => rw [cells, List.map_cons, List.map_cons, ih]

theorem placed_cons_iff {token : Token} {rest : List Token} :
    source.Placed last (token :: rest) ↔
      (last : Int) ≤ token.start ∧ token.start ≤ token.stop ∧
        token.content = source.slice token.start token.stop ∧
        source.Placed token.stop.toNat rest := by
  constructor
  · intro h
    cases h with
    | cons hi hik hrest => exact ⟨Int.ofNat_le.mpr hi, Int.ofNat_le.mpr hik, rfl, hrest⟩
  · obtain ⟨kind, content, start, stop⟩ := token
    rintro ⟨hi, hik, hcontent, hrest⟩
    obtain ⟨i, rfl⟩ := Int.eq_ofNat_of_zero_le (Int.le_trans (Int.natCast_nonneg last) hi)
    obtain ⟨k, rfl⟩ := Int.eq_ofNat_of_zero_le (Int.le_trans (Int.natCast_nonneg i) hik)
    obtain rfl : content = source.slice i k := hcontent
    exact .cons (Int.ofNat_le.mp hi) (Int.ofNat_le.mp hik) hrest

/-- Whether tokens are placed is found out one by one. -/
def decidePlaced (source : Source) :
    (last : Nat) → (tokens : List Token) → Decidable (source.Placed last tokens)
  | last, [] =>
    if hlast : last ≤ source.size then isTrue (.nil hlast)
    else isFalse fun | .nil hle => hlast hle
  | _, token :: rest =>
    have := decidePlaced source token.stop.toNat rest
    decidable_of_iff _ placed_cons_iff.symm

instance (source : Source) (last : Nat) (tokens : List Token) :
    Decidable (source.Placed last tokens) :=
  source.decidePlaced last tokens

theorem Placed.last_le_size (h : source.Placed last tokens) : last ≤ source.size := by
  induction h with
  | nil hlast => exact hlast
  | cons hi hik _ ih => exact Nat.le_trans (Nat.le_trans hi hik) ih

/-- A source with placed tokens is what comes before the first token, and then
each token with its gap. -/
theorem Placed.append_printed (h : source.Placed last tokens) :
    (source.slice last (source.nextStart tokens)).toList ++
      (printed (source.cells tokens)).toList = source.chars.toList.drop last := by
  induction h with
  | @nil last hlast =>
    show (source.slice last source.size).toList ++ "".toList = _
    rw [← slice_append_drop hlast, show source.chars.toList.drop source.size = [] from
      List.drop_length, String.toList_empty]
  | @cons last i k kind rest hi hik _ ih =>
    show (source.slice last i).toList ++
      (source.slice i k ++ (source.slice k (source.nextStart rest) ++
        printed (source.cells rest))).toList = _
    rw [String.toList_append, String.toList_append, ih, slice_append_drop hik,
      slice_append_drop hi]

theorem Placed.nextStart_eq (h : source.Placed last tokens) :
    source.nextStart tokens =
      (last + (source.slice last (source.nextStart tokens)).length : Nat) := by
  cases h with
  | nil hlast =>
    show (source.size : Int) = (last + (source.slice last source.size).length : Nat)
    rw [length_slice last (Nat.le_refl _), Nat.add_sub_cancel' hlast]
  | @cons _ i k kind rest hi hik hrest =>
    show (i : Int) = (last + (source.slice last i).length : Nat)
    rw [length_slice last (Nat.le_trans hik hrest.last_le_size), Nat.add_sub_cancel' hi]

/-- Placed tokens stand where their cells are put. -/
theorem Placed.placed_cells (h : source.Placed last tokens) :
    placed (last + (source.slice last (source.nextStart tokens)).length)
      (source.cells tokens) = tokens := by
  induction h with
  | nil => rfl
  | @cons last i k kind rest hi hik hrest ih =>
    have hk := hrest.last_le_size
    show placed (last + (source.slice last i).length)
      ((⟨kind, source.slice i k⟩, source.slice k (source.nextStart rest)) ::
        source.cells rest) = _
    rw [length_slice last (Nat.le_trans hik hk), Nat.add_sub_cancel' hi, placed,
      length_slice i hk, ← Nat.add_assoc, Nat.add_sub_cancel' hik, ih]

end Source

/-! ## Other white space -/

/-- A literal that lacks its closing quote, wherever it stands. -/
def Lexeme.isUnterminated (lexeme : Lexeme) : Bool :=
  Token.isUnterminated ⟨lexeme.kind, lexeme.content, 0, 0⟩

/-- The same lexemes with other white space behind them.  Between two lexemes
there is some if there was some before, and behind an open literal there is
none. -/
inductive Relaid : List (Lexeme × String) → List (Lexeme × String) → Prop where
  | nil : Relaid [] []
  | cons {lexeme : Lexeme} {gap gap' : String} {cells cells' : List (Lexeme × String)}
      (hspace : gap'.toList.all isSpace = true)
      (hinner : cells ≠ [] → (gap' = "" ↔ gap = ""))
      (hlast : cells = [] → lexeme.isUnterminated = true → gap' = "")
      (hrest : Relaid cells cells') :
      Relaid ((lexeme, gap) :: cells) ((lexeme, gap') :: cells')

theorem relaid_cons_iff {a b : Lexeme × String} {cells cells' : List (Lexeme × String)} :
    Relaid (a :: cells) (b :: cells') ↔
      b.1 = a.1 ∧ b.2.toList.all isSpace = true ∧ (cells ≠ [] → (b.2 = "" ↔ a.2 = "")) ∧
        (cells = [] → a.1.isUnterminated = true → b.2 = "") ∧ Relaid cells cells' := by
  constructor
  · intro h
    cases h with
    | cons hspace hinner hlast hrest => exact ⟨rfl, hspace, hinner, hlast, hrest⟩
  · obtain ⟨lexeme, gap⟩ := a
    obtain ⟨lexeme', gap'⟩ := b
    rintro ⟨heq, hspace, hinner, hlast, hrest⟩
    obtain rfl : lexeme' = lexeme := heq
    exact .cons hspace hinner hlast hrest

/-- Layouts are compared cell by cell. -/
def decideRelaid : (cells cells' : List (Lexeme × String)) → Decidable (Relaid cells cells')
  | [], [] => isTrue .nil
  | [], _ :: _ => isFalse nofun
  | _ :: _, [] => isFalse nofun
  | _ :: cells, _ :: cells' =>
    have := decideRelaid cells cells'
    decidable_of_iff _ relaid_cons_iff.symm

instance (cells cells' : List (Lexeme × String)) : Decidable (Relaid cells cells') :=
  decideRelaid cells cells'

namespace Source

variable {source front front' content space space' rest rest' : Source}
variable {i k : Nat} {kind : TokenKind} {tokens : List Token}

/-- What is read from a position on starts behind white space. -/
theorem Reads.blank_of_lt (h : source.Reads i tokens) :
    ∀ j : Nat, i ≤ j → (j : Int) < source.nextStart tokens → source.Blank j := by
  induction h with
  | done =>
    intro j hj hlt
    exact absurd hlt (Int.not_lt.mpr (Int.ofNat_le.mpr hj))
  | @blank i tokens hblank _ ih =>
    intro j hj hlt
    rcases Nat.eq_or_lt_of_le hj with rfl | hij
    · exact hblank
    · exact ih j hij hlt
  | @token i k kind tokens _ _ _ =>
    intro j hj hlt
    exact absurd hlt (Int.not_lt.mpr (Int.ofNat_le.mpr hj))

theorem size_eq_zero_iff : source.size = 0 ↔ source.chars[0]? = none :=
  Nat.le_zero.symm.trans Array.getElem?_eq_none_iff.symm

/-- The gap in front of a reading is white space. -/
theorem Reads.allBlank (h : (front ++ (space ++ rest)).Reads front.size tokens)
    (hnext : (front ++ (space ++ rest)).nextStart tokens = (front ++ space).size) :
    space.AllBlank := by
  intro j hj
  have hblank := h.blank_of_lt (front.size + j) (Nat.le_add_right _ _) (by
    rw [hnext, size_append]
    omega)
  exact (blank_before hj).mp (blank_behind.mp hblank)

theorem openBefore_of_content (front : Source) (hpos : 0 < content.size) :
    (front ++ content).OpenBefore (front ++ content).size ↔
      content.OpenBefore content.size := by
  rw [size_append, openBefore_behind]
  exact and_iff_left fun hzero => absurd hzero (Nat.ne_of_gt hpos)

theorem AllBlank.openBefore (hspace : space.AllBlank) : space.OpenBefore space.size := by
  rcases Nat.eq_zero_or_pos space.size with hzero | hpos
  · exact Or.inl hzero
  · exact Or.inr (hspace _ (Nat.sub_lt hpos Nat.one_pos))

/-- Before what stands behind a token and a gap it is open if the gap is not
empty, or else if the token ends openly. -/
theorem openBefore_behind_gap (hpos : 0 < content.size) (hspace : space.AllBlank) :
    (front ++ content ++ space).OpenBefore (front ++ content ++ space).size ↔
      space.size ≠ 0 ∨ content.OpenBefore content.size := by
  rcases Nat.eq_zero_or_pos space.size with hzero | hspos
  · have hsize : (front ++ content ++ space).size = (front ++ content).size := by
      rw [size_append, hzero, Nat.add_zero]
    rw [hsize, openBefore_before (Nat.le_refl _), openBefore_of_content front hpos]
    exact (or_iff_right (not_not.mpr hzero)).symm
  · refine iff_of_true ?_ (Or.inl (Nat.ne_of_gt hspos))
    exact (openBefore_of_content _ hspos).mpr hspace.openBefore

/-- What stands behind a gap: the two sources start with the same visible character,
if with any, and the second has no equals sign unless the first has one. -/
structure StartsLike (rest rest' : Source) : Prop where
  chars_eq : rest.chars[0]? = rest'.chars[0]?
  not_blank : ¬rest.Blank 0
  not_equalsAt : (∀ q, ¬rest.EqualsAt q) → ∀ q, ¬rest'.EqualsAt q

theorem StartsLike.size_eq_zero_iff (h : StartsLike rest rest') :
    rest.size = 0 ↔ rest'.size = 0 := by
  rw [Source.size_eq_zero_iff, Source.size_eq_zero_iff, h.chars_eq]

theorem equalsAt_behind_gap {j : Nat} :
    (front ++ (content ++ (space ++ rest))).EqualsAt
        (front.size + (content.size + (space.size + j))) ↔ rest.EqualsAt j :=
  equalsAt_behind.trans (equalsAt_behind.trans equalsAt_behind)

/-- The equals sign of a key is the first visible character behind it. -/
theorem TokenAt.equalsAt_of_key
    (h : (front ++ (content ++ (space ++ rest))).TokenAt front.size .key
      (front.size + content.size))
    (hspace : space.AllBlank) (hvisible : ¬rest.Blank 0) : rest.EqualsAt 0 := by
  obtain ⟨q, hq, hequals, hblank⟩ := h.key_blanks
  obtain ⟨m, rfl⟩ := Nat.exists_eq_add_of_le hq
  rw [Nat.add_assoc] at hequals
  rcases Nat.lt_or_ge m space.size with hlt | hge
  · have hgap : space.EqualsAt m :=
      (equalsAt_before hlt).mp (equalsAt_behind.mp (equalsAt_behind.mp hequals))
    exact absurd hgap (hspace m hlt).not_equalsAt
  · obtain ⟨d, rfl⟩ := Nat.exists_eq_add_of_le hge
    rcases Nat.eq_zero_or_pos d with rfl | hpos
    · exact equalsAt_behind_gap.mp hequals
    · have hfirst := hblank (front.size + (content.size + (space.size + 0))) (by omega)
        (by omega)
      rw [blank_behind, blank_behind, blank_behind] at hfirst
      exact absurd hfirst hvisible

section Gaps

/-! Two texts that differ in the gap behind `content`, and in what they have in
front of it and behind that gap. -/

variable (hbefore : front.OpenBefore front.size ↔ front'.OpenBefore front'.size)
  (hspace : space.AllBlank) (hspace' : space'.AllBlank)
  (hempty : rest.size ≠ 0 → (space'.size = 0 ↔ space.size = 0))
  (hrest : StartsLike rest rest')

include hbefore hspace hspace' hempty hrest

/-- The span of `content` looks the same in both. -/
theorem alike_of_space :
    Alike (front ++ (content ++ (space ++ rest))) (front' ++ (content ++ (space' ++ rest')))
      front.size front'.size content.size := by
  refine ⟨?_, ?_, ?_⟩
  · intro j hj
    rw [chars_behind, chars_behind, chars_before hj, chars_before hj]
  · rw [openBefore_before (Nat.le_refl _), openBefore_before (Nat.le_refl _), hbefore]
  · rw [openAt_behind, openAt_behind, chars_behind, chars_behind]
    by_cases hopen : space.size = 0 → rest.size = 0
    · refine Or.inl ⟨openAt_of_space hspace hopen, openAt_of_space hspace' fun hzero => ?_⟩
      rw [← hrest.size_eq_zero_iff]
      by_contra hne
      exact hne (hopen ((hempty hne).mp hzero))
    · -- The gap is empty, and it stays so.
      rw [Classical.not_imp] at hopen
      have hzero : space.size + 0 = 0 := hopen.1
      have hzero' : space'.size + 0 = 0 := (hempty hopen.2).mpr hopen.1
      right
      have hchar := chars_behind space rest 0
      have hchar' := chars_behind space' rest' 0
      rw [hzero] at hchar
      rw [hzero'] at hchar'
      rw [← Nat.add_zero content.size, chars_behind, chars_behind, hchar, hchar',
        hrest.chars_eq]

/-- The token that `content` is in the first text, it is in the second one. -/
theorem TokenAt.relaid
    (h : (front ++ (content ++ (space ++ rest))).TokenAt front.size kind
      (front.size + content.size))
    (hlast : rest.size = 0 → kind = .quote →
      ¬(front ++ (content ++ (space ++ rest))).ClosedAt front.size → space'.size = 0) :
    (front' ++ (content ++ (space' ++ rest'))).TokenAt front'.size kind
      (front'.size + content.size) := by
  refine h.relocate (alike_of_space hbefore hspace hspace' hempty hrest) ?_ ?_ ?_
  · rintro rfl
    by_cases hclosed : (front ++ (content ++ (space ++ rest))).ClosedAt front.size
    · exact Or.inl hclosed
    · have hstop := h.stop_eq_size hclosed
      rw [size_append, size_append, size_append] at hstop
      have hzero : rest.size = 0 := by omega
      have hzero' := hrest.size_eq_zero_iff.mp hzero
      have := hlast hzero rfl hclosed
      rw [size_append, size_append, size_append]
      right
      omega
  · rintro rfl
    have hequals := h.equalsAt_of_key hspace hrest.not_blank
    rw [EqualsAt, hrest.chars_eq] at hequals
    refine ⟨front'.size + (content.size + (space'.size + 0)), by omega, ?_, ?_⟩
    · exact equalsAt_behind_gap.mpr hequals
    · intro j hj hjq
      rw [← append_assoc]
      refine blank_of_space hspace' j ?_ ?_ <;> rw [size_append] <;> omega
  · rintro rfl q hq hequals
    obtain ⟨m, rfl⟩ := Nat.exists_eq_add_of_le hq
    rw [Nat.add_assoc, equalsAt_behind, equalsAt_behind] at hequals
    refine not_equalsAt_of_space hspace' (hrest.not_equalsAt ?_) m hequals
    intro j hj
    apply h.text_not_equalsAt (front.size + (content.size + (space.size + j))) (by omega)
    exact equalsAt_behind_gap.mpr hj

end Gaps

end Source

/-! ## The same tokens -/

/-- Behind `front`, the text of the cells is read as their lexemes, each where it
was put. -/
def ReadBehind (front : Source) (cells : List (Lexeme × String)) : Prop :=
  (front ++ Source.ofString (printed cells)).Reads front.size (placed front.size cells)

section Cells

variable {front : Source} {lexeme : Lexeme} {gap : String} {cells : List (Lexeme × String)}

theorem readBehind_nil (front : Source) : ReadBehind front [] := by
  have hsize : (front ++ Source.ofString "").size = front.size := Source.size_append _ _
  have hdone : (front ++ Source.ofString "").Reads (front ++ Source.ofString "").size [] := .done
  rw [hsize] at hdone
  exact hdone

theorem slice_behind_printed (front : Source) (text : String) (back : Source) :
    (front ++ (Source.ofString text ++ back)).slice front.size
      (front.size + (Source.ofString text).size : Nat) = text := by
  have hslice := Source.slice_behind front (Source.ofString text ++ back) 0
    (Source.ofString text).size
  rw [Nat.add_zero, Source.slice_before 0 (Nat.le_refl _)] at hslice
  rw [hslice, Source.size_ofString_eq_length, Source.slice_ofString]

theorem nextStart_placed (front : Source) (cells : List (Lexeme × String)) :
    (front ++ Source.ofString (printed cells)).nextStart (placed front.size cells) =
      front.size := by
  cases cells with
  | nil => exact congrArg Nat.cast (Source.size_append front (Source.ofString ""))
  | cons cell cells => rfl

/-- The first cell is read as a token and white space, and then come the others. -/
theorem readBehind_cons_iff :
    ReadBehind front ((lexeme, gap) :: cells) ↔
      (front ++ (Source.ofString lexeme.content ++ (Source.ofString gap ++
          Source.ofString (printed cells)))).TokenAt front.size lexeme.kind
          (front.size + (Source.ofString lexeme.content).size) ∧
        (Source.ofString gap).AllBlank ∧
        ReadBehind (front ++ Source.ofString lexeme.content ++ Source.ofString gap) cells := by
  have hstart : front.size + (lexeme.content.length + gap.length) =
      (front ++ Source.ofString lexeme.content ++ Source.ofString gap).size := by
    rw [Source.size_append, Source.size_append, Source.size_ofString_eq_length,
      Source.size_ofString_eq_length, Nat.add_assoc]
  unfold ReadBehind
  rw [placed, printed, hstart, ← Source.size_ofString_eq_length lexeme.content,
    Source.ofString_append, Source.ofString_append]
  constructor
  · intro hreads
    obtain ⟨j, k, kind, heq, _, htoken, hafter⟩ := hreads.of_suffix (List.suffix_refl _)
    rw [Token.mk.injEq, Int.natCast_inj, Int.natCast_inj] at heq
    obtain ⟨rfl, _, rfl, rfl⟩ := heq
    refine ⟨htoken, ?_⟩
    rw [← Source.append_assoc front, ← Source.size_append] at hafter
    have hgap : (Source.ofString gap).AllBlank := by
      refine hafter.allBlank ?_
      rw [← Source.append_assoc]
      exact nextStart_placed _ cells
    exact ⟨hgap, (Source.reads_space_iff hgap).mp hafter⟩
  · rintro ⟨htoken, hgap, hafter⟩
    have hafter := (Source.reads_space_iff hgap).mpr hafter
    rw [Source.append_assoc front, Source.size_append front] at hafter
    have hreads := Source.Reads.token htoken hafter
    rw [slice_behind_printed] at hreads
    exact hreads

theorem ReadBehind.size_pos (h : ReadBehind front ((lexeme, gap) :: cells)) :
    0 < (Source.ofString lexeme.content).size := by
  have hlt := (readBehind_cons_iff.mp h).1.lt_stop
  omega

theorem ReadBehind.size_printed_eq_zero_iff (h : ReadBehind front cells) :
    (Source.ofString (printed cells)).size = 0 ↔ cells = [] := by
  constructor
  · intro hzero
    cases cells with
    | nil => rfl
    | cons cell cells =>
      have hpos := h.size_pos
      rw [printed, Source.ofString_append, Source.size_append] at hzero
      omega
  · rintro rfl
    rfl

end Cells

namespace Relaid

variable {cells cells' : List (Lexeme × String)} {front : Source}

theorem lexemes_eq (h : Relaid cells cells') :
    cells'.map Prod.fst = cells.map Prod.fst := by
  induction h with
  | nil => rfl
  | cons _ _ _ _ ih => rw [List.map_cons, List.map_cons, ih]

theorem not_mem_equals (h : Relaid cells cells')
    (hnone : equalsSign ∉ (printed cells).toList) : equalsSign ∉ (printed cells').toList := by
  induction h with
  | nil => exact hnone
  | @cons lexeme gap gap' cells cells' hspace _ _ _ ih =>
    simp only [printed, String.toList_append, List.mem_append, not_or] at hnone ⊢
    refine ⟨hnone.1, ?_, ih hnone.2.2⟩
    intro hmem
    exact absurd (List.all_eq_true.mp hspace _ hmem) (by decide)

theorem startsLike (h : Relaid cells cells') (hreads : ReadBehind front cells) :
    Source.StartsLike (Source.ofString (printed cells)) (Source.ofString (printed cells')) := by
  have hequals : (∀ q, ¬(Source.ofString (printed cells)).EqualsAt q) →
      ∀ q, ¬(Source.ofString (printed cells')).EqualsAt q := by
    intro hnone
    apply Source.not_equalsAt_ofString
    apply h.not_mem_equals
    intro hmem
    obtain ⟨q, hq⟩ := List.mem_iff_getElem?.mp hmem
    exact hnone q ((Source.chars_ofString _ q).trans hq)
  cases h with
  | nil => exact ⟨rfl, fun hblank => absurd hblank.lt_size (Nat.not_lt_zero 0), hequals⟩
  | @cons lexeme gap gap' cells cells' _ _ _ _ =>
    have hpos := hreads.size_pos
    have hvisible := (readBehind_cons_iff.mp hreads).1.not_blank
    refine ⟨?_, ?_, hequals⟩
    · rw [printed, Source.ofString_append, Source.chars_before hpos, printed,
        Source.ofString_append, Source.chars_before hpos]
    · rw [printed, Source.ofString_append, Source.ofString_append]
      intro hblank
      apply hvisible
      rw [← Nat.add_zero front.size]
      exact Source.blank_behind.mpr hblank

/-- With other white space the same tokens are read, each where it was put. -/
theorem readBehind (h : Relaid cells cells') :
    ∀ {front front' : Source},
      (cells ≠ [] → (front.OpenBefore front.size ↔ front'.OpenBefore front'.size)) →
      ReadBehind front cells → ReadBehind front' cells' := by
  induction h with
  | nil =>
    intro _ front' _ _
    exact readBehind_nil front'
  | @cons lexeme gap gap' cells cells' hspace hinner hlast hrest ih =>
    intro front front' hbefore hreads
    have hpos := hreads.size_pos
    obtain ⟨htoken, hgap, hafter⟩ := readBehind_cons_iff.mp hreads
    have hspace := Source.allBlank_ofString hspace
    have hcells := hafter.size_printed_eq_zero_iff
    have hempty : cells ≠ [] →
        ((Source.ofString gap').size = 0 ↔ (Source.ofString gap).size = 0) := by
      intro hne
      rw [Source.size_ofString_eq_length, Source.size_ofString_eq_length,
        String.length_eq_zero_iff, String.length_eq_zero_iff]
      exact hinner hne
    refine readBehind_cons_iff.mpr ⟨?_, hspace, ih ?_ hafter⟩
    · refine htoken.relaid (hbefore (List.cons_ne_nil _ _)) hgap hspace
        (fun hne => hempty (mt hcells.mpr hne)) (hrest.startsLike hafter) ?_
      intro hzero hkind hopen
      rw [hkind] at htoken
      have hunterminated := htoken.isUnterminated_iff.mpr hopen
      rw [slice_behind_printed] at hunterminated
      have hlexeme : lexeme.isUnterminated = true := by
        rw [Lexeme.isUnterminated, hkind]
        exact hunterminated
      rw [hlast (hcells.mp hzero) hlexeme]
      rfl
    · intro hne
      rw [Source.openBefore_behind_gap hpos hgap, Source.openBefore_behind_gap hpos hspace,
        ne_eq, ne_eq, hempty hne]

end Relaid

/-! ## Texts -/

section Texts

variable {text : String} {tokens : List Token}

/-- A text is what comes before its first token, and then its tokens with their
gaps. -/
theorem lead_append_printed (h : (Source.ofString text).Placed 0 tokens) :
    (Source.ofString text).lead tokens ++ printed ((Source.ofString text).cells tokens) =
      text := by
  apply String.toList_inj.mp
  rw [String.toList_append, Source.lead, h.append_printed, List.drop_zero]
  rfl

theorem placed_lead (h : (Source.ofString text).Placed 0 tokens) :
    placed ((Source.ofString text).lead tokens).length ((Source.ofString text).cells tokens) =
      tokens := by
  have hcells := h.placed_cells
  rwa [Nat.zero_add] at hcells

theorem allBlank_lead (h : (Source.ofString text).Reads 0 tokens) :
    (Source.ofString ((Source.ofString text).lead tokens)).AllBlank := by
  have hplaced := h.placed 0 (Nat.le_refl 0)
  intro j hj
  have hblank : (Source.ofString text).Blank j := by
    apply h.blank_of_lt j (Nat.zero_le j)
    rw [hplaced.nextStart_eq, Nat.zero_add]
    rw [Source.size_ofString_eq_length] at hj
    exact Int.ofNat_lt.mpr hj
  rw [← lead_append_printed hplaced, Source.ofString_append] at hblank
  exact (Source.blank_before hj).mp hblank

/-- White space in front is not read as a token. -/
theorem reads_printed_iff {before : String} {cells : List (Lexeme × String)}
    (hbefore : (Source.ofString before).AllBlank) :
    (Source.ofString (before ++ printed cells)).Reads 0 (placed before.length cells) ↔
      ReadBehind (Source.ofString before) cells := by
  have hblanks : ∀ j, 0 ≤ j → j < (Source.ofString before).size →
      (Source.ofString before ++ Source.ofString (printed cells)).Blank j := by
    intro j _ hj
    exact (Source.blank_before hj).mpr (hbefore j hj)
  rw [ReadBehind, Source.ofString_append, ← Source.size_ofString_eq_length]
  exact ⟨Source.Reads.drop_blanks (Nat.zero_le _) hblanks,
    Source.Reads.of_blanks (Nat.zero_le _) hblanks⟩

theorem readBehind_lead (h : (Source.ofString text).Reads 0 tokens) :
    ReadBehind (Source.ofString ((Source.ofString text).lead tokens))
      ((Source.ofString text).cells tokens) := by
  have hplaced := h.placed 0 (Nat.le_refl 0)
  rw [← reads_printed_iff (allBlank_lead h), lead_append_printed hplaced, placed_lead hplaced]
  exact h

end Texts

/-- A text is white space and its cells.  If they are laid out anew, behind any
white space, the same tokens are read, each where it was put. -/
theorem tokenize_relaid (text : String) :
    (Source.ofString text).lead (tokenize text) ++
        printed ((Source.ofString text).cells (tokenize text)) = text ∧
      ∀ (before : String) (cells : List (Lexeme × String)),
        before.toList.all isSpace = true →
        Relaid ((Source.ofString text).cells (tokenize text)) cells →
        tokenize (before ++ printed cells) = placed before.length cells ∧
          (tokenize (before ++ printed cells)).map Token.lexeme =
            (tokenize text).map Token.lexeme := by
  have hreads := (Source.ofString text).reads_tokens
  refine ⟨lead_append_printed (hreads.placed 0 (Nat.le_refl 0)), ?_⟩
  intro before cells hbefore hrelaid
  have hspace := Source.allBlank_ofString hbefore
  have htokens : tokenize (before ++ printed cells) = placed before.length cells := by
    have hread := hrelaid.readBehind
      (fun _ => iff_of_true (allBlank_lead hreads).openBefore hspace.openBefore)
      (readBehind_lead hreads)
    exact (Source.reads_tokens _).unique ((reads_printed_iff hspace).mpr hread)
  refine ⟨htokens, ?_⟩
  rw [htokens, placed_lexemes, hrelaid.lexemes_eq, Source.cells_lexemes]

/-- A key that begins like an operator, an operator that is text because it
touches a literal, and an open literal at the end. -/
def crowdedText : String :=
  "NOT(a) b\t= 'x y'AND \"open"

/-- The same lexemes, wider apart where they were apart. -/
def crowdedCells : List (Lexeme × String) :=
  [(⟨.key, "NOT(a) b"⟩, " \n "), (⟨.equals, "="⟩, "\t"), (⟨.quote, "'x y'"⟩, ""),
    (⟨.text, "AND"⟩, "\n\n"), (⟨.quote, "\"open"⟩, "")]

theorem tokenize_relaid_crowded :
    " ".toList.all isSpace = true ∧
      Relaid ((Source.ofString crowdedText).cells (tokenize crowdedText)) crowdedCells ∧
      tokenize (" " ++ printed crowdedCells) = placed 1 crowdedCells := by
  have hspace : " ".toList.all isSpace = true := by decide
  have hrelaid :
      Relaid ((Source.ofString crowdedText).cells (tokenize crowdedText)) crowdedCells := by
    decide +kernel
  exact ⟨hspace, hrelaid, ((tokenize_relaid crowdedText).2 " " crowdedCells hspace hrelaid).1⟩

end QueryHighlight
