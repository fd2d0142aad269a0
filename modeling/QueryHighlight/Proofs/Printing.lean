import QueryHighlight.Proofs.Concatenation
import QueryHighlight.Proofs.Shape

/-!
# Printed tokens are read back

Lexemes that could be the tokens of a text, written down with white space
between them, are the tokens of that text (`tokenize_printed`).

`Lexeme.WellFormed` says for each kind which contents a token of that kind can
have, and `Printable` what must hold of the lexemes together: their kinds have
the shape of a token stream, no equals sign comes after the first text, and a
literal may be open only at the end.  Each of these conditions is needed by one
rule: `tokenAt_printed` is the case distinction, and `reads_printed` the
induction over the lexemes.
-/

namespace QueryHighlight

/-! ## Lexemes -/

/-- A kind of token and the characters of one. -/
structure Lexeme where
  kind : TokenKind
  content : String
deriving DecidableEq, Repr

/-- The token without its place. -/
def Token.lexeme (token : Token) : Lexeme :=
  ⟨token.kind, token.content⟩

namespace Lexeme

/-- A literal that its last character closes, and none before it. -/
def IsClosedLiteral (content : String) : Prop :=
  ∃ quote ∈ quotes, content.toList.head? = some quote ∧ 2 ≤ content.length ∧
    (Source.ofString content).Closes quote (content.length - 1) ∧
    ∀ j < content.length - 1, 0 < j → ¬(Source.ofString content).Closes quote j

/-- A literal that no character closes. -/
def IsOpenLiteral (content : String) : Prop :=
  ∃ quote ∈ quotes, content.toList.head? = some quote ∧
    ∀ j < content.length, 0 < j → ¬(Source.ofString content).Closes quote j

/-- The contents of a key: it starts like a word and ends visibly, it has no
equals sign, and no operator stands at its start as a whole word. -/
def IsKey (content : String) : Prop :=
  (∃ c ∈ content.toList.head?, isSpace c = false ∧ c ∉ parentheses ∧ c ∉ quotes) ∧
    (∃ c ∈ content.toList.getLast?, isSpace c = false) ∧ equalsSign ∉ content.toList ∧
    ∀ operator ∈ operators, ¬(Source.ofString content).OperatorAt operator 0

/-- The contents of a run of text: visible characters without delimiters that
are not an operator. -/
def IsText (content : String) : Prop :=
  content ≠ "" ∧ content.toList.any endsText = false ∧
    ∀ operator ∈ operators, spells content operator = false

/-- A token with this kind and these characters exists. -/
def WellFormed (lexeme : Lexeme) : Prop :=
  match lexeme.kind with
  | .logicalOperator => ∃ operator ∈ operators, spells lexeme.content operator = true
  | .parenthesis => ∃ c ∈ parentheses, lexeme.content = String.singleton c
  | .equals => lexeme.content = String.singleton equalsSign
  | .quote => IsClosedLiteral lexeme.content
  | .key => IsKey lexeme.content
  | .text => IsText lexeme.content
  | .value => False

/-- A literal that lacks its closing quote. -/
def IsOpen (lexeme : Lexeme) : Prop :=
  lexeme.kind = .quote ∧ IsOpenLiteral lexeme.content

instance (content : String) : Decidable (IsClosedLiteral content) :=
  List.decidableBEx _ quotes

instance (content : String) : Decidable (IsOpenLiteral content) :=
  List.decidableBEx _ quotes

instance (content : String) : Decidable (IsKey content) :=
  have := Option.decidableExistsMem (p := fun c => isSpace c = false ∧ c ∉ parentheses ∧ c ∉ quotes)
    content.toList.head?
  have := Option.decidableExistsMem (p := fun c => isSpace c = false) content.toList.getLast?
  inferInstanceAs (Decidable (_ ∧ _ ∧ _ ∧ _))

instance (content : String) : Decidable (IsText content) :=
  inferInstanceAs (Decidable (_ ∧ _ ∧ _))

instance (lexeme : Lexeme) : Decidable lexeme.WellFormed :=
  match lexeme with
  | ⟨.logicalOperator, content⟩ =>
    inferInstanceAs (Decidable (∃ operator ∈ operators, spells content operator = true))
  | ⟨.parenthesis, content⟩ =>
    List.decidableBEx (fun c => content = String.singleton c) parentheses
  | ⟨.equals, content⟩ => inferInstanceAs (Decidable (content = String.singleton equalsSign))
  | ⟨.quote, content⟩ => inferInstanceAs (Decidable (IsClosedLiteral content))
  | ⟨.key, content⟩ => inferInstanceAs (Decidable (IsKey content))
  | ⟨.text, content⟩ => inferInstanceAs (Decidable (IsText content))
  | ⟨.value, _⟩ => inferInstanceAs (Decidable False)

instance (lexeme : Lexeme) : Decidable lexeme.IsOpen :=
  inferInstanceAs (Decidable (_ ∧ _))

end Lexeme

/-- Lexemes that can be the tokens of a text, in their order. -/
structure Printable (lexemes : List Lexeme) : Prop where
  kinds_mem : lexemes.map Lexeme.kind ∈ TokenKind.stream.matches'
  wellFormed : ∀ lexeme ∈ lexemes.dropLast, lexeme.WellFormed
  wellFormed_last : ∀ lexeme ∈ lexemes.getLast?, lexeme.WellFormed ∨ lexeme.IsOpen
  /-- From the first text on there is no equals sign. -/
  not_mem_equals : ∀ lexeme ∈ lexemes.dropWhile fun lexeme => lexeme.kind ≠ .text,
    equalsSign ∉ lexeme.content.toList

/-! ## Printing -/

/-- The text in which each lexeme is followed by its white space. -/
def printed : List (Lexeme × String) → String
  | [] => ""
  | (lexeme, gap) :: cells => lexeme.content ++ (gap ++ printed cells)

/-- The tokens of a printed text whose first lexeme stands at a position. -/
def placed (start : Nat) : List (Lexeme × String) → List Token
  | [] => []
  | (lexeme, gap) :: cells =>
    ⟨lexeme.kind, lexeme.content, start, (start + lexeme.content.length : Nat)⟩ ::
      placed (start + (lexeme.content.length + gap.length)) cells

/-- The gaps are white space.  Only the last one may be empty, and behind an
open literal it must be. -/
structure Spaced (cells : List (Lexeme × String)) : Prop where
  isSpace : ∀ cell ∈ cells, cell.2.toList.all isSpace = true
  ne_empty : ∀ cell ∈ cells.dropLast, cell.2 ≠ ""
  eq_empty_of_open : ∀ cell ∈ cells.getLast?, cell.1.IsOpen → cell.2 = ""

/-! ## Lexemes behind the first one -/

section Tails

variable {α : Type} {p : α → Prop} {a : α} {l : List α}

theorem forall_mem_dropLast_of_cons (h : ∀ x ∈ (a :: l).dropLast, p x) :
    ∀ x ∈ l.dropLast, p x := by
  intro x hmem
  cases l with
  | nil => cases hmem
  | cons b l => exact h x (List.mem_cons_of_mem _ hmem)

theorem forall_mem_getLast?_of_cons (h : ∀ x ∈ (a :: l).getLast?, p x) :
    ∀ x ∈ l.getLast?, p x := by
  intro x hmem
  cases l with
  | nil => cases hmem
  | cons b l => exact h x hmem

end Tails

theorem Printable.of_cons {lexeme : Lexeme} {lexemes : List Lexeme}
    (h : Printable (lexeme :: lexemes)) : Printable lexemes := by
  obtain ⟨hkinds, hwf, hlast, hequals⟩ := h
  refine ⟨?_, forall_mem_dropLast_of_cons hwf, forall_mem_getLast?_of_cons hlast, ?_⟩
  · exact TokenKind.mem_stream_iff.mpr (TokenKind.mem_stream_iff.mp hkinds).of_cons
  · intro other hmem
    rw [List.dropWhile_cons] at hequals
    split at hequals
    · exact hequals other hmem
    · exact hequals other (List.mem_cons_of_mem _ ((List.dropWhile_sublist _).mem hmem))

theorem Printable.head {lexeme : Lexeme} {lexemes : List Lexeme}
    (h : Printable (lexeme :: lexemes)) :
    lexeme.WellFormed ∨ lexemes = [] ∧ lexeme.IsOpen := by
  cases lexemes with
  | nil => exact (h.wellFormed_last lexeme rfl).imp_right fun hopen => ⟨rfl, hopen⟩
  | cons next rest => exact Or.inl (h.wellFormed lexeme List.mem_cons_self)

/-- Behind a text there is no equals sign. -/
theorem Printable.not_mem_equals_of_text {lexeme : Lexeme} {lexemes : List Lexeme}
    (h : Printable (lexeme :: lexemes)) (htext : lexeme.kind = .text) :
    ∀ other ∈ lexemes, equalsSign ∉ other.content.toList := by
  intro other hmem
  apply h.not_mem_equals other
  rw [List.dropWhile_cons, if_neg (by simp [htext])]
  exact List.mem_cons_of_mem _ hmem

/-- Behind a key stands an equals sign. -/
theorem Printable.equals_of_key {lexeme : Lexeme} {lexemes : List Lexeme}
    (h : Printable (lexeme :: lexemes)) (hkey : lexeme.kind = .key) :
    ∃ rest, lexemes = ⟨.equals, String.singleton equalsSign⟩ :: rest := by
  have hstream := TokenKind.mem_stream_iff.mp h.kinds_mem
  rw [List.map_cons, hkey] at hstream
  obtain ⟨kinds, hkinds⟩ := hstream.of_key
  obtain ⟨⟨kind, content⟩, rest, rfl, rfl, _⟩ := List.map_eq_cons_iff.mp hkinds
  refine ⟨rest, ?_⟩
  rcases h.of_cons.head with hwf | ⟨_, hopen, _⟩
  · obtain rfl : content = String.singleton equalsSign := hwf
    rfl
  · exact absurd (show TokenKind.equals = .quote from hopen) (by decide)

theorem Spaced.of_cons {cell : Lexeme × String} {cells : List (Lexeme × String)}
    (h : Spaced (cell :: cells)) : Spaced cells := by
  obtain ⟨hspace, hempty, hopen⟩ := h
  exact ⟨(List.forall_mem_cons.mp hspace).2, forall_mem_dropLast_of_cons hempty,
    forall_mem_getLast?_of_cons hopen⟩

theorem Spaced.eq_nil_of_empty {lexeme : Lexeme} {cells : List (Lexeme × String)}
    (h : Spaced ((lexeme, "") :: cells)) : cells = [] := by
  cases cells with
  | nil => rfl
  | cons next rest => exact absurd rfl (h.ne_empty (lexeme, "") List.mem_cons_self)

/-! ## One lexeme alone -/

namespace Source

variable {content : String}

/-- An operator with as many letters as a text stands there if it is the text. -/
theorem operatorAt_zero_iff {operator : String} (hlength : operator.length = content.length) :
    (ofString content).OperatorAt operator 0 ↔ spells content operator = true := by
  have hopen : (ofString content).OpenAt (0 + operator.length) := by
    left
    rw [size_ofString_eq_length]
    omega
  unfold OperatorAt
  rw [← Int.natCast_add, Nat.zero_add, hlength, slice_ofString]
  constructor
  · exact fun h => h.1
  · exact fun h => ⟨h, Or.inl rfl, by rwa [hlength, Nat.zero_add] at hopen⟩

theorem tokenAt_of_isClosedLiteral (h : Lexeme.IsClosedLiteral content) :
    (ofString content).TokenAt 0 .quote content.length ∧ (ofString content).ClosedAt 0 := by
  obtain ⟨quote, hquote, hhead, hlength, hcloses, hnone⟩ := h
  have hchar := chars_zero_of_head? hhead
  have hstop : content.length - 1 + 1 = content.length := by omega
  refine ⟨hstop ▸ .closedQuote hchar hquote ⟨by omega, hcloses, ?_⟩,
    quote, content.length - 1, hchar, by omega, hcloses⟩
  intro j hj hjk
  exact hnone j hjk (by omega)

theorem tokenAt_of_isOpenLiteral (h : Lexeme.IsOpenLiteral content) :
    (ofString content).TokenAt 0 .quote content.length := by
  obtain ⟨quote, hquote, hhead, hnone⟩ := h
  have hchar := chars_zero_of_head? hhead
  rw [← size_ofString_eq_length]
  refine .openQuote hchar hquote ?_
  intro j hj hcloses
  have hlt := lt_size_of_eq_some hcloses.1
  rw [size_ofString_eq_length] at hlt
  exact hnone j hlt hj hcloses

theorem tokenAt_of_spells {operator : String} (hmem : operator ∈ operators)
    (h : spells content operator = true) :
    (ofString content).TokenAt 0 .logicalOperator content.length := by
  have hlength : operator.length = content.length := by
    have := congrArg List.length (beq_iff_eq.mp h)
    rw [List.length_map, String.length_toList, String.length_toList] at this
    exact this.symm
  have hpos : ∀ operator ∈ operators, 0 < operator.length := by decide
  have hat := (operatorAt_zero_iff hlength).mpr h
  have htoken := TokenAt.operator (hat.wordAt hmem (Nat.le_refl 0) (by simpa using hpos _ hmem))
    hmem hat
  rwa [Nat.zero_add, hlength] at htoken

theorem tokenAt_of_isText (h : Lexeme.IsText content) :
    (ofString content).TokenAt 0 .text content.length := by
  obtain ⟨hne, hchars, hnone⟩ := h
  have hword : ∀ j, j < content.length → (ofString content).WordAt j := by
    intro j hj
    rw [← String.length_toList] at hj
    exact ⟨_, by rw [chars_ofString, List.getElem?_eq_getElem hj],
      Bool.eq_false_iff.mpr (List.any_eq_false.mp hchars _ (List.getElem_mem hj))⟩
  have hpos : 0 < content.length := by
    rw [Nat.pos_iff_ne_zero]
    exact fun hzero => hne (String.length_eq_zero_iff.mp hzero)
  refine .text (hword 0 hpos) ?_ ?_ ⟨hpos, ?_, ?_⟩
  · intro operator hmem hat
    have hle := operatorAt_le (Nat.zero_le _) hat
    rw [size_ofString_eq_length, Nat.zero_add] at hle
    have hlength : operator.length = content.length := by
      rcases Nat.lt_or_eq_of_le hle with hlt | heq
      · rcases hat.2.2 with hout | hblank
        · rw [size_ofString_eq_length] at hout
          omega
        · rw [Nat.zero_add] at hblank
          exact absurd hblank (not_blank_of_wordAt (hword _ hlt))
      · exact heq
    rw [operatorAt_zero_iff hlength, hnone operator hmem] at hat
    exact Bool.false_ne_true hat
  · intro q _ hequals
    have hq := lt_size_of_eq_some hequals
    rw [size_ofString_eq_length] at hq
    exact not_equalsAt_of_wordAt (hword q hq) hequals
  · rw [← size_ofString_eq_length]
    exact textEnds_size
  · intro j _ hj hends
    obtain ⟨c, hchar, hc⟩ := hword j hj
    exact Bool.false_ne_true (hc.symm.trans (hends c hchar))

theorem wordAt_of_isKey (h : Lexeme.IsKey content) : (ofString content).WordAt 0 := by
  obtain ⟨⟨c, hhead, hc, hparen, hquote⟩, _, habsent, _⟩ := h
  refine wordAt_of_unmarked (chars_zero_of_head? hhead) (by simp [hc]) hparen ?_ hquote
  rintro rfl
  exact habsent (List.mem_of_head? hhead)

theorem not_blank_of_isKey (h : Lexeme.IsKey content) :
    ¬(ofString content).Blank (content.length - 1) := by
  obtain ⟨_, ⟨c, hlast, hc⟩, _⟩ := h
  rintro ⟨d, hchar, hd⟩
  rw [chars_ofString, ← String.length_toList, ← List.getLast?_eq_getElem?] at hchar
  obtain rfl := Option.some.inj (hlast.symm.trans hchar)
  exact Bool.false_ne_true (hc.symm.trans hd)

/-- A key is read as one if its equals sign is the next thing behind it. -/
theorem tokenAt_of_isKey {space back : Source} (h : Lexeme.IsKey content) (hspace : space.AllBlank)
    (hequals : back.EqualsAt 0) :
    (ofString content ++ (space ++ back)).TokenAt 0 .key content.length := by
  have hword := wordAt_of_isKey h
  have hvisible := not_blank_of_isKey h
  obtain ⟨_, _, habsent, hnone⟩ := h
  have hsize := size_ofString_eq_length content
  have hpos : 0 < content.length := by
    obtain ⟨c, hchar, _⟩ := hword
    exact hsize ▸ lt_size_of_eq_some hchar
  have hblanks : ∀ j, content.length ≤ j → j < content.length + space.size →
      (ofString content ++ (space ++ back)).Blank j := by
    rw [← hsize]
    exact blank_of_space hspace
  have hsign : (ofString content ++ (space ++ back)).EqualsAt (content.length + space.size) := by
    rw [← hsize]
    exact equalsAt_behind.mpr (equalsAt_behind.mpr hequals)
  have hstop : content.length - 1 + 1 = content.length := by omega
  rw [← hstop]
  refine .key ((wordAt_before (by omega)).mpr hword) ?_ ⟨Nat.zero_le _, hsign, ?_⟩
    ⟨by omega, ?_, ?_⟩
  · -- An operator cannot reach over the end of the key: no letter follows there.
    intro operator hmem hat
    apply hnone operator hmem
    apply hat.of_before
    by_contra hlong
    have hseam := hat.wordAt hmem (Nat.zero_le content.length) (by omega)
    rcases Nat.eq_zero_or_pos space.size with hzero | hspos
    · rw [hzero] at hsign
      exact not_equalsAt_of_wordAt hseam hsign
    · exact not_blank_of_wordAt hseam (hblanks _ (Nat.le_refl _) (by omega))
  · intro j _ hj hjequals
    rcases Nat.lt_or_ge j content.length with hlt | hge
    · exact not_equalsAt_ofString habsent j ((equalsAt_before (by omega)).mp hjequals)
    · exact (hblanks j hge hj).not_equalsAt hjequals
  · exact fun hblank => hvisible ((blank_before (by omega)).mp hblank)
  · intro j hj hjs hjvisible
    exact hjvisible (hblanks j (by omega) hjs)

theorem chars_ofString_singleton (c : Char) :
    (ofString (String.singleton c)).chars[0]? = some c := by
  rw [chars_ofString, String.toList_singleton]
  rfl

theorem tokenAt_of_mem_parentheses {c : Char} (hc : c ∈ parentheses) :
    (ofString (String.singleton c)).TokenAt 0 .parenthesis (String.singleton c).length := by
  rw [String.length_singleton]
  exact .parenthesis (chars_ofString_singleton c) hc

end Source

/-! ## One lexeme of a printed text -/

theorem not_mem_equals_printed {cells : List (Lexeme × String)} (hs : Spaced cells)
    (h : ∀ lexeme ∈ cells.map Prod.fst, equalsSign ∉ lexeme.content.toList) :
    equalsSign ∉ (printed cells).toList := by
  induction cells with
  | nil => simp [printed]
  | cons cell cells ih =>
    obtain ⟨lexeme, gap⟩ := cell
    rw [List.map_cons, List.forall_mem_cons] at h
    have hgap : equalsSign ∉ gap.toList := by
      intro hmem
      have := List.all_eq_true.mp (hs.isSpace _ List.mem_cons_self) _ hmem
      exact absurd this (by decide)
    simp only [printed, String.toList_append, List.mem_append, not_or]
    exact ⟨h.1, hgap, ih hs.of_cons h.2⟩

/-- Where no white space follows, nothing does. -/
theorem Spaced.size_eq_zero {lexeme : Lexeme} {gap : String} {cells : List (Lexeme × String)}
    (hs : Spaced ((lexeme, gap) :: cells)) (hgap : (Source.ofString gap).size = 0) :
    (Source.ofString (printed cells)).size = 0 := by
  rw [Source.size_ofString_eq_length] at hgap
  obtain rfl := String.length_eq_zero_iff.mp hgap
  rw [hs.eq_nil_of_empty, printed]
  rfl

theorem equalsAt_printed {cells : List (Lexeme × String)} {rest : List Lexeme}
    (h : cells.map Prod.fst = ⟨.equals, String.singleton equalsSign⟩ :: rest) :
    (Source.ofString (printed cells)).EqualsAt 0 := by
  obtain ⟨⟨lexeme, gap⟩, cells, rfl, rfl, _⟩ := List.map_eq_cons_iff.mp h
  have hchar := Source.chars_ofString_singleton equalsSign
  rw [printed, Source.ofString_append]
  exact (Source.equalsAt_before (Source.lt_size_of_eq_some hchar)).mpr hchar

/-- The first lexeme of a printed text is its first token. -/
theorem tokenAt_printed {lexeme : Lexeme} {gap : String} {cells : List (Lexeme × String)}
    (h : Printable (lexeme :: cells.map Prod.fst)) (hs : Spaced ((lexeme, gap) :: cells)) :
    (Source.ofString (printed ((lexeme, gap) :: cells))).TokenAt 0 lexeme.kind
      lexeme.content.length := by
  have hgap := Source.allBlank_ofString (hs.isSpace _ List.mem_cons_self)
  have hseam : (Source.ofString lexeme.content ++
      (Source.ofString gap ++ Source.ofString (printed cells))).OpenAt
        (Source.ofString lexeme.content).size :=
    Source.openAt_of_space hgap hs.size_eq_zero
  rcases h.head with hwf | ⟨hnil, hkind, hopen⟩
  · rw [printed, Source.ofString_append, Source.ofString_append]
    obtain ⟨kind, content⟩ := lexeme
    cases kind with
    | logicalOperator =>
      obtain ⟨operator, hmem, hspells⟩ := hwf
      exact (Source.tokenAt_of_spells hmem hspells).before_space hseam (by simp) (by simp)
    | parenthesis =>
      obtain ⟨c, hc, rfl⟩ := hwf
      exact (Source.tokenAt_of_mem_parentheses hc).before_space hseam (by simp) (by simp)
    | equals =>
      obtain rfl : content = String.singleton equalsSign := hwf
      have htoken := Source.TokenAt.equals (Source.chars_ofString_singleton equalsSign)
      exact htoken.before_space hseam (by simp) (by simp)
    | quote =>
      obtain ⟨htoken, hclosed⟩ := Source.tokenAt_of_isClosedLiteral hwf
      exact htoken.before_space hseam (fun _ => hclosed) (by simp)
    | key =>
      obtain ⟨rest, hrest⟩ := h.equals_of_key rfl
      exact Source.tokenAt_of_isKey hwf hgap (equalsAt_printed hrest)
    | text =>
      refine (Source.tokenAt_of_isText hwf).before_space hseam (by simp) fun _ => ?_
      apply Source.not_equalsAt_of_space hgap
      apply Source.not_equalsAt_ofString
      exact not_mem_equals_printed hs.of_cons (h.not_mem_equals_of_text rfl)
    | value => exact hwf.elim
  · -- An open literal reaches to the end, so nothing may stand behind it.
    obtain rfl := List.map_eq_nil_iff.mp hnil
    obtain rfl : gap = "" := hs.eq_empty_of_open (lexeme, gap) rfl ⟨hkind, hopen⟩
    rw [hkind, printed, printed, String.append_empty, String.append_empty]
    exact Source.tokenAt_of_isOpenLiteral hopen

/-! ## A printed text -/

theorem placed_shift (n start : Nat) (cells : List (Lexeme × String)) :
    (placed start cells).map (Token.shift n) = placed (start + n) cells := by
  induction cells generalizing start with
  | nil => rfl
  | cons cell cells ih =>
    obtain ⟨lexeme, gap⟩ := cell
    simp only [placed, List.map_cons, ih, Token.shift, ← Int.natCast_add,
      Nat.add_right_comm start _ n]

theorem placed_lexemes (start : Nat) (cells : List (Lexeme × String)) :
    (placed start cells).map Token.lexeme = cells.map Prod.fst := by
  induction cells generalizing start with
  | nil => rfl
  | cons cell cells ih =>
    obtain ⟨lexeme, gap⟩ := cell
    rw [placed, List.map_cons, List.map_cons, ih]
    rfl

/-- A printed text is read as its lexemes, each where it was placed. -/
theorem reads_printed {cells : List (Lexeme × String)}
    (h : Printable (cells.map Prod.fst)) (hs : Spaced cells) :
    (Source.ofString (printed cells)).Reads 0 (placed 0 cells) := by
  induction cells with
  | nil => exact .done
  | cons cell cells ih =>
    obtain ⟨lexeme, gap⟩ := cell
    have htoken := tokenAt_printed h hs
    have hrest := (ih h.of_cons hs.of_cons).behind_space (Source.ofString lexeme.content)
      (Source.allBlank_ofString (hs.isSpace _ List.mem_cons_self))
      fun hzero => Or.inr (hs.size_eq_zero hzero)
    rw [← Source.ofString_append, ← Source.ofString_append, placed_shift,
      Source.size_ofString_eq_length, Source.size_ofString_eq_length] at hrest
    have hcontent : (Source.ofString (printed ((lexeme, gap) :: cells))).slice (0 : Nat)
        lexeme.content.length = lexeme.content := by
      rw [printed, Source.ofString_append, Source.slice_before 0, Source.slice_ofString]
      exact Nat.le_of_eq (Source.size_ofString_eq_length _).symm
    have hreads := Source.Reads.token htoken hrest
    rw [hcontent] at hreads
    rw [placed, Nat.zero_add]
    exact hreads

/-- White space in front moves the tokens of a printed text. -/
theorem tokenize_behind_printed {before : String} {cells : List (Lexeme × String)}
    (hbefore : before.toList.all isSpace = true) (h : Printable (cells.map Prod.fst))
    (hs : Spaced cells) :
    tokenize (before ++ printed cells) = placed before.length cells := by
  have hreads := (reads_printed h hs).behind_space (Source.ofString "")
    (Source.allBlank_ofString hbefore) fun _ => Or.inl rfl
  rw [← Source.ofString_append, ← Source.ofString_append, String.empty_append, placed_shift,
    Source.size_ofString_eq_length, Source.size_ofString_eq_length, String.length_empty,
    Nat.zero_add, Nat.zero_add] at hreads
  exact (Source.reads_tokens _).unique hreads

/-- Lexemes with one blank between any two. -/
def spacedOut : List Lexeme → List (Lexeme × String)
  | [] => []
  | [lexeme] => [(lexeme, "")]
  | lexeme :: next :: rest => (lexeme, " ") :: spacedOut (next :: rest)

theorem spacedOut_lexemes (lexemes : List Lexeme) :
    (spacedOut lexemes).map Prod.fst = lexemes := by
  fun_induction spacedOut lexemes with
  | case1 => rfl
  | case2 => rfl
  | case3 lexeme next rest ih => rw [List.map_cons, ih]

theorem spacedOut_ne_nil (lexeme : Lexeme) (lexemes : List Lexeme) :
    spacedOut (lexeme :: lexemes) ≠ [] := by
  cases lexemes <;> simp [spacedOut]

theorem spaced_spacedOut (lexemes : List Lexeme) : Spaced (spacedOut lexemes) := by
  fun_induction spacedOut lexemes with
  | case1 => exact ⟨by simp, by simp, by simp⟩
  | case2 lexeme => exact ⟨by simp, by simp, by simp⟩
  | case3 lexeme next rest ih =>
    have hne := spacedOut_ne_nil next rest
    have hblank : " ".toList.all isSpace = true := by decide
    have hsome : " " ≠ "" := by decide
    refine ⟨?_, ?_, ?_⟩
    · exact List.forall_mem_cons.mpr ⟨hblank, ih.isSpace⟩
    · rw [List.dropLast_cons_of_ne_nil hne]
      exact List.forall_mem_cons.mpr ⟨hsome, ih.ne_empty⟩
    · rw [List.getLast?_cons_of_ne_nil hne]
      exact ih.eq_empty_of_open

theorem printed_spacedOut (lexemes : List Lexeme) :
    printed (spacedOut lexemes) = String.intercalate " " (lexemes.map Lexeme.content) := by
  fun_induction spacedOut lexemes with
  | case1 => rfl
  | case2 lexeme =>
    rw [printed, printed, String.append_empty, String.append_empty]
    rfl
  | case3 lexeme next rest ih =>
    rw [printed, ih]
    simp only [List.map_cons, String.intercalate_cons_cons, String.append_assoc]

/-- Printable lexemes with white space between them are the tokens of the text
they make: with one blank between any two, and with any layout. -/
theorem tokenize_printed (lexemes : List Lexeme) (h : Printable lexemes) :
    (tokenize (String.intercalate " " (lexemes.map Lexeme.content))).map Token.lexeme =
        lexemes ∧
      ∀ (before : String) (cells : List (Lexeme × String)), cells.map Prod.fst = lexemes →
        before.toList.all isSpace = true → Spaced cells →
        tokenize (before ++ printed cells) = placed before.length cells := by
  have hlayout : ∀ (before : String) (cells : List (Lexeme × String)),
      cells.map Prod.fst = lexemes → before.toList.all isSpace = true → Spaced cells →
      tokenize (before ++ printed cells) = placed before.length cells := by
    rintro before cells rfl hbefore hs
    exact tokenize_behind_printed hbefore h hs
  refine ⟨?_, hlayout⟩
  have htokens := hlayout "" (spacedOut lexemes) (spacedOut_lexemes lexemes) (by simp)
    (spaced_spacedOut lexemes)
  rw [String.empty_append, printed_spacedOut] at htokens
  rw [htokens, placed_lexemes, spacedOut_lexemes]

/-- A query with parentheses, quotes and an equals sign where they do not count, an
operator in mixed case, and an open literal at the end. -/
def sampleCells : List (Lexeme × String) :=
  [(⟨.key, "a) 'b"⟩, "\t"), (⟨.equals, "="⟩, " "), (⟨.quote, "'\\'= '"⟩, "\n "),
    (⟨.logicalOperator, "oR"⟩, "  "), (⟨.text, "on"⟩, " "), (⟨.quote, "\"("⟩, "")]

theorem tokenize_printed_sample :
    Printable (sampleCells.map Prod.fst) ∧ Spaced sampleCells ∧
      (tokenize (String.intercalate " "
          ((sampleCells.map Prod.fst).map Lexeme.content))).map Token.lexeme =
        sampleCells.map Prod.fst ∧
      tokenize ("\n" ++ printed sampleCells) = placed 1 sampleCells := by
  have hprintable : Printable (sampleCells.map Prod.fst) :=
    ⟨by decide +kernel, by decide +kernel, by decide +kernel, by decide +kernel⟩
  have hspaced : Spaced sampleCells :=
    ⟨by decide +kernel, by decide +kernel, by decide +kernel⟩
  obtain ⟨hjoined, hlayout⟩ := tokenize_printed (sampleCells.map Prod.fst) hprintable
  exact ⟨hprintable, hspaced, hjoined, hlayout "\n" sampleCells rfl (by decide) hspaced⟩

end QueryHighlight
