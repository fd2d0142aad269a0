import Mathlib.Data.List.Forall2
import QueryHighlight.Proofs.Concatenation

/-!
# What the lexer can see of a character

The rules of the lexer ask four questions about a character: is it white space,
which delimiter is it, is it the escape sign, and is it a certain letter of an
operator, in either case?  `Interchangeable` characters are those that no such
question tells apart.

`Source.Interchangeable` carries this to sources, position by position.  Each
predicate of the grammar holds at the same positions of both
(`Interchangeable.blank`, `Interchangeable.closes`, ...), so the same tokens start
there and end there (`TokenAt.interchange`), and the two readings go side by side
(`Reads.interchange`).  Only what the tokens say may differ.
-/

namespace QueryHighlight

/-! ## Characters -/

/-- The letters of the operators. -/
def operatorLetters : List Char :=
  ['A', 'N', 'D', 'O', 'R', 'T']

/-- No rule asks for the character: it is not white space, no delimiter, not the
escape sign, and no letter of an operator in upper or lower case. -/
def isOrdinary (c : Char) : Bool :=
  !isSpace c && !delimiters.contains c && c != escapeSign && !operatorLetters.contains c.toUpper

/-- No rule tells the two characters apart: they are the same, or both white space,
or the same letter but for its case, or both ordinary. -/
def Interchangeable (c d : Char) : Prop :=
  c = d ∨ (isSpace c = true ∧ isSpace d = true) ∨
    (c.isAlpha = true ∧ d.isAlpha = true ∧ c.toUpper = d.toUpper) ∨
    (isOrdinary c = true ∧ isOrdinary d = true)

instance (c d : Char) : Decidable (Interchangeable c d) :=
  inferInstanceAs (Decidable (_ ∨ _))

theorem isOrdinary_iff {c : Char} :
    isOrdinary c = true ↔
      endsText c = false ∧ c ≠ escapeSign ∧ c.toUpper ∉ operatorLetters := by
  simp [isOrdinary, endsText, and_assoc]

theorem isSpace_eq_false_of_endsText {c : Char} (h : endsText c = false) : isSpace c = false := by
  rw [endsText, Bool.or_eq_false_iff] at h
  exact h.1

/-- The signs that have a meaning of their own. -/
theorem sign_cases {c : Char} (h : c ∈ escapeSign :: delimiters) :
    isSpace c = false ∧ c.isAlpha = false ∧ isOrdinary c = false := by
  have hsigns : (escapeSign :: delimiters).all (fun c =>
      !isSpace c && !c.isAlpha && !isOrdinary c) = true := by decide
  simpa [and_assoc] using List.all_eq_true.mp hsigns c h

namespace Interchangeable

variable {c d : Char}

theorem symm (h : Interchangeable c d) : Interchangeable d c := by
  rcases h with heq | ⟨hc, hd⟩ | ⟨hc, hd, hupper⟩ | ⟨hc, hd⟩
  · exact Or.inl heq.symm
  · exact Or.inr (Or.inl ⟨hd, hc⟩)
  · exact Or.inr (Or.inr (Or.inl ⟨hd, hc, hupper.symm⟩))
  · exact Or.inr (Or.inr (Or.inr ⟨hd, hc⟩))

/-- Both characters are white space or neither is, and both end a run of text or
neither does. -/
theorem classes_eq (h : Interchangeable c d) :
    isSpace c = isSpace d ∧ endsText c = endsText d := by
  rcases h with rfl | ⟨hc, hd⟩ | ⟨hc, hd, _⟩ | ⟨hc, hd⟩
  · exact ⟨rfl, rfl⟩
  · simp [endsText, hc, hd]
  · have hc := endsText_of_isAlpha hc
    have hd := endsText_of_isAlpha hd
    simp [hc, hd, isSpace_eq_false_of_endsText]
  · have hc := (isOrdinary_iff.mp hc).1
    have hd := (isOrdinary_iff.mp hd).1
    simp [hc, hd, isSpace_eq_false_of_endsText]

/-- A sign can be exchanged for itself only. -/
theorem eq_of_sign (h : Interchangeable c d) (hc : c ∈ escapeSign :: delimiters) : d = c := by
  obtain ⟨hspace, halpha, hordinary⟩ := sign_cases hc
  rcases h with heq | ⟨hc', _⟩ | ⟨hc', _⟩ | ⟨hc', _⟩
  · exact heq.symm
  · rw [hspace] at hc'
    exact absurd hc' Bool.false_ne_true
  · rw [halpha] at hc'
    exact absurd hc' Bool.false_ne_true
  · rw [hordinary] at hc'
    exact absurd hc' Bool.false_ne_true

/-- A letter of an operator can be exchanged for itself only, in either case. -/
theorem toUpper_eq (h : Interchangeable c d) (hc : c.toUpper ∈ operatorLetters) :
    d.toUpper = c.toUpper := by
  have hletters : operatorLetters.all Char.isAlpha = true := by decide
  have halpha := List.all_eq_true.mp hletters _ hc
  have hends := endsText_of_isAlpha (isAlpha_of_toUpper halpha)
  rcases h with rfl | ⟨hspace, _⟩ | ⟨_, _, hupper⟩ | ⟨hordinary, _⟩
  · rfl
  · rw [isSpace_eq_false_of_endsText hends] at hspace
    exact absurd hspace Bool.false_ne_true
  · exact hupper.symm
  · exact absurd hc (isOrdinary_iff.mp hordinary).2.2

theorem map_toUpper_eq {a b : List Char} (h : List.Forall₂ Interchangeable a b)
    (ha : ∀ c ∈ a, c.toUpper ∈ operatorLetters) :
    b.map Char.toUpper = a.map Char.toUpper := by
  induction h with
  | nil => rfl
  | cons hcd _ ih =>
    rw [List.forall_mem_cons] at ha
    rw [List.map_cons, List.map_cons, hcd.toUpper_eq ha.1, ih ha.2]

end Interchangeable

/-! ## Sources -/

namespace Source

variable {source source' : Source} {i k : Nat}

/-- The characters of the two sources are interchangeable, position by position. -/
def Interchangeable (source source' : Source) : Prop :=
  List.Forall₂ QueryHighlight.Interchangeable source.chars.toList source'.chars.toList

namespace Interchangeable

theorem symm (h : source.Interchangeable source') : source'.Interchangeable source := by
  apply List.Forall₂.flip
  exact h.imp fun _ _ hchar => hchar.symm

theorem size_eq (h : source.Interchangeable source') : source.size = source'.size :=
  h.length_eq

theorem char (h : source.Interchangeable source') {c : Char} (hchar : source.chars[i]? = some c) :
    ∃ d, source'.chars[i]? = some d ∧ QueryHighlight.Interchangeable c d := by
  have hi := lt_size_of_eq_some hchar
  have hi' : i < source'.size := h.size_eq ▸ hi
  obtain ⟨d, hchar'⟩ := source'.isSome_of_lt hi'
  refine ⟨d, hchar', ?_⟩
  obtain ⟨_, rfl⟩ := Array.getElem?_eq_some_iff.mp hchar
  obtain ⟨_, rfl⟩ := Array.getElem?_eq_some_iff.mp hchar'
  exact h.get hi hi'

/-- Signs stand at the same positions. -/
theorem sign (h : source.Interchangeable source') {c : Char} (hc : c ∈ escapeSign :: delimiters)
    (hchar : source.chars[i]? = some c) : source'.chars[i]? = some c := by
  obtain ⟨d, hchar', hcd⟩ := h.char hchar
  rw [hchar', hcd.eq_of_sign hc]

theorem blank (h : source.Interchangeable source') (hi : source.Blank i) : source'.Blank i := by
  obtain ⟨c, hchar, hspace⟩ := hi
  obtain ⟨d, hchar', hcd⟩ := h.char hchar
  exact ⟨d, hchar', hcd.classes_eq.1 ▸ hspace⟩

theorem wordAt (h : source.Interchangeable source') (hi : source.WordAt i) :
    source'.WordAt i := by
  obtain ⟨c, hchar, hends⟩ := hi
  obtain ⟨d, hchar', hcd⟩ := h.char hchar
  exact ⟨d, hchar', hcd.classes_eq.2 ▸ hends⟩

theorem textEnds (h : source.Interchangeable source') (hi : source.TextEnds i) :
    source'.TextEnds i := by
  intro d hchar'
  obtain ⟨c, hchar, hdc⟩ := h.symm.char hchar'
  rw [hdc.classes_eq.2]
  exact hi c hchar

theorem equalsAt (h : source.Interchangeable source') (hi : source.EqualsAt i) :
    source'.EqualsAt i :=
  h.sign (by decide) hi

theorem closes (h : source.Interchangeable source') {quote : Char} (hquote : quote ∈ quotes)
    (hi : source.Closes quote i) : source'.Closes quote i := by
  obtain ⟨hchar, hescape⟩ := hi
  refine ⟨h.sign (by simp [delimiters, hquote]) hchar, ?_⟩
  intro hescape'
  exact hescape (h.symm.sign (by decide) hescape')

theorem openBefore (h : source.Interchangeable source') (hi : source.OpenBefore i) :
    source'.OpenBefore i :=
  hi.imp id h.blank

theorem openAt (h : source.Interchangeable source') (hi : source.OpenAt i) :
    source'.OpenAt i := by
  unfold OpenAt at *
  rw [← h.size_eq]
  exact hi.imp id h.blank

theorem operatorAt (h : source.Interchangeable source') {operator : String}
    (hmem : operator ∈ operators) (hi : source.OperatorAt operator i) :
    source'.OperatorAt operator i := by
  obtain ⟨hspells, hbefore, hat⟩ := hi
  have hwords : operators.all (fun operator =>
      operator.toList.all operatorLetters.contains) = true := by decide
  have hletters := List.all_eq_true.mp (List.all_eq_true.mp hwords operator hmem)
  have hslice := List.forall₂_take operator.length (List.forall₂_drop i h)
  refine ⟨?_, h.openBefore hbefore, h.openAt hat⟩
  rw [spells, beq_iff_eq, ← Int.natCast_add, toList_slice_natCast, Nat.add_sub_cancel_left] at *
  rw [Interchangeable.map_toUpper_eq hslice ?_, hspells]
  intro c hc
  have hletter : c.toUpper ∈ operator.toList := by
    rw [← hspells]
    exact List.mem_map_of_mem hc
  exact List.contains_iff_mem.mp (hletters _ hletter)

end Interchangeable

/-! ## Readings -/

/-- Where a token stands in a source, it stands in an interchangeable one. -/
theorem TokenAt.interchange {kind : TokenKind} (ht : source.TokenAt i kind k)
    (h : source.Interchangeable source') : source'.TokenAt i kind k := by
  have hnone : (∀ operator ∈ operators, ¬source.OperatorAt operator i) →
      ∀ operator ∈ operators, ¬source'.OperatorAt operator i := by
    intro hnone operator hmem hat
    exact hnone operator hmem (h.symm.operatorAt hmem hat)
  cases ht with
  | parenthesis hchar hc => exact .parenthesis (h.sign (by simp [delimiters, hc]) hchar) hc
  | equals hchar => exact .equals (h.equalsAt hchar)
  | closedQuote hchar hquote hclose =>
    refine .closedQuote (h.sign (by simp [delimiters, hquote]) hchar) hquote (hclose.congr ?_)
    intro j _ _
    exact ⟨h.closes hquote, h.symm.closes hquote⟩
  | openQuote hchar hquote hopen =>
    rw [h.size_eq]
    refine .openQuote (h.sign (by simp [delimiters, hquote]) hchar) hquote ?_
    intro j hj hcloses
    exact hopen j hj (h.symm.closes hquote hcloses)
  | operator hword hmem hat => exact .operator (h.wordAt hword) hmem (h.operatorAt hmem hat)
  | key hword hoperator hequals hlast =>
    refine .key (h.wordAt hword) (hnone hoperator) (hequals.congr ?_) (hlast.congr ?_)
    · intro j _ _
      exact ⟨h.equalsAt, h.symm.equalsAt⟩
    · intro j _ _
      exact not_congr ⟨h.blank, h.symm.blank⟩
  | text hword hoperator habsent hstop =>
    refine .text (h.wordAt hword) (hnone hoperator) ?_ (hstop.congr ?_)
    · intro q hq hequals
      exact habsent q hq (h.symm.equalsAt hequals)
    · intro j _ _
      exact ⟨h.textEnds, h.symm.textEnds⟩

end Source

/-- The tokens are of one kind and have the same span; what they say may differ. -/
def Token.SameSpan (a b : Token) : Prop :=
  a.kind = b.kind ∧ a.start = b.start ∧ a.stop = b.stop

instance (a b : Token) : Decidable (a.SameSpan b) :=
  inferInstanceAs (Decidable (_ ∧ _ ∧ _))

/-- The tokens that are read from a position of two interchangeable sources go side
by side. -/
theorem Source.Reads.interchange {source source' : Source} {i : Nat} {tokens : List Token}
    (hreads : source.Reads i tokens) (h : source.Interchangeable source') :
    ∃ tokens', source'.Reads i tokens' ∧ List.Forall₂ Token.SameSpan tokens tokens' := by
  induction hreads with
  | done =>
    rw [h.size_eq]
    exact ⟨[], .done, .nil⟩
  | blank hblank _ ih =>
    obtain ⟨tokens', hreads', hspans⟩ := ih
    exact ⟨tokens', .blank (h.blank hblank) hreads', hspans⟩
  | token htoken _ ih =>
    obtain ⟨tokens', hreads', hspans⟩ := ih
    exact ⟨_, .token (htoken.interchange h) hreads', .cons ⟨rfl, rfl, rfl⟩ hspans⟩

/-- Texts of interchangeable characters have the same number of tokens, and the
tokens are of the same kinds and have the same spans, pair by pair. -/
theorem tokenize_sameSpans {text text' : String}
    (h : List.Forall₂ Interchangeable text.toList text'.toList) :
    List.Forall₂ Token.SameSpan (tokenize text) (tokenize text') := by
  have hsources : (Source.ofString text).Interchangeable (Source.ofString text') := h
  obtain ⟨tokens', hreads', hspans⟩ :=
    (Source.ofString text).reads_tokens.interchange hsources
  have htokens : tokens' = tokenize text' :=
    hreads'.unique (Source.ofString text').reads_tokens
  rwa [htokens] at hspans

/-- An operator in another case, another blank, and other letters in the text and in
the literal. -/
theorem tokenize_sameSpans_operator :
    List.Forall₂ Interchangeable "é And\t(x 'y\\'".toList "z aND (ß 'w\\'".toList ∧
      List.Forall₂ Token.SameSpan (tokenize "é And\t(x 'y\\'") (tokenize "z aND (ß 'w\\'") := by
  have h : List.Forall₂ Interchangeable "é And\t(x 'y\\'".toList "z aND (ß 'w\\'".toList := by
    decide
  exact ⟨h, tokenize_sameSpans h⟩

end QueryHighlight
