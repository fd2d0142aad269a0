import QueryHighlight.Proofs.Concatenation
import QueryHighlight.Proofs.RoundTrip

/-!
# Where every character goes

The rules of the lexer are greedy: a key takes parentheses, quotes and white space
up to the next equals sign, and a quoted literal takes everything up to its end.  So
a character that ends a run of text does not always have a token of its own.  This
module says which tokens such a character can be in, and at which place of them.

* `Token.Takes` lists the places.  `TokenAt.takes` finds the place in one token, with
  one case for each rule: operators and runs of text have none.
* `Reads.exists_takes` adds what lies between the tokens, where there is only white
  space.
* `Reads.count_equals` counts the equals signs along a reading.

`tokenize_places` is the result.
-/

namespace QueryHighlight

/-! ## Characters that end a run of text -/

theorem endsText_eq_true_iff {c : Char} :
    endsText c = true ↔
      isSpace c = true ∨ c ∈ parentheses ∨ c ∈ quotes ∨ c = equalsSign := by
  simp [endsText, delimiters]

theorem parentheses_apart : ∀ c ∈ parentheses, c ∉ quotes ∧ c ≠ equalsSign := by
  rw [parentheses, List.forall_mem_cons, List.forall_mem_singleton]
  decide

theorem quotes_apart : ∀ c ∈ quotes, c ∉ parentheses ∧ c ≠ equalsSign := by
  rw [quotes, List.forall_mem_cons, List.forall_mem_cons, List.forall_mem_singleton]
  decide

theorem space_apart {c : Char} (h : isSpace c = true) :
    c ∉ parentheses ∧ c ∉ quotes ∧ c ≠ equalsSign := by
  have hnot : ¬isSpace c = false := by simp [h]
  refine ⟨fun hparen => ?_, fun hquote => ?_, fun hequals => ?_⟩
  · exact hnot (mark_of_mem_parentheses c hparen).1
  · exact hnot (mark_of_mem_quotes c hquote).1
  · exact hnot (hequals ▸ mark_equalsSign.1)

/-! ## Places in a token -/

namespace Token

/-- A position lies in the span of a token, behind its first one. -/
def Inside (token : Token) (i : Nat) : Prop :=
  token.start < i ∧ i < token.stop

/-- The span of a token is this one position. -/
def Alone (token : Token) (i : Nat) : Prop :=
  token.start = i ∧ token.stop = i + 1

/-- A token has a place for a character that ends text, at this position. -/
inductive Takes (token : Token) (i : Nat) (c : Char) : Prop where
  | parenthesis (hkind : token.kind = .parenthesis) (halone : token.Alone i)
      (hc : c ∈ parentheses)
  | equals (hkind : token.kind = .equals) (halone : token.Alone i) (hc : c = equalsSign)
  /-- A literal takes any character behind its opening quote. -/
  | quote (hkind : token.kind = .quote) (hinside : c ∉ quotes → token.Inside i)
  /-- A key takes any but an equals sign behind its first character, and it does not
  end with white space. -/
  | key (hkind : token.kind = .key) (hinside : token.Inside i) (hc : c ≠ equalsSign)
      (hlast : isSpace c = true → i + 1 < token.stop)

variable {token : Token} {i : Nat} {c : Char}

theorem Takes.of_equalsSign (h : token.Takes i equalsSign) :
    token.kind = .equals ∧ token.Alone i ∨ token.kind = .quote ∧ token.Inside i := by
  cases h with
  | parenthesis _ _ hc => exact absurd hc (by decide)
  | equals hkind halone _ => exact Or.inl ⟨hkind, halone⟩
  | quote hkind hinside => exact Or.inr ⟨hkind, hinside (by decide)⟩
  | key _ _ hc _ => exact absurd rfl hc

theorem Takes.of_parenthesis (h : token.Takes i c) (hparen : c ∈ parentheses) :
    token.kind = .parenthesis ∧ token.Alone i ∨
      (token.kind = .key ∨ token.kind = .quote) ∧ token.Inside i := by
  obtain ⟨hquote, hequals⟩ := parentheses_apart c hparen
  cases h with
  | parenthesis hkind halone _ => exact Or.inl ⟨hkind, halone⟩
  | equals _ _ hc => exact absurd hc hequals
  | quote hkind hinside => exact Or.inr ⟨Or.inr hkind, hinside hquote⟩
  | key hkind hinside _ _ => exact Or.inr ⟨Or.inl hkind, hinside⟩

theorem Takes.of_quote (h : token.Takes i c) (hquote : c ∈ quotes) :
    token.kind = .quote ∨ token.kind = .key ∧ token.Inside i := by
  obtain ⟨hparen, hequals⟩ := quotes_apart c hquote
  cases h with
  | parenthesis _ _ hc => exact absurd hc hparen
  | equals _ _ hc => exact absurd hc hequals
  | quote hkind _ => exact Or.inl hkind
  | key hkind hinside _ _ => exact Or.inr ⟨hkind, hinside⟩

theorem Takes.of_space (h : token.Takes i c) (hspace : isSpace c = true) :
    token.kind = .quote ∧ token.Inside i ∨
      token.kind = .key ∧ token.Inside i ∧ i + 1 < token.stop := by
  obtain ⟨hparen, hquote, hequals⟩ := space_apart hspace
  cases h with
  | parenthesis _ _ hc => exact absurd hc hparen
  | equals _ _ hc => exact absurd hc hequals
  | quote hkind hinside => exact Or.inl ⟨hkind, hinside hquote⟩
  | key hkind hinside _ hlast => exact Or.inr ⟨hkind, hinside, hlast hspace⟩

end Token

namespace Source

variable {source : Source} {i j k : Nat} {kind : TokenKind} {c : Char} {tokens : List Token}

/-! ## One token -/

theorem WordAt.endsText_eq_false (h : source.WordAt i) (hchar : source.chars[i]? = some c) :
    endsText c = false := by
  obtain ⟨d, hchar', hd⟩ := h
  rw [hchar, Option.some.injEq] at hchar'
  exact hchar' ▸ hd

/-- The characters of an operator and of a run of text do not end text. -/
theorem TokenAt.endsText_eq_false (h : source.TokenAt i kind k)
    (hkind : kind = .text ∨ kind = .logicalOperator) (hij : i ≤ j) (hjk : j < k)
    (hchar : source.chars[j]? = some c) : endsText c = false := by
  cases h with
  | parenthesis | equals | closedQuote | openQuote | key => simp at hkind
  | operator _ hmem hat => exact (hat.wordAt hmem hij hjk).endsText_eq_false hchar
  | text hword _ _ hstop =>
    rcases Nat.eq_or_lt_of_le hij with rfl | hlt
    · exact hword.endsText_eq_false hchar
    · rw [← Bool.not_eq_true]
      intro hends
      refine hstop.2.2 j hlt hjk fun d hd => ?_
      rw [hchar, Option.some.injEq] at hd
      exact hd ▸ hends

/-- Nor do they hold white space. -/
theorem TokenAt.not_blank_within (h : source.TokenAt i kind k)
    (hkind : kind = .text ∨ kind = .logicalOperator) (hij : i ≤ j) (hjk : j < k) :
    ¬source.Blank j := by
  rintro ⟨c, hchar, hspace⟩
  have hword := h.endsText_eq_false hkind hij hjk hchar
  rw [endsText_eq_true_iff.mpr (Or.inl hspace)] at hword
  exact Bool.false_ne_true hword.symm

/-- The token that a rule makes has a place for each of its characters that ends
text. -/
theorem TokenAt.takes (h : source.TokenAt i kind k) (hij : i ≤ j) (hjk : j < k)
    (hchar : source.chars[j]? = some c) (hends : endsText c = true) :
    (⟨kind, source.slice i k, i, k⟩ : Token).Takes j c := by
  have hinside : i ≠ j → (⟨kind, source.slice i k, i, k⟩ : Token).Inside j := by
    intro hne
    exact ⟨Int.ofNat_lt.mpr (by omega), Int.ofNat_lt.mpr hjk⟩
  have hword : source.WordAt i → i ≠ j := by
    intro hword heq
    subst heq
    rw [hword.endsText_eq_false hchar] at hends
    exact Bool.false_ne_true hends
  cases id h with
  | parenthesis hfirst hc =>
    obtain rfl : i = j := by omega
    rw [hchar, Option.some.injEq] at hfirst
    exact .parenthesis rfl ⟨rfl, rfl⟩ (hfirst ▸ hc)
  | equals hfirst =>
    obtain rfl : i = j := by omega
    rw [EqualsAt, hchar, Option.some.injEq] at hfirst
    exact .equals rfl ⟨rfl, rfl⟩ hfirst
  | closedQuote hfirst hquote _ | openQuote hfirst hquote _ =>
    refine .quote rfl fun hc => hinside ?_
    intro heq
    subst heq
    rw [hchar, Option.some.injEq] at hfirst
    exact hc (hfirst ▸ hquote)
  | @key q k hfirst _ hequals hlast =>
    have hkq := hlast.1
    refine .key rfl (hinside (hword hfirst)) ?_ ?_
    · intro hc
      exact hequals.2.2 j hij (by omega) (by rw [EqualsAt, hchar, hc])
    · intro hspace
      have hkj : k ≠ j := by
        intro heq
        exact hlast.2.1 ⟨c, heq ▸ hchar, hspace⟩
      show (j : Int) + 1 < (k + 1 : Nat)
      omega
  | operator | text =>
    rw [h.endsText_eq_false (by simp) hij hjk hchar] at hends
    exact absurd hends Bool.false_ne_true

/-- The characters of a slice stand in the source. -/
theorem exists_of_mem_slice (h : c ∈ (source.slice i k).toList) :
    ∃ j, i ≤ j ∧ j < k ∧ source.chars[j]? = some c := by
  obtain ⟨n, hn⟩ := List.mem_iff_getElem?.mp h
  rw [toList_slice_natCast, List.getElem?_take] at hn
  split at hn
  · next hlt =>
    rw [List.getElem?_drop, Array.getElem?_toList] at hn
    exact ⟨i + n, by omega, by omega, hn⟩
  · exact absurd hn (by simp)

/-! ## A reading -/

/-- A character that ends text has a place in a token that covers it, or it is white
space in none. -/
theorem Reads.exists_takes (h : source.Reads i tokens) (hij : i ≤ j)
    (hchar : source.chars[j]? = some c) (hends : endsText c = true) :
    (isSpace c = true ∧ ∀ token ∈ tokens, ¬token.Covers j) ∨
      ∃ token ∈ tokens, token.Covers j ∧ token.Takes j c := by
  by_cases hcovers : ∃ token ∈ tokens, token.Covers j
  · obtain ⟨token, hmem, hcovers⟩ := hcovers
    obtain ⟨i, k, kind, rfl, htoken⟩ := h.of_mem hmem
    have hij : i ≤ j := Int.ofNat_le.mp hcovers.1
    have hjk : j < k := Int.ofNat_lt.mp hcovers.2
    exact Or.inr ⟨_, hmem, hcovers, htoken.takes hij hjk hchar hends⟩
  · have hnone : ∀ token ∈ tokens, ¬token.Covers j := by
      intro token hmem hcovers'
      exact hcovers ⟨token, hmem, hcovers'⟩
    obtain ⟨d, hchar', hspace⟩ :=
      h.tilesFrom.blank_of_not_covers hij (lt_size_of_eq_some hchar) hnone
    rw [hchar, Option.some.injEq] at hchar'
    exact Or.inl ⟨hchar' ▸ hspace, hnone⟩

theorem Reads.exists_takes_of_visible (h : source.Reads i tokens) (hij : i ≤ j)
    (hchar : source.chars[j]? = some c) (hends : endsText c = true)
    (hvisible : isSpace c = false) :
    ∃ token ∈ tokens, token.Covers j ∧ token.Takes j c := by
  rcases h.exists_takes hij hchar hends with ⟨hspace, _⟩ | htakes
  · rw [hvisible] at hspace
    exact absurd hspace Bool.false_ne_true
  · exact htakes

/-! ## Equals signs -/

/-- Tokens other than equals signs and literals hold no equals sign. -/
theorem TokenAt.count_equals (h : source.TokenAt i kind k) (hequals : kind ≠ .equals)
    (hquote : kind ≠ .quote) : (source.slice i k).toList.count equalsSign = 0 := by
  rw [List.count_eq_zero]
  intro hmem
  obtain ⟨j, hij, hjk, hchar⟩ := exists_of_mem_slice hmem
  rcases (h.takes hij hjk hchar (by decide)).of_equalsSign with ⟨heq, _⟩ | ⟨heq, _⟩
  · exact hequals heq
  · exact hquote heq

theorem Blank.count_equals (h : source.Blank i) :
    (source.slice i (i + 1 : Nat)).toList.count equalsSign = 0 := by
  rw [List.count_eq_zero]
  intro hmem
  obtain ⟨j, hij, hji, hequals⟩ := exists_of_mem_slice hmem
  obtain ⟨c, hchar, hspace⟩ := h
  obtain rfl : i = j := by omega
  rw [hchar, Option.some.injEq] at hequals
  exact (space_apart hspace).2.2 hequals

theorem EqualsAt.slice_eq (h : source.EqualsAt i) :
    (source.slice i (i + 1 : Nat)).toList = [equalsSign] := by
  obtain ⟨hlt, hchar⟩ := Array.getElem?_eq_some_iff.mp h
  rw [toList_slice_natCast, Nat.add_sub_cancel_left,
    List.drop_eq_getElem_cons (by simpa using hlt)]
  simpa using hchar

/-- The equals signs that tokens show: the tokens for equals signs, and the signs in
literals. -/
def shownEquals (tokens : List Token) : Nat :=
  tokens.countP (fun token => token.kind = .equals) +
    ((tokens.filter fun token => token.kind = .quote).flatMap fun token =>
      token.content.toList).count equalsSign

theorem shownEquals_cons (token : Token) (tokens : List Token) :
    shownEquals (token :: tokens) =
      (if token.kind = .equals then 1
        else if token.kind = .quote then token.content.toList.count equalsSign
        else 0) + shownEquals tokens := by
  unfold shownEquals
  cases hkind : token.kind <;> simp [hkind] <;> omega

/-- The tokens of a reading show every equals sign from its first position on. -/
theorem Reads.count_equals (h : source.Reads i tokens) :
    shownEquals tokens = (source.chars.toList.drop i).count equalsSign := by
  induction h with
  | done =>
    rw [show source.chars.toList.drop source.size = [] from List.drop_length]
    rfl
  | @blank i tokens hblank _ ih =>
    rw [← slice_append_drop (Nat.le_succ i), List.count_append, hblank.count_equals,
      Nat.zero_add, ih]
  | @token i k kind tokens htoken _ ih =>
    rw [shownEquals_cons, ← slice_append_drop (Nat.le_of_lt htoken.lt_stop),
      List.count_append, ← ih, Nat.add_right_cancel_iff]
    by_cases hequals : kind = .equals
    · subst hequals
      cases htoken with
      | equals hchar =>
        rw [if_pos rfl, hchar.slice_eq]
        rfl
    · by_cases hquote : kind = .quote
      · rw [if_neg hequals, if_pos hquote]
      · rw [if_neg hequals, if_neg hquote, htoken.count_equals hequals hquote]

end Source

/-- Where the characters of a text end up.  An equals sign is a token, or in a literal
behind its first character.  A parenthesis is a token, or in a literal or a key behind
its first character.  A quote is in a literal, or in a key behind its first character.
White space is in no token, or in a literal behind its first character, or in a key
between its first character and its last.  Runs of text and operators are free of all
these, and each equals sign counts once: as a token or in a literal. -/
theorem tokenize_places (text : String) :
    (∀ (i : Nat) (c : Char), text.toList[i]? = some c →
      (c = equalsSign → ∃ token ∈ tokenize text,
        token.kind = .equals ∧ token.Alone i ∨ token.kind = .quote ∧ token.Inside i) ∧
      (c ∈ parentheses → ∃ token ∈ tokenize text,
        token.kind = .parenthesis ∧ token.Alone i ∨
          (token.kind = .key ∨ token.kind = .quote) ∧ token.Inside i) ∧
      (c ∈ quotes → ∃ token ∈ tokenize text,
        token.Covers i ∧ (token.kind = .quote ∨ token.kind = .key ∧ token.Inside i)) ∧
      (isSpace c = true → (∀ token ∈ tokenize text, ¬token.Covers i) ∨
        ∃ token ∈ tokenize text, token.kind = .quote ∧ token.Inside i ∨
          token.kind = .key ∧ token.Inside i ∧ i + 1 < token.stop)) ∧
    (∀ token ∈ tokenize text, token.kind = .text ∨ token.kind = .logicalOperator →
      ∀ c ∈ token.content.toList, isSpace c = false ∧ c ∉ delimiters) ∧
    (tokenize text).countP (fun token => token.kind = .equals) +
        (((tokenize text).filter fun token => token.kind = .quote).flatMap fun token =>
          token.content.toList).count equalsSign =
      text.toList.count equalsSign := by
  have hreads := (Source.ofString text).reads_tokens
  refine ⟨?_, ?_, hreads.count_equals⟩
  · intro i c hchar
    have hchar' : (Source.ofString text).chars[i]? = some c := by
      rw [← hchar]
      exact List.getElem?_toArray
    have hplace := hreads.exists_takes_of_visible (Nat.zero_le i) hchar'
    refine ⟨?_, ?_, ?_, ?_⟩
    · intro hequals
      subst hequals
      obtain ⟨token, hmem, _, htakes⟩ := hplace (by decide) (by decide)
      exact ⟨token, hmem, htakes.of_equalsSign⟩
    · intro hparen
      have hends := endsText_eq_true_iff.mpr (Or.inr (Or.inl hparen))
      obtain ⟨token, hmem, _, htakes⟩ := hplace hends (mark_of_mem_parentheses c hparen).1
      exact ⟨token, hmem, htakes.of_parenthesis hparen⟩
    · intro hquote
      have hends := endsText_eq_true_iff.mpr (Or.inr (Or.inr (Or.inl hquote)))
      obtain ⟨token, hmem, hcovers, htakes⟩ := hplace hends (mark_of_mem_quotes c hquote).1
      exact ⟨token, hmem, hcovers, htakes.of_quote hquote⟩
    · intro hspace
      have hends := endsText_eq_true_iff.mpr (Or.inl hspace)
      rcases hreads.exists_takes (Nat.zero_le i) hchar' hends with
        ⟨_, hnone⟩ | ⟨token, hmem, _, htakes⟩
      · exact Or.inl hnone
      · exact Or.inr ⟨token, hmem, htakes.of_space hspace⟩
  · intro token hmem hkind c hc
    obtain ⟨i, k, kind, rfl, htoken⟩ := hreads.of_mem hmem
    obtain ⟨j, hij, hjk, hchar⟩ := Source.exists_of_mem_slice hc
    have hends := htoken.endsText_eq_false hkind hij hjk hchar
    rw [endsText, Bool.or_eq_false_iff] at hends
    exact ⟨hends.1, by simpa using hends.2⟩

/-- A key that takes a parenthesis, a quote and white space, and a literal with an
equals sign. -/
theorem tokenize_places_greedyKey :
    let text := "a (' =\"= )\" ("
    text.toList[2]? = some '(' ∧ text.toList[7]? = equalsSign ∧
      (∃ token ∈ tokenize text, token.kind = .parenthesis ∧ token.Alone 2 ∨
        (token.kind = .key ∨ token.kind = .quote) ∧ token.Inside 2) ∧
      (∃ token ∈ tokenize text,
        token.kind = .equals ∧ token.Alone 7 ∨ token.kind = .quote ∧ token.Inside 7) ∧
      (tokenize text).countP (fun token => token.kind = .equals) = 1 ∧
      text.toList.count equalsSign = 2 := by
  intro text
  have hparen : text.toList[2]? = some '(' := by decide +kernel
  have hequals : text.toList[7]? = equalsSign := by decide +kernel
  obtain ⟨hplaces, _, _⟩ := tokenize_places text
  exact ⟨hparen, hequals, (hplaces 2 '(' hparen).2.1 (by decide),
    (hplaces 7 equalsSign hequals).1 rfl, by decide +kernel, by decide +kernel⟩

end QueryHighlight
