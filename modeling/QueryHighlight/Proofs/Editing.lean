import QueryHighlight.Proofs.Concatenation
import QueryHighlight.Proofs.Shape

/-!
# Tokens that survive an edit

When a text is edited, how much of it has to be read again?

* Behind the text something is written.  `Token.isSettled` says of a token that
  this cannot change it: `TokenAt.before_of_isSettled` shows it for one token,
  `tokenize_append_settled` for the leading run of settled tokens.  The test is
  exact: a token that fails it is lost behind some text
  (`not_mem_tokenize_append_equals`).
* Something in front of a position has changed.  A reading passes through every
  position that is inside no token (`Reads.split_at`), and from there on it is
  the reading of the rest alone.  All that the rest could see of the text in
  front is whether an operator at its start stands as a whole word
  (`tokenize_restart`).
-/

namespace QueryHighlight

/-! ## Text written behind -/

/-- Whatever is written behind a text of a given size, the token stays: it is no
run of text, no operator at the end, and no literal that lacks its closing
quote. -/
def Token.isSettled (size : Nat) (token : Token) : Bool :=
  token.kind != .text && !(token.kind == .logicalOperator && token.stop == size) &&
    !token.isUnterminated

theorem Token.isSettled_eq_false_iff {size : Nat} {token : Token} :
    token.isSettled size = false ↔
      token.kind = .text ∨ (token.kind = .logicalOperator ∧ token.stop = size) ∨
        token.isUnterminated = true := by
  simp only [isSettled, Bool.and_eq_false_iff, Bool.not_eq_false', Bool.and_eq_true,
    bne_eq_false_iff_eq, beq_iff_eq, or_assoc]

theorem Token.kind_of_isUnterminated {token : Token} (h : token.isUnterminated = true) :
    token.kind = .quote := by
  rw [isUnterminated, Bool.and_eq_true, beq_iff_eq] at h
  exact h.1

namespace Source

variable {source front back : Source} {i j k : Nat} {kind : TokenKind} {tokens : List Token}

theorem TokenAt.before_of_isSettled (h : front.TokenAt i kind k)
    (hsettled : Token.isSettled front.size ⟨kind, front.slice i k, i, k⟩ = true) :
    (front ++ back).TokenAt i kind k := by
  rw [← Bool.not_eq_false, Token.isSettled_eq_false_iff, not_or, not_or] at hsettled
  obtain ⟨htext, hoperator, hterminated⟩ := hsettled
  refine h.before ?_ ?_ fun heq => absurd heq htext
  · rintro rfl
    exact not_not.mp fun hopen => hterminated (h.isUnterminated_iff.mpr hopen)
  · rintro rfl
    have hks := h.stop_le_size
    have hne : k ≠ front.size := fun heq => hoperator ⟨rfl, by rw [heq]⟩
    rcases h.openAt with hle | hblank
    · omega
    · exact Or.inr ((blank_before hblank.lt_size).mpr hblank)

/-- The leading settled tokens of a source are the first ones that are read when
something stands behind it. -/
theorem Reads.takeWhile_prefix {whole : List Token} (h : front.Reads i tokens)
    (hwhole : (front ++ back).Reads i whole) :
    tokens.takeWhile (Token.isSettled front.size) <+: whole := by
  induction h generalizing whole with
  | done => exact List.nil_prefix
  | @blank i tokens hblank _ ih =>
    apply ih
    refine hwhole.drop_blanks (Nat.le_succ i) fun j hij hj => ?_
    obtain rfl : i = j := by omega
    exact (blank_before hblank.lt_size).mpr hblank
  | @token i k kind tokens htoken _ ih =>
    by_cases hsettled : Token.isSettled front.size ⟨kind, front.slice i k, i, k⟩ = true
    · obtain ⟨rest, rfl, hrest⟩ := hwhole.eq_cons (htoken.before_of_isSettled hsettled)
      rw [List.takeWhile_cons_of_pos hsettled, slice_before i htoken.stop_le_size,
        List.prefix_cons_inj]
      exact ih hrest
    · rw [List.takeWhile_cons_of_neg hsettled]
      exact List.nil_prefix

end Source

/-- The tokens of a text up to the first one that is not settled stay as they
are, whatever is written behind the text. -/
theorem tokenize_append_settled (s x : String) :
    (tokenize s).takeWhile (Token.isSettled s.length) <+: tokenize (s ++ x) := by
  have hreads := (Source.ofString (s ++ x)).reads_tokens
  rw [Source.ofString_append] at hreads
  have hprefix := (Source.ofString s).reads_tokens.takeWhile_prefix hreads
  rw [Source.size_ofString, String.length_toList, ← Source.ofString_append] at hprefix
  exact hprefix

namespace Source

variable {front back : Source} {i k : Nat} {kind : TokenKind}

/-- A token that is not settled is lost when an equals sign is written behind the
source. -/
theorem TokenAt.not_before_equals (h : front.TokenAt i kind k)
    (hsettled : Token.isSettled front.size ⟨kind, front.slice i k, i, k⟩ = false)
    (hequals : back.EqualsAt 0) : ¬(front ++ back).TokenAt i kind k := by
  intro hwhole
  have hi := h.lt_size
  have hseam : (front ++ back).EqualsAt front.size := by
    rw [← Nat.add_zero front.size]
    exact equalsAt_behind.mpr hequals
  have hsize := lt_size_of_eq_some hseam
  rcases Token.isSettled_eq_false_iff.mp hsettled with htext | ⟨hoperator, hstop⟩ | hopen
  · obtain rfl : kind = .text := htext
    exact hwhole.text_not_equalsAt front.size (Nat.le_of_lt hi) hseam
  · obtain rfl : kind = .logicalOperator := hoperator
    obtain rfl : k = front.size := Int.ofNat_inj.mp hstop
    rcases hwhole.openAt with hle | hblank
    · omega
    · exact hblank.not_equalsAt hseam
  · obtain rfl : kind = .quote := Token.kind_of_isUnterminated hopen
    have hks := h.stop_le_size
    -- The literal has the same characters in the whole, so it would be open there too.
    rw [← slice_before i hks] at hopen
    have := hwhole.stop_eq_size (hwhole.isUnterminated_iff.mp hopen)
    omega

end Source

/-- The test for settled tokens is exact: the others are lost when an equals sign
is written behind the text. -/
theorem not_mem_tokenize_append_equals (s : String) {token : Token}
    (hmem : token ∈ tokenize s) (hsettled : token.isSettled s.length = false) :
    token ∉ tokenize (s ++ String.singleton equalsSign) := by
  intro hmem'
  obtain ⟨i, k, kind, rfl, htoken⟩ := (Source.ofString s).reads_tokens.of_mem hmem
  obtain ⟨j, m, kind', heq, htoken'⟩ :=
    (Source.ofString (s ++ String.singleton equalsSign)).reads_tokens.of_mem hmem'
  rw [Token.mk.injEq, Int.natCast_inj, Int.natCast_inj] at heq
  obtain ⟨rfl, _, rfl, rfl⟩ := heq
  rw [Source.ofString_append] at htoken'
  rw [← String.length_toList, ← Source.size_ofString] at hsettled
  refine htoken.not_before_equals hsettled ?_ htoken'
  simp [Source.EqualsAt, Source.ofString]

/-! ## Reading from the middle -/

namespace Source

variable {source : Source} {i j : Nat} {tokens : List Token}

/-- A reading passes through every position that is inside no token. -/
theorem Reads.split_at (h : source.Reads j tokens) (hji : j ≤ i) (hi : i ≤ source.size)
    (hinside : ∀ token ∈ tokens, ¬(token.start < i ∧ i < token.stop)) :
    ∃ before after, tokens = before ++ after ∧ source.Reads i after ∧
      ∀ token ∈ before, token.stop ≤ i := by
  induction h with
  | done =>
    obtain rfl : i = source.size := Nat.le_antisymm hi hji
    exact ⟨[], [], rfl, .done, by simp⟩
  | @blank j tokens hblank hrest ih =>
    rcases Nat.eq_or_lt_of_le hji with rfl | hlt
    · exact ⟨[], tokens, rfl, .blank hblank hrest, by simp⟩
    · exact ih hlt hinside
  | @token j k kind tokens htoken hrest ih =>
    rcases Nat.eq_or_lt_of_le hji with rfl | hlt
    · exact ⟨[], _, rfl, .token htoken hrest, by simp⟩
    · rw [List.forall_mem_cons] at hinside
      have hki : k ≤ i := by
        by_contra hik
        exact hinside.1 ⟨Int.ofNat_lt.mpr hlt, Int.ofNat_lt.mpr (Nat.lt_of_not_le hik)⟩
      obtain ⟨before, after, rfl, hafter, hbefore⟩ := ih hki hinside.2
      refine ⟨_ :: before, after, rfl, hafter, ?_⟩
      exact List.forall_mem_cons.mpr ⟨Int.ofNat_le.mpr hki, hbefore⟩

/-- From a position inside no token on, the tokens are the ones that are read
there. -/
theorem Reads.filter_start (h : source.Reads 0 tokens) {after : List Token} (hi : i ≤ source.size)
    (hinside : ∀ token ∈ tokens, ¬(token.start < i ∧ i < token.stop))
    (hafter : source.Reads i after) :
    tokens.filter (fun token => (i : Int) ≤ token.start) = after := by
  obtain ⟨before, after', rfl, hafter', hbefore⟩ := h.split_at (Nat.zero_le i) hi hinside
  obtain rfl := hafter'.unique hafter
  have hdropped : before.filter (fun token => (i : Int) ≤ token.start) = [] := by
    rw [List.filter_eq_nil_iff]
    intro token hmem
    have hcuts := h.tilesFrom.cuts token (List.mem_append_left _ hmem)
    have hlt := hcuts.start_lt_stop
    have hle := hbefore token hmem
    rw [decide_eq_true_eq]
    omega
  have hkept : after'.filter (fun token => (i : Int) ≤ token.start) = after' := by
    rw [List.filter_eq_self]
    intro token hmem
    exact decide_eq_true (hafter.tilesFrom.le_start token hmem)
  rw [List.filter_append, hdropped, hkept, List.nil_append]

/-- A source is what comes before a position and what comes from it on. -/
theorem exists_append_slice (source : Source) (hi : i ≤ source.size) :
    ∃ front : Source, front.size = i ∧
      source = front ++ ofString (source.slice i source.size) := by
  refine ⟨⟨source.chars.extract 0 i⟩, ?_, ?_⟩
  · show (source.chars.extract 0 i).size = i
    rw [Array.size_extract, chars_size]
    omega
  · have hback : ofString (source.slice i source.size) =
        ⟨source.chars.extract i source.size⟩ := by
      rw [slice, ofString, String.toList_ofList, Array.toArray_toList, clamp_natCast,
        clamp_natCast, Nat.min_eq_left hi, Nat.min_self]
    rw [hback]
    show source = ⟨source.chars.extract 0 i ++ source.chars.extract i source.chars.size⟩
    rw [Array.extract_append_extract, Nat.zero_min,
      Nat.max_eq_right (show i ≤ source.chars.size from hi), Array.extract_size]

end Source

/-- From a position that is inside no token, a text is read as if what comes
before were not there, unless a visible character before it keeps an operator
there from standing as a whole word. -/
theorem tokenize_restart (text : String) (i : Nat) (hi : i ≤ text.length)
    (hinside : ∀ token ∈ tokenize text, ¬(token.start < i ∧ i < token.stop))
    (hstart : (Source.ofString text).OpenBefore i ∨
      ∀ operator ∈ operators,
        ¬(Source.ofString ((Source.ofString text).slice i text.length)).OperatorAt operator 0) :
    (tokenize text).filter (fun token => (i : Int) ≤ token.start) =
        (tokenize ((Source.ofString text).slice i text.length)).map (Token.shift i) ∧
      ∀ token ∈ tokenize text, ¬(i : Int) ≤ token.start → token.stop ≤ i := by
  rw [← String.length_toList, ← Source.size_ofString] at hi hstart ⊢
  have hreads := (Source.ofString text).reads_tokens
  obtain ⟨front, hfront, heq⟩ := (Source.ofString text).exists_append_slice hi
  generalize (Source.ofString text).slice i (Source.ofString text).size = rest at heq hstart ⊢
  have hrest : (Source.ofString text).Reads i ((tokenize rest).map (Token.shift i)) := by
    rw [heq, ← hfront]
    refine (Source.ofString rest).reads_tokens.behind ?_
    intro k htoken
    rw [← heq, hfront]
    cases htoken with
    | operator _ hmem hat => exact hstart.resolve_right fun hnone => hnone _ hmem hat
  refine ⟨hreads.filter_start hi hinside hrest, ?_⟩
  intro token hmem hstart
  have hnot := hinside token hmem
  omega

/-- Text right behind a literal, which only begins like an operator. -/
def touchingText : String :=
  "k='v'orz (AND"

theorem tokenize_restart_behind_quote :
    (∀ token ∈ tokenize touchingText, ¬(token.start < (5 : Nat) ∧ (5 : Nat) < token.stop)) ∧
      (∀ operator ∈ operators, ¬(Source.ofString "orz (AND").OperatorAt operator 0) ∧
      (tokenize touchingText).filter (fun token => ((5 : Nat) : Int) ≤ token.start) =
        (tokenize "orz (AND").map (Token.shift 5) := by
  have hinside : ∀ token ∈ tokenize touchingText,
      ¬(token.start < (5 : Nat) ∧ (5 : Nat) < token.stop) := by decide +kernel
  have hstart : ∀ operator ∈ operators,
      ¬(Source.ofString "orz (AND").OperatorAt operator 0 := by decide +kernel
  have hrest : (Source.ofString touchingText).slice (5 : Nat) touchingText.length =
      "orz (AND" := by decide +kernel
  have hrestart := (tokenize_restart touchingText 5 (by decide) hinside
    (Or.inr (hrest ▸ hstart))).1
  rw [hrest] at hrestart
  exact ⟨hinside, hstart, hrestart⟩

end QueryHighlight
