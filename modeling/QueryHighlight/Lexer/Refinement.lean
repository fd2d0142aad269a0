import QueryHighlight.Lexer.Grammar
import QueryHighlight.Lexer.Tokenize

/-!
# The lexer follows the grammar

The lexer and the grammar say the same in two ways: the lexer moves a cursor
through integer positions and remembers the next equals sign, the grammar
names least and greatest positions.  This module connects them.

There are four groups.

* The decisions of `QueryHighlight.Lexer.Extent` at a position of the source,
  each as a statement of the grammar.
* What is remembered about the next equals sign.  `Lookahead.Right` holds at
  the start, is kept when the cursor moves forward, and makes `lookAhead` give
  the next equals sign.
* One rule.  `readNext_reads` is the case distinction over the rules: the
  cursor moves past white space, or past a token of the grammar.
* The whole run.  `readAll_reads` is the induction, and `reads_tokens` is its
  result: the tokens of a source are read from its first position.
-/

namespace QueryHighlight

/-! ## Decisions as statements of the grammar -/

namespace Source

theorem chars_size (source : Source) : source.chars.size = source.size := rfl

theorem isSome_of_lt (source : Source) {i : Nat} (h : i < source.size) :
    ∃ c, source.chars[i]? = some c :=
  ⟨source.chars[i], Array.getElem?_eq_getElem h⟩

theorem lt_size_of_eq_some {source : Source} {i : Nat} {c : Char}
    (h : source.chars[i]? = some c) : i < source.size :=
  (Array.getElem?_eq_some_iff.mp h).1

theorem isSpaceAt_iff_openAt (source : Source) (i : Nat) :
    source.isSpaceAt (i : Int) true = true ↔ source.OpenAt i := by
  unfold isSpaceAt OpenAt Blank
  rw [get?_natCast]
  split
  · simp only [true_iff]; omega
  · next hout =>
    obtain ⟨c, hc⟩ := isSome_of_lt source (i := i) (by omega)
    have hin : ¬source.size ≤ i := by omega
    simp [hc, hin]

theorem isSpaceAt_iff_openBefore (source : Source) {i : Nat}
    (hi : i ≤ source.size) :
    source.isSpaceAt ((i : Int) - 1) true = true ↔ source.OpenBefore i := by
  rcases Nat.eq_zero_or_pos i with rfl | hpos
  · simp [isSpaceAt, OpenBefore]
  · have hcast : (i : Int) - 1 = ((i - 1 : Nat) : Int) := by omega
    rw [hcast, isSpaceAt_iff_openAt]
    unfold OpenAt OpenBefore
    constructor
    · rintro (h | h)
      · omega
      · exact Or.inr h
    · rintro (h | h)
      · omega
      · exact Or.inr h

theorem operatorStandsAt_iff (source : Source) (operator : String) {i : Nat}
    (hi : i ≤ source.size) :
    source.operatorStandsAt operator i = true ↔ source.OperatorAt operator i := by
  unfold operatorStandsAt OperatorAt
  have hcast : (i : Int) + operator.length = ((i + operator.length : Nat) : Int) := by
    omega
  simp only [hcast, Bool.and_eq_true, isSpaceAt_iff_openBefore source hi,
    isSpaceAt_iff_openAt]

theorem operatorStop?_eq_some {source : Source} {i : Nat} {stop : Int}
    (hi : i ≤ source.size) (h : source.operatorStop? i = some stop) :
    ∃ operator ∈ operators, source.OperatorAt operator i ∧
      stop = ((i + operator.length : Nat) : Int) := by
  obtain ⟨operator, hfind, rfl⟩ := Option.map_eq_some_iff.mp h
  refine ⟨operator, List.mem_of_find?_eq_some hfind, ?_, by omega⟩
  refine (operatorStandsAt_iff source operator hi).mp ?_
  exact List.find?_some (p := fun operator => source.operatorStandsAt operator i) hfind

theorem operatorStop?_eq_none {source : Source} {i : Nat} (hi : i ≤ source.size)
    (h : source.operatorStop? i = none) :
    ∀ operator ∈ operators, ¬source.OperatorAt operator i := by
  intro operator hmem hat
  refine List.find?_eq_none.mp (Option.map_eq_none_iff.mp h) operator hmem ?_
  exact (operatorStandsAt_iff source operator hi).mpr hat

/-- The letters of an operator all lie in the source. -/
theorem operatorAt_le {source : Source} {operator : String} {i : Nat}
    (hi : i ≤ source.size) (h : source.OperatorAt operator i) :
    i + operator.length ≤ source.size := by
  have hspells := congrArg List.length (beq_iff_eq.mp h.1)
  have hcast : (i : Int) + operator.length = ((i + operator.length : Nat) : Int) := by
    omega
  simp only [hcast, slice, clamp_natCast, List.length_map, String.toList_ofList,
    Array.length_toList, Array.size_extract, chars_size,
    String.length_toList] at hspells
  omega

/-- A search between two positions of the source stops at the least one where
the test holds, or else at its bound. -/
theorem firstFrom_least {p : Int → Bool} {P : Nat → Prop} {i stop : Nat}
    (hp : ∀ k, i ≤ k → k < stop → (p k = true ↔ P k)) (hi : i ≤ stop) :
    ∃ k : Nat, firstFrom p i stop = k ∧ i ≤ k ∧ k ≤ stop ∧
      (∀ j, i ≤ j → j < k → ¬P j) ∧ (k < stop → P k) := by
  have hle := le_firstFrom p i stop
  have hge : firstFrom p i stop ≤ stop := firstFrom_le p (by omega)
  obtain ⟨k, hk⟩ := Int.eq_ofNat_of_zero_le (a := firstFrom p i stop) (by omega)
  refine ⟨k, hk, by omega, by omega, ?_, ?_⟩
  · intro j hij hjk hj
    have hhi : (j : Int) < firstFrom p i stop := by omega
    have hfails := firstFrom_fails (Int.ofNat_le.mpr hij) hhi
    rw [(hp j hij (by omega)).mpr hj] at hfails
    exact absurd hfails (by decide)
  · intro hlt
    have hbelow : firstFrom p i stop < stop := by omega
    have hholds := firstFrom_holds hbelow
    rw [hk] at hholds
    exact (hp k (by omega) hlt).mp hholds

theorem quoteStop_tokenAt {source : Source} {quote : Char} {i : Nat}
    (hchar : source.chars[i]? = some quote) (hquote : quote ∈ quotes) :
    ∃ k : Nat, source.quoteStop quote i = k ∧ k ≤ source.size ∧
      source.TokenAt i .quote k := by
  have hi := lt_size_of_eq_some hchar
  have hp : ∀ k, i + 1 ≤ k → k < source.size →
      (source.closesQuote quote k = true ↔ source.Closes quote k) := by
    intro k hk _
    have hcast : (k : Int) - 1 = ((k - 1 : Nat) : Int) := by omega
    simp only [closesQuote, Closes, hcast, get?_natCast, Bool.and_eq_true,
      beq_iff_eq, bne_iff_ne]
  obtain ⟨k, hk, hik, hks, hleast, hholds⟩ := firstFrom_least hp hi
  have hcast : (i : Int) + 1 = ((i + 1 : Nat) : Int) := by omega
  simp only [quoteStop, hcast, hk]
  by_cases hlt : k < source.size
  · refine ⟨k + 1, by rw [if_pos (by omega)]; omega, hlt, ?_⟩
    exact .closedQuote hchar hquote ⟨hik, hholds hlt, hleast⟩
  · refine ⟨source.size, by rw [if_neg (by omega)], Nat.le_refl _, ?_⟩
    refine .openQuote hchar hquote fun j hj hcloses => ?_
    exact hleast j hj (by have := lt_size_of_eq_some hcloses.1; omega) hcloses

theorem trimmedStop_greatest {source : Source} {i q : Nat}
    (hblank : ¬source.Blank i) (hiq : i < q) (hq : q ≤ source.size) :
    ∃ k : Nat, source.trimmedStop i q = .ok ((k + 1 : Nat) : Int) ∧ i ≤ k ∧
      GreatestBelow (fun j => ¬source.Blank j) q k := by
  induction q with
  | zero => omega
  | succ m ih =>
    obtain ⟨c, hc⟩ := isSome_of_lt source (i := m) (by omega)
    have hcast : ((m + 1 : Nat) : Int) - 1 = (m : Int) := by omega
    rw [trimmedStop, if_pos (by omega), hcast, get?_natCast, hc]
    by_cases hspace : isSpace c = true
    · have hne : i ≠ m := fun h => hblank (h ▸ ⟨c, hc, hspace⟩)
      obtain ⟨k, hk, hik, hlt, hnot, hgreatest⟩ := ih (by omega) (by omega)
      refine ⟨k, by simpa only [hspace, if_true] using hk, hik, by omega, hnot, ?_⟩
      intro j hkj hjm
      rcases Nat.lt_or_eq_of_le (Nat.le_of_lt_succ hjm) with h | rfl
      · exact hgreatest j hkj h
      · exact fun h => h ⟨c, hc, hspace⟩
    · refine ⟨m, by simp only [hspace]; rfl, by omega, by omega, ?_, by omega⟩
      rintro ⟨d, hd, hdspace⟩
      rw [hc, Option.some.injEq] at hd
      exact hspace (hd ▸ hdspace)

theorem textStop_least {source : Source} {i : Nat} (hword : source.WordAt i) :
    ∃ k : Nat, source.textStop i = k ∧ k ≤ source.size ∧
      LeastFrom source.TextEnds (i + 1) k := by
  obtain ⟨c, hc, hends⟩ := hword
  have hi := lt_size_of_eq_some hc
  have hp : ∀ k, i ≤ k → k < source.size →
      (source.endsTextAt k = true ↔ source.TextEnds k) := by
    intro k _ hk
    obtain ⟨d, hd⟩ := isSome_of_lt source hk
    simp only [endsTextAt, TextEnds, get?_natCast, hd, Option.any_some,
      Option.some.injEq, forall_eq']
  obtain ⟨k, hk, hik, hks, hleast, hholds⟩ := firstFrom_least hp (Nat.le_of_lt hi)
  have hki : k ≠ i := by
    rintro rfl
    have := hholds hi c hc
    rw [hends] at this
    exact absurd this (by decide)
  refine ⟨k, hk, hks, by omega, ?_, fun j hj hjk => hleast j (by omega) hjk⟩
  by_cases hlt : k < source.size
  · exact hholds hlt
  · intro d hd
    have := lt_size_of_eq_some hd
    omega

theorem find?_least (source : Source) (i : Nat) :
    match source.find? equalsSign i with
    | some q => LeastFrom source.EqualsAt i q
    | none => ∀ q, i ≤ q → ¬source.EqualsAt q := by
  have hstart : source.searchStart i = i := if_pos (Int.natCast_nonneg i)
  simp only [find?, hstart]
  rcases Nat.lt_or_ge source.size i with hout | hi
  · rw [firstFrom, if_neg (by omega)]
    intro q hq hequals
    have := lt_size_of_eq_some hequals
    omega
  · obtain ⟨k, hk, hik, hks, hleast, hholds⟩ :=
      firstFrom_least (p := fun j => source.get? j == some equalsSign)
        (P := source.EqualsAt)
        (fun k _ _ => by simp only [EqualsAt, get?_natCast, beq_iff_eq]) hi
    simp only [hk, Int.toNat_natCast]
    by_cases hlt : k < source.size
    · rw [if_pos (by omega)]
      exact ⟨hik, hholds hlt, hleast⟩
    · rw [if_neg (by omega)]
      intro q hq hequals
      exact hleast q hq (by have := lt_size_of_eq_some hequals; omega) hequals

/-! ## The selection of a rule -/

theorem wordAt_of_unmarked {source : Source} {i : Nat} {c : Char}
    (hchar : source.chars[i]? = some c) (hspace : ¬isSpace c = true)
    (hparen : c ∉ parentheses) (hequals : c ≠ equalsSign) (hquote : c ∉ quotes) :
    source.WordAt i := by
  refine ⟨c, hchar, ?_⟩
  simp only [endsText, delimiters, Bool.or_eq_false_iff, Bool.not_eq_true] at *
  refine ⟨hspace, ?_⟩
  rw [← Bool.not_eq_true, List.contains_iff_mem]
  simp only [List.mem_append, List.mem_singleton, not_or]
  exact ⟨⟨hparen, hquote⟩, hequals⟩

theorem not_blank_of_wordAt {source : Source} {i : Nat} (h : source.WordAt i) :
    ¬source.Blank i := by
  obtain ⟨c, hc, hends⟩ := h
  rintro ⟨d, hd, hspace⟩
  rw [hc, Option.some.injEq] at hd
  subst hd
  simp [endsText, hspace] at hends

theorem not_equalsAt_of_wordAt {source : Source} {i : Nat} (h : source.WordAt i) :
    ¬source.EqualsAt i := by
  obtain ⟨c, hc, hends⟩ := h
  intro hequals
  rw [EqualsAt, hc, Option.some.injEq] at hequals
  subst hequals
  exact absurd hends (by decide)

end Source

/-! ## What is remembered -/

/-- What is remembered about the next equals sign is true of a source, for a
cursor at `i` or further on. -/
def Lookahead.Right (source : Source) (i : Nat) : Lookahead → Prop
  | .unsearched => True
  | .absent => ∀ q, i ≤ q → ¬source.EqualsAt q
  | .found q => source.EqualsAt q ∧ ∀ j, i ≤ j → j < q → ¬source.EqualsAt j

theorem Lookahead.Right.mono {source : Source} {i k : Nat} {lookahead : Lookahead}
    (h : lookahead.Right source i) (hik : i ≤ k) : lookahead.Right source k := by
  cases lookahead with
  | unsearched => trivial
  | absent => exact fun q hq => h q (by omega)
  | found q => exact ⟨h.1, fun j hj hjq => h.2 j (by omega) hjq⟩

namespace Lexer

/-- After looking ahead, the next equals sign is known. -/
theorem lookAhead_position {lexer : Lexer} {i : Nat} (hpos : lexer.pos = i)
    (hright : lexer.lookahead.Right lexer.source i) :
    lexer.lookAhead.lookahead.Right lexer.source i ∧
      match lexer.lookAhead.lookahead.position? with
      | some q => Source.LeastFrom lexer.source.EqualsAt i q
      | none => ∀ q, i ≤ q → ¬lexer.source.EqualsAt q := by
  have hsearch := Source.find?_least lexer.source i
  unfold lookAhead
  split
  · rw [search_lookahead, hpos]
    cases hfind : lexer.source.find? equalsSign (i : Int) with
    | none =>
        rw [hfind] at hsearch
        exact ⟨hsearch, hsearch⟩
    | some q =>
        rw [hfind] at hsearch
        exact ⟨⟨hsearch.2.1, hsearch.2.2⟩, hsearch⟩
  · next hfresh =>
    refine ⟨hright, ?_⟩
    cases hlook : lexer.lookahead with
    | unsearched => simp [hlook, Lookahead.isStale] at hfresh
    | absent => rw [hlook] at hright; exact hright
    | found q =>
        rw [hlook] at hright
        simp only [hlook, Lookahead.isStale, hpos, decide_eq_true_eq] at hfresh
        exact ⟨by omega, hright⟩

/-! ## One rule -/

/-- What one rule does from a state at position `i`: it passes over white
space, or makes a token of the grammar, and what is remembered stays true. -/
def ReadsOne (lexer : Lexer) (i : Nat) (outcome : Outcome Unit) : Prop :=
  outcome.answer = .ok () ∧ outcome.lexer.source = lexer.source ∧
    ∃ k : Nat, i < k ∧ k ≤ lexer.source.size ∧ outcome.lexer.pos = k ∧
      outcome.lexer.lookahead.Right lexer.source k ∧
      (lexer.source.Blank i ∧ k = i + 1 ∧ outcome.lexer.tokens = lexer.tokens ∨
        ∃ kind, lexer.source.TokenAt i kind k ∧
          outcome.lexer.tokens =
            lexer.tokens.push ⟨kind, lexer.source.slice i k, i, k⟩)

theorem readsOne_take {lexer before : Lexer} {i k : Nat} {kind : TokenKind}
    (hsource : before.source = lexer.source) (htokens : before.tokens = lexer.tokens)
    (hpos : before.pos = i) (hright : before.lookahead.Right lexer.source i)
    (hik : i < k) (hk : k ≤ lexer.source.size)
    (htoken : lexer.source.TokenAt i kind k) :
    lexer.ReadsOne i ⟨.ok (), before.take kind k⟩ := by
  refine ⟨rfl, hsource, k, hik, hk, rfl, hright.mono (by omega), ?_⟩
  refine Or.inr ⟨kind, htoken, ?_⟩
  simp only [take, emit, hsource, htokens, hpos]

private theorem readWord_reads {lexer : Lexer} {i : Nat} (hpos : lexer.pos = i)
    (hi : i < lexer.source.size) (hright : lexer.lookahead.Right lexer.source i)
    (hword : lexer.source.WordAt i) : lexer.ReadsOne i lexer.readWord := by
  unfold readWord readOperator
  rw [hpos]
  cases hstop : lexer.source.operatorStop? (i : Int) with
  | some stop =>
      obtain ⟨operator, hmem, hat, heq⟩ :=
        Source.operatorStop?_eq_some (Nat.le_of_lt hi) hstop
      have hlt := Source.lt_of_operatorStop? hstop
      subst heq
      exact readsOne_take rfl rfl hpos hright (by omega)
        (Source.operatorAt_le (Nat.le_of_lt hi) hat) (.operator hword hmem hat)
  | none =>
      have hnone := Source.operatorStop?_eq_none (Nat.le_of_lt hi) hstop
      obtain ⟨hright', hnext⟩ := lookAhead_position hpos hright
      simp only [readKey]
      cases hposition : lexer.lookAhead.lookahead.position? with
      | none =>
          rw [hposition] at hnext
          obtain ⟨k, hk, hks, hleast⟩ := Source.textStop_least hword
          have ⟨c, hc, _⟩ := hword
          have hik : i < k := hleast.1
          simp only [readText, atEnd, lookAhead_source, lookAhead_pos, hpos,
            Source.get?_natCast, hc, hk]
          rw [if_neg (by simpa using hi), if_pos (by omega)]
          exact readsOne_take (lookAhead_source lexer) (lookAhead_tokens lexer)
            (by rw [lookAhead_pos, hpos]) hright' hik hks
            (.text hword hnone hnext hleast)
      | some q =>
          rw [hposition] at hnext
          have hiq : i < q := by
            rcases Nat.lt_or_eq_of_le hnext.1 with h | rfl
            · exact h
            · exact absurd hnext.2.1 (Source.not_equalsAt_of_wordAt hword)
          have hqs := Source.lt_size_of_eq_some hnext.2.1
          obtain ⟨k, hk, hik, hgreatest⟩ := Source.trimmedStop_greatest
            (Source.not_blank_of_wordAt hword) hiq (Nat.le_of_lt hqs)
          simp only [readKeyBefore, lookAhead_source, lookAhead_pos, hpos, hk]
          rw [if_pos (by omega)]
          exact readsOne_take (lookAhead_source lexer) (lookAhead_tokens lexer)
            (by rw [lookAhead_pos, hpos]) hright' (by omega)
            (by have := hgreatest.1; omega) (.key hword hnone hnext hgreatest)

/-- Every rule that is applied inside the source reads what the grammar says. -/
theorem readNext_reads {lexer : Lexer} {i : Nat} (hpos : lexer.pos = i)
    (hi : i < lexer.source.size) (hright : lexer.lookahead.Right lexer.source i) :
    lexer.ReadsOne i lexer.readNext := by
  obtain ⟨c, hc⟩ := Source.isSome_of_lt lexer.source hi
  have hcast : (i : Int) + 1 = ((i + 1 : Nat) : Int) := by omega
  unfold readNext
  simp only [hpos, Source.get?_natCast, hc, hcast]
  split
  · next hspace =>
    refine ⟨rfl, rfl, i + 1, by omega, hi, ?_, hright.mono (by omega), ?_⟩
    · simp only [skip_pos, hpos, hcast]
    · exact Or.inl ⟨⟨c, hc, hspace⟩, rfl, rfl⟩
  · next hspace =>
    split
    · next hparen =>
      exact readsOne_take rfl rfl hpos hright (by omega) hi (.parenthesis hc hparen)
    · next hparen =>
      split
      · next hequals =>
        exact readsOne_take rfl rfl hpos hright (by omega) hi
          (.equals (by rw [Source.EqualsAt, hc, hequals]))
      · next hequals =>
        split
        · next hquote =>
          obtain ⟨k, hk, hks, htoken⟩ := Source.quoteStop_tokenAt hc hquote
          have hik : (i : Int) < k :=
            hk ▸ Source.lt_quoteStop (by rw [Source.get?_natCast, hc])
          simp only [readQuote, hpos, Source.get?_natCast, hc, hk]
          exact readsOne_take rfl rfl hpos hright (by omega) hks htoken
        · next hquote =>
          exact readWord_reads hpos hi hright
            (Source.wordAt_of_unmarked hc hspace hparen hequals hquote)

/-! ## The whole run -/

/-- From a position inside the source, or at its end, the lexer reads what the
grammar says and stops at the end. -/
theorem readAll_reads (lexer : Lexer) {i : Nat} (hpos : lexer.pos = i)
    (hi : i ≤ lexer.source.size) (hright : lexer.lookahead.Right lexer.source i) :
    lexer.readAll.answer = .ok () ∧ lexer.readAll.lexer.pos = lexer.source.size ∧
      ∃ tokens, lexer.source.Reads i tokens ∧
        lexer.readAll.lexer.tokens.toList = lexer.tokens.toList ++ tokens := by
  induction hleft : lexer.source.size - i using Nat.strongRecOn
    generalizing lexer i with
  | ind left ih =>
    rw [readAll]
    split
    · next hend =>
      have heq : i = lexer.source.size := by
        simp only [atEnd, hpos, decide_eq_true_eq] at hend
        omega
      exact ⟨rfl, by rw [hpos, heq], [], heq ▸ .done, by simp⟩
    · next hend =>
      have hlt : i < lexer.source.size := by
        simp only [atEnd, hpos, decide_eq_true_eq] at hend
        omega
      obtain ⟨hok, hsource, k, hik, hks, hposk, hrightk, hread⟩ :=
        readNext_reads hpos hlt hright
      split
      · next fault after hnext => simp [hnext] at hok
      · next after hnext =>
        simp only [hnext] at hsource hposk hrightk hread
        obtain ⟨hok', hpos', tokens, hreads, htokens⟩ :=
          ih (lexer.source.size - k) (by omega) after hposk
            (by rw [hsource]; exact hks) (by rw [hsource]; exact hrightk)
            (by rw [hsource])
        rw [hsource] at hpos' hreads
        refine ⟨hok', hpos', ?_⟩
        rcases hread with ⟨hblank, rfl, hsame⟩ | ⟨kind, htoken, hpush⟩
        · exact ⟨tokens, .blank hblank hreads, by rw [htokens, hsame]⟩
        · exact ⟨_, .token htoken hreads, by rw [htokens, hpush]; simp⟩

end Lexer

/-- Reading a source succeeds, and ends at its end. -/
theorem Lexer.tokenize_ofSource (source : Source) :
    (Lexer.ofSource source).tokenize.answer = .ok source.tokens ∧
      (Lexer.ofSource source).tokenize.lexer.pos = source.size := by
  obtain ⟨hok, hpos, _⟩ :=
    Lexer.readAll_reads (Lexer.ofSource source) (i := 0) rfl (Nat.zero_le _) trivial
  unfold Source.tokens Lexer.tokenize
  simp only [show (Lexer.ofSource source).reset = Lexer.ofSource source from rfl]
  split
  · next hread => simp [hread] at hok
  · next hread =>
    rw [hread] at hpos
    exact ⟨rfl, hpos⟩

/-- The tokens of a source are those that the grammar reads from its first
position. -/
theorem Source.reads_tokens (source : Source) : source.Reads 0 source.tokens := by
  obtain ⟨hok, _, tokens, hreads, htokens⟩ :=
    Lexer.readAll_reads (Lexer.ofSource source) (i := 0) rfl (Nat.zero_le _) trivial
  have heq : source.tokens = tokens := by
    unfold Source.tokens Lexer.tokenize
    simp only [show (Lexer.ofSource source).reset = Lexer.ofSource source from rfl]
    split
    · next hread => simp [hread] at hok
    · next hread => rw [hread] at htokens; simpa [Lexer.ofSource] using htokens
  exact heq ▸ hreads

end QueryHighlight
