import QueryHighlight.Proofs.Characters
import QueryHighlight.Proofs.Editing

/-!
# An equals sign behind ordinary text

Ordinary text is what no equals sign follows.  When one is written behind such a
text, everything from the first run of ordinary text on becomes one key.

* The tokens before the first run of text end before it, so they are settled and stay
  (`TokenAt.isSettled_of_lt`), and reading goes on at its first character
  (`Reads.exists_rest`).
* What is written behind starts with no word character, so no operator is completed
  across the seam (`not_operatorAt_of_seam`).  The run of text becomes a key up to the
  new equals sign (`TokenAt.key_of_text`).
* Every token ends in a visible character, open literals apart
  (`TokenAt.not_blank_last`), so it ends in the key when its last character lies
  before the equals sign.

`tokenize_append_absorbs` is the result.
-/

namespace QueryHighlight
namespace Source

variable {source front back : Source} {i j k q : Nat} {kind : TokenKind}
variable {before after tokens whole : List Token}

/-! ## Tokens before the first run of text -/

/-- A token that ends before the last character is settled, unless it is a run of
text. -/
theorem TokenAt.isSettled_of_lt (h : source.TokenAt i kind k) (hk : k < source.size)
    (htext : kind ≠ .text) :
    Token.isSettled source.size ⟨kind, source.slice i k, i, k⟩ = true := by
  rw [← Bool.not_eq_false, Token.isSettled_eq_false_iff, not_or, not_or]
  refine ⟨htext, ?_, ?_⟩
  · intro hoperator
    have hstop : k = source.size := Int.ofNat_inj.mp hoperator.2
    omega
  · intro hopen
    obtain rfl : kind = .quote := Token.kind_of_isUnterminated hopen
    have hstop := h.stop_eq_size (h.isUnterminated_iff.mp hopen)
    omega

/-- Behind settled tokens, a source with something behind it is read on from where the
next token of the source alone starts. -/
theorem Reads.exists_rest {next : Token} (h : front.Reads i (before ++ next :: after))
    (hsettled : ∀ token ∈ before, token.isSettled front.size = true)
    (hwhole : (front ++ back).Reads i whole) :
    ∃ (j : Nat) (rest : List Token), next.start = j ∧ whole = before ++ rest ∧
      (front ++ back).Reads j rest := by
  generalize htokens : before ++ next :: after = tokens at h
  induction h generalizing before whole with
  | done => simp at htokens
  | @blank i tokens hblank _ ih =>
    apply ih hsettled _ htokens
    apply hwhole.drop_blanks (Nat.le_succ i)
    intro j hij hj
    obtain rfl : i = j := by omega
    exact (blank_before hblank.lt_size).mpr hblank
  | @token i k kind tokens htoken _ ih =>
    cases before with
    | nil =>
      obtain ⟨rfl, rfl⟩ := List.cons.inj htokens
      exact ⟨i, whole, rfl, rfl, hwhole⟩
    | cons token before =>
      obtain ⟨rfl, hbehind⟩ := List.cons.inj htokens
      rw [List.forall_mem_cons] at hsettled
      obtain ⟨rest, rfl, hrest⟩ :=
        hwhole.eq_cons (htoken.before_of_isSettled hsettled.1)
      obtain ⟨j, rest, hstart, rfl, hreads⟩ := ih hsettled.2 hrest hbehind
      rw [slice_before i htoken.stop_le_size]
      exact ⟨j, rest, hstart, rfl, hreads⟩

/-! ## The run of text becomes a key -/

/-- No word goes across the seam, so no operator is completed there. -/
theorem not_operatorAt_of_seam (hi : i ≤ front.size)
    (hnone : ∀ operator ∈ operators, ¬front.OperatorAt operator i)
    (hseam : ¬(front ++ back).WordAt front.size) :
    ∀ operator ∈ operators, ¬(front ++ back).OperatorAt operator i := by
  intro operator hmem hat
  apply hnone operator hmem
  apply hat.of_before
  by_contra hlong
  exact hseam (hat.wordAt hmem hi (by omega))

/-- The first equals sign of the text behind is the next one from anywhere in front
where none follows. -/
theorem leastFrom_equalsAt_behind (hi : i ≤ front.size)
    (habsent : ∀ j, i ≤ j → ¬front.EqualsAt j) (hq : LeastFrom back.EqualsAt 0 q) :
    LeastFrom (front ++ back).EqualsAt i (front.size + q) := by
  refine ⟨by omega, equalsAt_behind.mpr hq.2.1, ?_⟩
  intro j hij hjq hequals
  rcases Nat.lt_or_ge j front.size with hlt | hge
  · exact habsent j hij ((equalsAt_before hlt).mp hequals)
  · obtain ⟨m, rfl⟩ := Nat.exists_eq_add_of_le hge
    exact hq.2.2 m (Nat.zero_le m) (by omega) (equalsAt_behind.mp hequals)

theorem TokenAt.key_of_text (h : front.TokenAt i .text k)
    (hseam : ¬(front ++ back).WordAt front.size) (hq : LeastFrom back.EqualsAt 0 q) :
    ∃ m, (front ++ back).TokenAt i .key (m + 1) ∧
      GreatestBelow (fun j => ¬(front ++ back).Blank j) (front.size + q) m := by
  have hi := h.lt_size
  have hseam' : (front ++ back).EqualsAt (front.size + q) := equalsAt_behind.mpr hq.2.1
  cases h with
  | text hword hnone habsent _ =>
    have hword' : (front ++ back).WordAt i := (wordAt_before hi).mpr hword
    obtain ⟨m, _, _, hlast⟩ := trimmedStop_greatest (not_blank_of_wordAt hword')
      (show i < front.size + q by omega) (Nat.le_of_lt (lt_size_of_eq_some hseam'))
    refine ⟨m, .key hword' ?_ ?_ hlast, hlast⟩
    · exact not_operatorAt_of_seam (Nat.le_of_lt hi) hnone hseam
    · exact leastFrom_equalsAt_behind (Nat.le_of_lt hi) habsent hq

/-! ## What the key takes in -/

/-- The last character of a token is visible, unless it is a literal that lacks its
closing quote. -/
theorem TokenAt.not_blank_last (h : source.TokenAt i kind k)
    (hclosed : kind = .quote → source.ClosedAt i) : ¬source.Blank (k - 1) := by
  have hik := h.lt_stop
  cases id h with
  | parenthesis | equals => exact h.not_blank
  | @closedQuote m quote _ hquote hclose =>
    intro hblank
    obtain ⟨c, hchar, hspace⟩ := hblank
    obtain rfl := Option.some.inj (hclose.2.1.1.symm.trans hchar)
    rw [(mark_of_mem_quotes quote hquote).1] at hspace
    exact Bool.false_ne_true hspace
  | openQuote hchar _ hopen =>
    obtain ⟨quote, m, hchar', him, hcloses⟩ := hclosed rfl
    obtain rfl := Option.some.inj (hchar.symm.trans hchar')
    exact absurd hcloses (hopen m him)
  | operator | text => exact h.not_blank_within (by simp) (by omega) (by omega)
  | key _ _ _ hlast => exact hlast.2.1

end Source

/-- All that is visible of a token lies between two positions, and so does all of it
unless it is a literal that lacks its closing quote. -/
structure Token.TakenIn (source : Source) (token : Token) (start stop : Nat) : Prop where
  start_le : start ≤ token.start
  start_lt : token.start < stop
  blank_of_le : ∀ j : Nat, stop ≤ j → token.Covers j → source.Blank j
  stop_le : token.isUnterminated = false → token.stop ≤ stop

namespace Source

variable {front back : Source} {i m q : Nat} {before after tokens whole : List Token}

/-- The tokens in front of the seam lie before the last visible character below an
equals sign behind it. -/
theorem Reads.takenIn (h : front.Reads i tokens)
    (hlast : GreatestBelow (fun j => ¬(front ++ back).Blank j) (front.size + q) m) :
    ∀ token ∈ tokens, token.TakenIn front i (m + 1) := by
  intro token hmem
  have hstart := h.tilesFrom.le_start token hmem
  obtain ⟨j, k, kind, rfl, htoken⟩ := h.of_mem hmem
  have hij : i ≤ j := Int.ofNat_le.mp hstart
  have hjk := htoken.lt_stop
  have hks := htoken.stop_le_size
  have hbefore : ∀ n, n < front.size → ¬front.Blank n → n ≤ m := by
    intro n hn hvisible
    by_contra hlt
    exact hlast.2.2 n (by omega) (by omega) (mt (blank_before hn).mp hvisible)
  refine ⟨hstart, ?_, ?_, ?_⟩
  · have hjm := hbefore j htoken.lt_size htoken.not_blank
    show (j : Int) < (m + 1 : Nat)
    omega
  · intro n hmn hcovers
    have hnk : n < k := Int.ofNat_lt.mp hcovers.2
    by_contra hvisible
    have hnm := hbefore n (by omega) hvisible
    omega
  · intro hterminated
    have hvisible : ¬front.Blank (k - 1) := by
      apply htoken.not_blank_last
      intro hkind
      subst hkind
      by_contra hopen
      rw [htoken.isUnterminated_iff.mpr hopen] at hterminated
      exact Bool.false_ne_true hterminated.symm
    have hkm := hbefore (k - 1) (by omega) hvisible
    show (k : Int) ≤ (m + 1 : Nat)
    omega

/-- The run of text and all tokens behind it make room for a key and its equals
sign. -/
theorem Reads.absorb {first : Token} (h : front.Reads 0 (before ++ first :: after))
    (hfirst : first.kind = .text) (hbefore : ∀ token ∈ before, token.kind ≠ .text)
    (hseam : ¬(front ++ back).WordAt front.size) (hq : LeastFrom back.EqualsAt 0 q)
    (hwhole : (front ++ back).Reads 0 whole) :
    ∃ (i m : Nat) (rest : List Token), first.start = i ∧
      GreatestBelow (fun j => ¬(front ++ back).Blank j) (front.size + q) m ∧
      whole = before ++
        ⟨.key, (front ++ back).slice i (m + 1 : Nat), i, (m + 1 : Nat)⟩ ::
        ⟨.equals, (front ++ back).slice (front.size + q : Nat) (front.size + q + 1 : Nat),
          (front.size + q : Nat), (front.size + q + 1 : Nat)⟩ :: rest ∧
      ∀ token ∈ first :: after, token.TakenIn front i (m + 1) := by
  obtain ⟨i, k, kind, rfl, _, htoken, hafter⟩ := h.of_suffix (List.suffix_append before _)
  obtain rfl : kind = .text := hfirst
  have hsettled : ∀ token ∈ before, token.isSettled front.size = true := by
    intro token hmem
    have hstop := (List.pairwise_append.mp h.tilesFrom.ordered).2.2 token hmem _
      List.mem_cons_self
    have htext := hbefore token hmem
    obtain ⟨j, m, kind, rfl, htoken'⟩ := h.of_mem (List.mem_append_left _ hmem)
    have hmi : m ≤ i := Int.ofNat_le.mp hstop
    exact htoken'.isSettled_of_lt (Nat.lt_of_le_of_lt hmi htoken.lt_size) htext
  obtain ⟨j, rest, hstart, rfl, hrest⟩ := h.exists_rest hsettled hwhole
  obtain rfl : i = j := Int.ofNat_inj.mp hstart
  obtain ⟨m, hkey, hlast⟩ := htoken.key_of_text hseam hq
  obtain ⟨rest, rfl, hbehind⟩ := hrest.eq_cons hkey
  have hblank : ∀ j, m + 1 ≤ j → j < front.size + q → (front ++ back).Blank j := by
    intro j hmj hjq
    by_contra hvisible
    exact hlast.2.2 j hmj hjq hvisible
  have hequals : (front ++ back).TokenAt (front.size + q) .equals (front.size + q + 1) :=
    .equals (equalsAt_behind.mpr hq.2.1)
  obtain ⟨rest, rfl, _⟩ := (hbehind.drop_blanks hlast.1 hblank).eq_cons hequals
  refine ⟨i, m, rest, rfl, hlast, rfl, ?_⟩
  exact Reads.takenIn (.token htoken hafter) hlast

/-- The first equals sign of a text, by its place in the list of characters. -/
theorem leastFrom_equalsAt_idxOf {text : String} (hmem : equalsSign ∈ text.toList) :
    LeastFrom (ofString text).EqualsAt 0 (text.toList.idxOf equalsSign) := by
  have hlt := List.idxOf_lt_length_iff.mpr hmem
  refine ⟨Nat.zero_le _, ?_, ?_⟩
  · rw [EqualsAt, chars_ofString, List.getElem?_eq_getElem hlt, List.getElem_idxOf]
  · intro j _ hj hequals
    rw [EqualsAt, chars_ofString, List.getElem?_eq_getElem (Nat.lt_trans hj hlt)] at hequals
    have hne := List.not_of_lt_findIdx hj
    rw [Option.some.inj hequals] at hne
    exact absurd hne (by decide)

/-- A text that starts with white space or an equals sign goes on with no word. -/
theorem not_wordAt_of_head? {text : String} {c : Char} (hhead : text.toList.head? = some c)
    (hc : isSpace c = true ∨ c = equalsSign) :
    ¬(front ++ ofString text).WordAt front.size := by
  intro hword
  obtain ⟨d, hchar, hd⟩ := (wordAt_behind (i := 0)).mp hword
  obtain rfl := Option.some.inj ((chars_zero_of_head? hhead).symm.trans hchar)
  rw [endsText_eq_true_iff.mpr (hc.imp_right fun hequals => Or.inr (Or.inr hequals))] at hd
  exact Bool.false_ne_true hd.symm

end Source

/-- Behind a text with ordinary text in it something is written that has an equals
sign and starts with one, or with white space.  The tokens before the first run of
text stay.  Then there is one key, up to the last visible character before the new
equals sign, and that equals sign.  All that was read from the first run of text on
lies in the key; only white space at the end of a literal without closing quote is
left out. -/
theorem tokenize_append_absorbs (s x : String) {before after : List Token} {first : Token}
    {c : Char} (htokens : tokenize s = before ++ first :: after)
    (hfirst : first.kind = .text) (hbefore : ∀ token ∈ before, token.kind ≠ .text)
    (hhead : x.toList.head? = some c) (hc : isSpace c = true ∨ c = equalsSign)
    (hequals : equalsSign ∈ x.toList) :
    let source := Source.ofString (s ++ x)
    let q := s.length + x.toList.idxOf equalsSign
    ∃ (p last : Nat) (rest : List Token), first.start = p ∧
      Source.GreatestBelow (fun j => ¬source.Blank j) q last ∧
      tokenize (s ++ x) = before ++
        ⟨.key, source.slice p (last + 1 : Nat), p, (last + 1 : Nat)⟩ ::
        ⟨.equals, source.slice q (q + 1 : Nat), q, (q + 1 : Nat)⟩ :: rest ∧
      ∀ token ∈ first :: after,
        token.TakenIn (Source.ofString s) p (last + 1) := by
  intro source q
  have hreads := (Source.ofString s).reads_tokens
  have hwhole := source.reads_tokens
  have hsource : source = Source.ofString s ++ Source.ofString x := Source.ofString_append s x
  change (Source.ofString s).Reads 0 (tokenize s) at hreads
  change source.Reads 0 (tokenize (s ++ x)) at hwhole
  rw [htokens] at hreads
  rw [hsource] at hwhole ⊢
  have habsorb := hreads.absorb hfirst hbefore (Source.not_wordAt_of_head? hhead hc)
    (Source.leastFrom_equalsAt_idxOf hequals) hwhole
  rwa [Source.size_ofString_eq_length] at habsorb

/-- The open literal ends in white space, which the key does not take. -/
theorem tokenize_append_absorbs_openLiteral :
    tokenize "NOT (a 'b " = [⟨.logicalOperator, "NOT", 0, 3⟩, ⟨.parenthesis, "(", 4, 5⟩] ++
        ⟨.text, "a", 5, 6⟩ :: [⟨.quote, "'b ", 7, 10⟩] ∧
      " = c=d".toList.head? = some ' ' ∧ isSpace ' ' = true ∧
      equalsSign ∈ " = c=d".toList ∧
      ∃ (p last : Nat) (rest : List Token), (5 : Int) = p ∧
        Source.GreatestBelow (fun j => ¬(Source.ofString "NOT (a 'b  = c=d").Blank j) 11 last ∧
        tokenize "NOT (a 'b  = c=d" =
          [⟨.logicalOperator, "NOT", 0, 3⟩, ⟨.parenthesis, "(", 4, 5⟩] ++
            ⟨.key, (Source.ofString "NOT (a 'b  = c=d").slice p (last + 1 : Nat), p,
              (last + 1 : Nat)⟩ ::
            ⟨.equals, "=", 11, 12⟩ :: rest ∧
        (⟨.quote, "'b ", 7, 10⟩ : Token).TakenIn (Source.ofString "NOT (a 'b ") p
          (last + 1) := by
  have htokens : tokenize "NOT (a 'b " =
      [⟨.logicalOperator, "NOT", 0, 3⟩, ⟨.parenthesis, "(", 4, 5⟩] ++
        ⟨.text, "a", 5, 6⟩ :: [⟨.quote, "'b ", 7, 10⟩] := by decide +kernel
  have hhead : " = c=d".toList.head? = some ' ' := by decide
  have hspace : isSpace ' ' = true := by decide
  have hequals : equalsSign ∈ " = c=d".toList := by decide
  obtain ⟨p, last, rest, hstart, hlast, hwhole, htaken⟩ :=
    tokenize_append_absorbs "NOT (a 'b " " = c=d" htokens rfl (by decide) hhead
      (Or.inl hspace) hequals
  refine ⟨htokens, hhead, hspace, hequals, p, last, rest, hstart, hlast, hwhole, ?_⟩
  exact htaken _ (List.mem_cons_of_mem _ List.mem_cons_self)

end QueryHighlight
