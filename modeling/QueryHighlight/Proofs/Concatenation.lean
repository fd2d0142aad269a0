import QueryHighlight.Proofs.Reading

/-!
# Tokens of one text behind another

When a text stands behind another one, which tokens of the two are tokens of
both together?  The lexer looks in both directions from a token, so the answer
depends on the rule.

* Text in front matters to operators only, and only to one that starts the text
  behind (`TokenAt.behind`, `Reads.behind`).
* Text behind matters to a literal that is not closed, to an operator at the
  seam, and to a run of text, which an equals sign anywhere behind turns into a
  key (`TokenAt.before`).  Keys and all other tokens stay as they are.

`Reads.before` and `Reads.behind` carry this from one token to a reading.  With
white space at the seam, no open literal in front and no equals sign that reaches
a run of text, the tokens of the whole are those of the two parts
(`Reads.append_space`).
-/

namespace QueryHighlight

/-! ## Sources behind each other -/

namespace Source

/-- The characters of one source, and then those of another. -/
instance : Append Source where
  append front back := ⟨front.chars ++ back.chars⟩

variable {front back : Source} {i k : Nat}

theorem ofString_append (s t : String) :
    ofString (s ++ t) = ofString s ++ ofString t := by
  show (⟨(s ++ t).toList.toArray⟩ : Source) = ⟨s.toList.toArray ++ t.toList.toArray⟩
  rw [String.toList_append, List.append_toArray]

theorem size_append (front back : Source) :
    (front ++ back).size = front.size + back.size :=
  Array.size_append

theorem append_assoc (a b c : Source) : a ++ b ++ c = a ++ (b ++ c) := by
  show (⟨a.chars ++ b.chars ++ c.chars⟩ : Source) = ⟨a.chars ++ (b.chars ++ c.chars)⟩
  rw [Array.append_assoc]

theorem chars_before (h : i < front.size) :
    (front ++ back).chars[i]? = front.chars[i]? :=
  Array.getElem?_append_left h

theorem chars_behind (front back : Source) (i : Nat) :
    (front ++ back).chars[front.size + i]? = back.chars[i]? := by
  show (front.chars ++ back.chars)[front.chars.size + i]? = back.chars[i]?
  rw [Array.getElem?_append_right (Nat.le_add_right _ _), Nat.add_sub_cancel_left]

theorem toList_chars_append (front back : Source) :
    (front ++ back).chars.toList = front.chars.toList ++ back.chars.toList :=
  Array.toList_append

theorem slice_before (i : Nat) (hk : k ≤ front.size) :
    (front ++ back).slice i k = front.slice i k := by
  apply String.toList_inj.mp
  rw [toList_slice_natCast, toList_slice_natCast, toList_chars_append]
  rcases Nat.le_total i k with hik | hki
  · rw [List.drop_append_of_le_length (Nat.le_trans hik hk), List.take_append_of_le_length]
    rw [List.length_drop]
    exact Nat.sub_le_sub_right hk i
  · rw [Nat.sub_eq_zero_of_le hki, List.take_zero, List.take_zero]

theorem slice_behind (front back : Source) (i k : Nat) :
    (front ++ back).slice (front.size + i : Nat) (front.size + k : Nat) = back.slice i k := by
  have hlength : front.chars.toList.length = front.size := rfl
  apply String.toList_inj.mp
  rw [toList_slice_natCast, toList_slice_natCast, toList_chars_append, List.drop_append,
    List.drop_eq_nil_of_le (by omega), List.nil_append, hlength, Nat.add_sub_cancel_left,
    Nat.add_sub_add_left]

/-! ## Least and greatest positions, moved -/

/-- The least position depends only on how the test comes out between the start
and itself, wherever that is. -/
theorem LeastFrom.carry {p p' : Nat → Prop} (m n : Nat)
    (hp : ∀ j, i ≤ j → j ≤ k → (p (m + j) ↔ p' (n + j))) (h : LeastFrom p (m + i) (m + k)) :
    LeastFrom p' (n + i) (n + k) := by
  obtain ⟨hik, hk, hleast⟩ := h
  refine ⟨by omega, (hp k (by omega) (Nat.le_refl k)).mp hk, ?_⟩
  intro j hij hjk hj
  obtain ⟨d, rfl⟩ := Nat.exists_eq_add_of_le (Nat.le_trans (Nat.le_add_right n i) hij)
  have hid : i ≤ d := by omega
  have hdk : d < k := by omega
  exact hleast (m + d) (by omega) (by omega) ((hp d hid (Nat.le_of_lt hdk)).mpr hj)

theorem LeastFrom.move {p p' : Nat → Prop} (n : Nat)
    (hp : ∀ j, i ≤ j → j ≤ k → (p j ↔ p' (n + j))) (h : LeastFrom p i k) :
    LeastFrom p' (n + i) (n + k) := by
  refine LeastFrom.carry (p := p) 0 n (by simpa only [Nat.zero_add]) ?_
  rwa [Nat.zero_add, Nat.zero_add]

theorem GreatestBelow.move {p p' : Nat → Prop} {stop : Nat} (n : Nat)
    (hp : ∀ j, k ≤ j → j < stop → (p j ↔ p' (n + j))) (h : GreatestBelow p stop k) :
    GreatestBelow p' (n + stop) (n + k) := by
  obtain ⟨hlt, hk, hgreatest⟩ := h
  refine ⟨by omega, (hp k (Nat.le_refl k) hlt).mp hk, ?_⟩
  intro j hkj hj hpj
  obtain ⟨m, rfl⟩ := Nat.exists_eq_add_of_le (show n ≤ j by omega)
  have hkm : k < m := by omega
  have hm : m < stop := by omega
  exact hgreatest m hkm hm ((hp m (Nat.le_of_lt hkm) hm).mpr hpj)

theorem LeastFrom.congr {p p' : Nat → Prop} (hp : ∀ j, i ≤ j → j ≤ k → (p j ↔ p' j))
    (h : LeastFrom p i k) : LeastFrom p' i k := by
  have hmoved : LeastFrom p' (0 + i) (0 + k) := h.move 0 (by simpa only [Nat.zero_add])
  rwa [Nat.zero_add, Nat.zero_add] at hmoved

theorem GreatestBelow.congr {p p' : Nat → Prop} {stop : Nat}
    (hp : ∀ j, k ≤ j → j < stop → (p j ↔ p' j)) (h : GreatestBelow p stop k) :
    GreatestBelow p' stop k := by
  have hmoved : GreatestBelow p' (0 + stop) (0 + k) := h.move 0 (by simpa only [Nat.zero_add])
  rwa [Nat.zero_add, Nat.zero_add] at hmoved

/-! ## Characters on either side of the seam -/

theorem blank_before (h : i < front.size) : (front ++ back).Blank i ↔ front.Blank i := by
  simp only [Blank, chars_before h]

theorem equalsAt_before (h : i < front.size) :
    (front ++ back).EqualsAt i ↔ front.EqualsAt i := by
  simp only [EqualsAt, chars_before h]

theorem wordAt_before (h : i < front.size) :
    (front ++ back).WordAt i ↔ front.WordAt i := by
  simp only [WordAt, chars_before h]

theorem textEnds_before (h : i < front.size) :
    (front ++ back).TextEnds i ↔ front.TextEnds i := by
  simp only [TextEnds, chars_before h]

theorem closes_before (quote : Char) (h : i < front.size) :
    (front ++ back).Closes quote i ↔ front.Closes quote i := by
  simp only [Closes, chars_before h, chars_before (Nat.lt_of_le_of_lt (Nat.sub_le i 1) h)]

theorem openBefore_before (h : i ≤ front.size) :
    (front ++ back).OpenBefore i ↔ front.OpenBefore i := by
  unfold OpenBefore
  rcases Nat.eq_zero_or_pos i with rfl | hpos
  · simp
  · rw [blank_before (by omega)]

theorem blank_behind : (front ++ back).Blank (front.size + i) ↔ back.Blank i := by
  simp only [Blank, chars_behind]

theorem equalsAt_behind : (front ++ back).EqualsAt (front.size + i) ↔ back.EqualsAt i := by
  simp only [EqualsAt, chars_behind]

theorem wordAt_behind : (front ++ back).WordAt (front.size + i) ↔ back.WordAt i := by
  simp only [WordAt, chars_behind]

theorem textEnds_behind : (front ++ back).TextEnds (front.size + i) ↔ back.TextEnds i := by
  simp only [TextEnds, chars_behind]

theorem openAt_behind : (front ++ back).OpenAt (front.size + i) ↔ back.OpenAt i := by
  simp only [OpenAt, blank_behind, size_append, Nat.add_le_add_iff_left]

/-- A quote right at the seam is left out: the character before it is in front. -/
theorem closes_behind (quote : Char) (h : 0 < i) :
    (front ++ back).Closes quote (front.size + i) ↔ back.Closes quote i := by
  simp only [Closes, Nat.add_sub_assoc h, chars_behind]

theorem openBefore_behind :
    (front ++ back).OpenBefore (front.size + i) ↔
      back.OpenBefore i ∧ (i = 0 → (front ++ back).OpenBefore front.size) := by
  unfold OpenBefore
  rcases Nat.eq_zero_or_pos i with rfl | hpos
  · simp
  · have hne : front.size + i ≠ 0 := by omega
    have hne' : i ≠ 0 := by omega
    simp only [hne, hne', false_or, Nat.add_sub_assoc hpos, blank_behind, false_implies,
      and_true]

/-! ## Operators on either side of the seam -/

theorem operatorAt_behind {operator : String} :
    (front ++ back).OperatorAt operator (front.size + i) ↔
      back.OperatorAt operator i ∧ (i = 0 → (front ++ back).OpenBefore front.size) := by
  unfold OperatorAt
  rw [← Int.natCast_add, ← Int.natCast_add, Nat.add_assoc, slice_behind, openAt_behind,
    openBefore_behind]
  constructor
  · rintro ⟨hspells, ⟨hbefore, hseam⟩, hat⟩
    exact ⟨⟨hspells, hbefore, hat⟩, hseam⟩
  · rintro ⟨⟨hspells, hbefore, hat⟩, hseam⟩
    exact ⟨hspells, ⟨hbefore, hseam⟩, hat⟩

theorem OperatorAt.before {operator : String} (h : front.OperatorAt operator i)
    (hi : i ≤ front.size) (hopen : (front ++ back).OpenAt (i + operator.length)) :
    (front ++ back).OperatorAt operator i := by
  have hstop := operatorAt_le hi h
  refine ⟨?_, (openBefore_before hi).mpr h.2.1, hopen⟩
  rw [← Int.natCast_add, slice_before i hstop, Int.natCast_add]
  exact h.1

theorem OperatorAt.of_before {operator : String}
    (h : (front ++ back).OperatorAt operator i) (hstop : i + operator.length ≤ front.size) :
    front.OperatorAt operator i := by
  obtain ⟨hspells, hbefore, hat⟩ := h
  refine ⟨?_, (openBefore_before (by omega)).mp hbefore, ?_⟩
  · rwa [← Int.natCast_add, slice_before i hstop, Int.natCast_add] at hspells
  · rcases Nat.lt_or_eq_of_le hstop with hlt | heq
    · rcases hat with hle | hblank
      · rw [size_append] at hle
        omega
      · exact Or.inr ((blank_before hlt).mp hblank)
    · exact Or.inl (Nat.le_of_eq heq.symm)

end Source

/-! ## Letters of operators -/

theorem toNat_of_isAlpha {c : Char} (h : c.isAlpha = true) :
    65 ≤ c.toNat ∧ c.toNat ≤ 90 ∨ 97 ≤ c.toNat ∧ c.toNat ≤ 122 := by
  rcases Bool.or_eq_true_iff.mp h with hupper | hlower
  · exact Or.inl (of_decide_eq_true hupper)
  · have hrange := Bool.and_eq_true_iff.mp hlower
    exact Or.inr ⟨of_decide_eq_true hrange.1, of_decide_eq_true hrange.2⟩

theorem endsText_of_isAlpha {c : Char} (h : c.isAlpha = true) : endsText c = false := by
  have hcode := toNat_of_isAlpha h
  have hspace : isSpace c = false := by
    rw [isSpace, ← Bool.not_eq_true, CharClass.contains_iff]
    simp only [whiteSpace, List.mem_cons, List.not_mem_nil, or_false, not_exists, not_and]
    rintro range (rfl | rfl | rfl | rfl | rfl | rfl | rfl | rfl | rfl | rfl) <;> simp <;> omega
  have hdelimiter : c ∉ delimiters := by
    have hsigns : delimiters.all (fun d => !d.isAlpha) = true := by decide
    intro hmem
    have hsign := List.all_eq_true.mp hsigns c hmem
    rw [h] at hsign
    exact absurd hsign (by decide)
  rw [endsText, hspace, Bool.false_or, ← Bool.not_eq_true, List.contains_iff_mem]
  exact hdelimiter

theorem isAlpha_of_toUpper {c : Char} (h : c.toUpper.isAlpha = true) : c.isAlpha = true := by
  by_cases hlower : c.isLower = true
  · exact Bool.or_eq_true_iff.mpr (Or.inr hlower)
  · have hself : c.toUpper = c := by
      apply dif_neg
      intro hrange
      exact hlower
        (Bool.and_eq_true_iff.mpr ⟨decide_eq_true hrange.1, decide_eq_true hrange.2⟩)
    rwa [hself] at h

/-- A letter of an operator, in upper or lower case, goes on with a word. -/
theorem endsText_of_toUpper_mem {operator : String} {c : Char} (hmem : operator ∈ operators)
    (hc : c.toUpper ∈ operator.toList) : endsText c = false := by
  have hwords : operators.all (fun operator => operator.toList.all Char.isAlpha) = true := by
    decide
  have hletters := List.all_eq_true.mp (List.all_eq_true.mp hwords operator hmem)
  exact endsText_of_isAlpha (isAlpha_of_toUpper (hletters _ hc))

namespace Source

variable {source front back : Source} {i k : Nat}

theorem OperatorAt.wordAt {operator : String} {j : Nat} (hmem : operator ∈ operators)
    (h : source.OperatorAt operator i) (hij : i ≤ j) (hj : j < i + operator.length) :
    source.WordAt j := by
  obtain ⟨n, rfl⟩ := Nat.exists_eq_add_of_le hij
  have hn : n < operator.toList.length := by
    rw [String.length_toList]
    omega
  obtain ⟨rest, hrest⟩ := h.toList_prefix
  have hletter : ((source.chars.toList.drop i).map Char.toUpper)[n]? =
      some operator.toList[n] := by
    rw [← hrest, List.getElem?_append_left hn, List.getElem?_eq_getElem hn]
  rw [List.getElem?_map, List.getElem?_drop, Array.getElem?_toList] at hletter
  obtain ⟨c, hchar, hupper⟩ := Option.map_eq_some_iff.mp hletter
  refine ⟨c, hchar, endsText_of_toUpper_mem hmem ?_⟩
  rw [hupper]
  exact List.getElem_mem hn

/-! ## Tokens in front of the seam -/

/-- The literal that starts at a position is closed. -/
def ClosedAt (source : Source) (i : Nat) : Prop :=
  ∃ quote k, source.chars[i]? = some quote ∧ i < k ∧ source.Closes quote k

theorem TokenAt.before {kind : TokenKind} (h : front.TokenAt i kind k)
    (hclosed : kind = .quote → front.ClosedAt i)
    (hoperator : kind = .logicalOperator → (front ++ back).OpenAt k)
    (htext : kind = .text → (front ++ back).TextEnds k ∧ ∀ q, ¬back.EqualsAt q) :
    (front ++ back).TokenAt i kind k := by
  have hi := h.lt_size
  have hks := h.stop_le_size
  have hchars : (front ++ back).chars[i]? = front.chars[i]? := chars_before hi
  cases h with
  | parenthesis hchar hc => exact .parenthesis (hchars.trans hchar) hc
  | equals hchar => exact .equals (hchars.trans hchar)
  | closedQuote hchar hquote hclose =>
    refine .closedQuote (hchars.trans hchar) hquote (hclose.congr ?_)
    intro j _ hjk
    exact (closes_before _ (by omega)).symm
  | openQuote hchar _ hopen =>
    obtain ⟨quote, m, hchar', him, hcloses⟩ := hclosed rfl
    obtain rfl := Option.some.inj (hchar.symm.trans hchar')
    exact absurd hcloses (hopen m him)
  | operator hword hmem hat =>
    exact .operator ((wordAt_before hi).mpr hword) hmem
      (hat.before (Nat.le_of_lt hi) (hoperator rfl))
  | @key q k hword hnone hequals hlast =>
    have hq := lt_size_of_eq_some hequals.2.1
    refine .key ((wordAt_before hi).mpr hword) ?_ (hequals.congr ?_) (hlast.congr ?_)
    · -- An operator at `i` ends before the equals sign, so in front of the seam.
      intro operator hmem hat
      apply hnone operator hmem
      apply hat.of_before
      by_contra hlong
      apply not_equalsAt_of_wordAt (hat.wordAt hmem hequals.1 (by omega))
      exact (equalsAt_before hq).mpr hequals.2.1
    · intro j _ hjq
      exact (equalsAt_before (by omega)).symm
    · intro j _ hjq
      exact not_congr (blank_before (by omega)).symm
  | text hword hnone habsent hstop =>
    obtain ⟨hends, hback⟩ := htext rfl
    refine .text ((wordAt_before hi).mpr hword) ?_ ?_ ⟨hstop.1, hends, ?_⟩
    · -- An operator at `i` ends where the text ends, or before.
      intro operator hmem hat
      apply hnone operator hmem
      apply hat.of_before
      by_contra hlong
      have hik := hstop.1
      obtain ⟨c, hchar, hc⟩ := hat.wordAt hmem (show i ≤ k by omega) (by omega)
      exact Bool.false_ne_true (hc.symm.trans (hends c hchar))
    · intro q hiq hequals
      rcases Nat.lt_or_ge q front.size with hq | hq
      · exact habsent q hiq ((equalsAt_before hq).mp hequals)
      · obtain ⟨m, rfl⟩ := Nat.exists_eq_add_of_le hq
        exact hback m (equalsAt_behind.mp hequals)
    · intro j hij hjk hj
      exact hstop.2.2 j hij hjk ((textEnds_before (by omega)).mp hj)

/-- Tokens in front of the seam that are tokens of the whole, and what is read
from the seam on. -/
theorem Reads.before {tokens rest : List Token} (h : front.Reads i tokens)
    (hkept : ∀ (j k : Nat) (kind : TokenKind) (after : List Token),
      ⟨kind, front.slice j k, j, k⟩ :: after <:+ tokens → front.TokenAt j kind k →
      front.Reads k after → (front ++ back).TokenAt j kind k)
    (hrest : (front ++ back).Reads front.size rest) :
    (front ++ back).Reads i (tokens ++ rest) := by
  induction h with
  | done => exact hrest
  | blank hblank _ ih => exact .blank ((blank_before hblank.lt_size).mpr hblank) (ih hkept)
  | @token i k kind tokens htoken hafter ih =>
    have hwhole := hkept i k kind tokens (List.suffix_refl _) htoken hafter
    have htokens := ih fun j m kind' after hsuffix =>
      hkept j m kind' after (hsuffix.trans (List.suffix_cons _ _))
    rw [List.cons_append, ← slice_before i htoken.stop_le_size]
    exact .token hwhole htokens

/-! ## Tokens behind the seam -/

theorem TokenAt.behind {kind : TokenKind} (h : back.TokenAt i kind k)
    (hseam : i = 0 → kind = .logicalOperator → (front ++ back).OpenBefore front.size) :
    (front ++ back).TokenAt (front.size + i) kind (front.size + k) := by
  have hchars : (front ++ back).chars[front.size + i]? = back.chars[i]? :=
    chars_behind front back i
  have hoperators : (∀ operator ∈ operators, ¬back.OperatorAt operator i) →
      ∀ operator ∈ operators, ¬(front ++ back).OperatorAt operator (front.size + i) := by
    intro hnone operator hmem hat
    exact hnone operator hmem (operatorAt_behind.mp hat).1
  cases h with
  | parenthesis hchar hc => exact .parenthesis (hchars.trans hchar) hc
  | equals hchar => exact .equals (hchars.trans hchar)
  | closedQuote hchar hquote hclose =>
    refine .closedQuote (hchars.trans hchar) hquote (hclose.move front.size ?_)
    intro j hij _
    exact (closes_behind _ (by omega)).symm
  | openQuote hchar hquote hopen =>
    rw [← size_append]
    refine .openQuote (hchars.trans hchar) hquote ?_
    intro j hij hcloses
    obtain ⟨m, rfl⟩ := Nat.exists_eq_add_of_le (show front.size ≤ j by omega)
    exact hopen m (by omega) ((closes_behind _ (by omega)).mp hcloses)
  | operator hword hmem hat =>
    rw [← Nat.add_assoc]
    refine .operator (wordAt_behind.mpr hword) hmem ?_
    exact operatorAt_behind.mpr ⟨hat, fun hi => hseam hi rfl⟩
  | @key q k hword hnone hequals hlast =>
    refine .key (wordAt_behind.mpr hword) (hoperators hnone)
      (hequals.move front.size ?_) (hlast.move front.size ?_)
    · intro j _ _
      exact equalsAt_behind.symm
    · intro j _ _
      exact not_congr blank_behind.symm
  | text hword hnone habsent hstop =>
    refine .text (wordAt_behind.mpr hword) (hoperators hnone) ?_ (hstop.move front.size ?_)
    · intro q hiq hequals
      obtain ⟨m, rfl⟩ := Nat.exists_eq_add_of_le (show front.size ≤ q by omega)
      exact habsent m (by omega) (equalsAt_behind.mp hequals)
    · intro j _ _
      exact textEnds_behind.symm

end Source

/-- The same token, `n` positions further on. -/
def Token.shift (n : Nat) (token : Token) : Token :=
  { token with start := token.start + n, stop := token.stop + n }

namespace Source

variable {front back space : Source} {i k : Nat} {tokens : List Token}

theorem shift_slice (front back : Source) (kind : TokenKind) (i k : Nat) :
    Token.shift front.size ⟨kind, back.slice i k, i, k⟩ =
      ⟨kind, (front ++ back).slice (front.size + i : Nat) (front.size + k : Nat),
        (front.size + i : Nat), (front.size + k : Nat)⟩ := by
  rw [slice_behind, Int.natCast_add, Int.natCast_add, Int.add_comm front.size i,
    Int.add_comm front.size k]
  rfl

/-- What is read from a source is also read behind another one, unless it starts
with an operator that the text in front keeps from being one. -/
theorem Reads.behind (h : back.Reads i tokens)
    (hseam : ∀ k, back.TokenAt 0 .logicalOperator k →
      (front ++ back).OpenBefore front.size) :
    (front ++ back).Reads (front.size + i) (tokens.map (Token.shift front.size)) := by
  induction h with
  | done =>
    rw [← size_append]
    exact .done
  | blank hblank _ ih => exact .blank (blank_behind.mpr hblank) ih
  | token htoken _ ih =>
    rw [List.map_cons, shift_slice]
    refine .token (htoken.behind ?_) ih
    rintro rfl rfl
    exact hseam _ htoken

/-! ## White space at the seam -/

/-- The source is white space from its start to its end. -/
def AllBlank (source : Source) : Prop :=
  ∀ j, j < source.size → source.Blank j

/-- White space between two sources is white space of the whole. -/
theorem blank_of_space (hspace : space.AllBlank) :
    ∀ j, front.size ≤ j → j < front.size + space.size → (front ++ (space ++ back)).Blank j := by
  intro j hj hjs
  obtain ⟨m, rfl⟩ := Nat.exists_eq_add_of_le hj
  have hm : m < space.size := by omega
  exact blank_behind.mpr ((blank_before hm).mpr (hspace m hm))

theorem openAt_of_space (hspace : space.AllBlank) (hempty : space.size = 0 → back.size = 0) :
    (front ++ (space ++ back)).OpenAt front.size := by
  rcases Nat.eq_zero_or_pos space.size with hzero | hpos
  · left
    rw [size_append, size_append, hzero, hempty hzero]
    exact Nat.le_refl _
  · exact Or.inr (blank_of_space hspace _ (Nat.le_refl _) (by omega))

theorem OpenAt.textEnds {source : Source} (h : source.OpenAt i) : source.TextEnds i := by
  intro c hchar
  rcases h with hle | ⟨d, hchar', hspace⟩
  · exact absurd (lt_size_of_eq_some hchar) (Nat.not_lt.mpr hle)
  · obtain rfl := Option.some.inj (hchar.symm.trans hchar')
    rw [endsText, hspace, Bool.true_or]

theorem OpenAt.before (h : front.OpenAt i) (hi : i ≤ front.size)
    (hseam : (front ++ back).OpenAt front.size) : (front ++ back).OpenAt i := by
  rcases Nat.lt_or_eq_of_le hi with hlt | rfl
  · rcases h with hle | hblank
    · exact absurd hlt (Nat.not_lt.mpr hle)
    · exact Or.inr ((blank_before hlt).mpr hblank)
  · exact hseam

theorem TextEnds.before (h : front.TextEnds i) (hi : i ≤ front.size)
    (hseam : (front ++ back).OpenAt front.size) : (front ++ back).TextEnds i := by
  rcases Nat.lt_or_eq_of_le hi with hlt | rfl
  · exact (textEnds_before hlt).mpr h
  · exact hseam.textEnds

theorem Blank.not_equalsAt {source : Source} (h : source.Blank i) : ¬source.EqualsAt i := by
  obtain ⟨c, hchar, hspace⟩ := h
  intro hequals
  obtain rfl := Option.some.inj (hchar.symm.trans hequals)
  exact Bool.false_ne_true (mark_equalsSign.1.symm.trans hspace)

/-- An equals sign behind white space is one of the text behind it. -/
theorem not_equalsAt_of_space (hspace : space.AllBlank) (hback : ∀ q, ¬back.EqualsAt q) :
    ∀ q, ¬(space ++ back).EqualsAt q := by
  intro q hequals
  rcases Nat.lt_or_ge q space.size with hlt | hge
  · exact (hspace q hlt).not_equalsAt ((equalsAt_before hlt).mp hequals)
  · obtain ⟨m, rfl⟩ := Nat.exists_eq_add_of_le hge
    exact hback m (equalsAt_behind.mp hequals)

/-- An operator ends where it is followed by white space or by nothing. -/
theorem TokenAt.openAt {source : Source} (h : source.TokenAt i .logicalOperator k) :
    source.OpenAt k := by
  cases h with
  | operator _ _ hat => exact hat.2.2

/-- Where white space follows, a token stays as it is, unless it is an open
literal or an equals sign behind reaches it. -/
theorem TokenAt.before_space {kind : TokenKind} (h : front.TokenAt i kind k)
    (hseam : (front ++ back).OpenAt front.size) (hclosed : kind = .quote → front.ClosedAt i)
    (hequals : kind = .text → ∀ q, ¬back.EqualsAt q) :
    (front ++ back).TokenAt i kind k := by
  have hks := h.stop_le_size
  refine TokenAt.before h hclosed ?_ ?_
  · rintro rfl
    exact h.openAt.before hks hseam
  · rintro rfl
    refine ⟨?_, hequals rfl⟩
    cases h with
    | text _ _ _ hstop => exact hstop.2.1.before hks hseam

/-- White space in front of a reading, put there and taken away. -/
theorem reads_space_iff (hspace : space.AllBlank) :
    (front ++ (space ++ back)).Reads front.size tokens ↔
      (front ++ space ++ back).Reads (front ++ space).size tokens := by
  have hblanks : ∀ j, front.size ≤ j → j < front.size + space.size →
      (front ++ (space ++ back)).Blank j := blank_of_space hspace
  have hle : front.size ≤ front.size + space.size := Nat.le_add_right _ _
  rw [append_assoc, size_append]
  exact ⟨Reads.drop_blanks hle hblanks, Reads.of_blanks hle hblanks⟩

/-- Behind white space everything is read as if it stood alone. -/
theorem Reads.behind_space (front : Source) (h : back.Reads 0 tokens)
    (hspace : space.AllBlank) (hempty : space.size = 0 → front.size = 0 ∨ back.size = 0) :
    (front ++ (space ++ back)).Reads front.size
      (tokens.map (Token.shift (front.size + space.size))) := by
  have hseam : ∀ k, back.TokenAt 0 .logicalOperator k →
      (front ++ space ++ back).OpenBefore (front ++ space).size := by
    intro k htoken
    have hback := htoken.lt_size
    rw [append_assoc, size_append]
    rcases Nat.eq_zero_or_pos space.size with hzero | hpos
    · left
      rcases hempty hzero with hfront | hnone <;> omega
    · right
      exact blank_of_space hspace _ (by omega) (by omega)
  have hreads := h.behind hseam
  rw [reads_space_iff hspace, ← size_append]
  exact hreads

/-! ## Literals that are not closed -/

/-- Whether a literal lacks its closing quote shows in its last characters: the
last of them closes it, or nothing does. -/
theorem isUnterminated_slice_iff {source : Source} {quote : Char}
    (hchar : source.chars[i]? = some quote) (hik : i < k) (hk : k ≤ source.size) :
    Token.isUnterminated ⟨.quote, source.slice i k, i, k⟩ = true ↔
      ¬(i < k - 1 ∧ source.Closes quote (k - 1)) := by
  have hlength : (source.slice i k).toList.length = k - i := by
    rw [String.length_toList, length_slice i hk]
  have hhead : (source.slice i k).toList.head? = some quote := by
    rw [List.head?_eq_getElem?, getElem?_toList_slice (by omega), Nat.add_zero, hchar]
  have hlast : (source.slice i k).toList.getLast? = source.chars[k - 1]? := by
    have hpos : i + (k - i - 1) = k - 1 := by omega
    rw [List.getLast?_eq_getElem?, hlength, getElem?_toList_slice (by omega), hpos]
  simp only [Token.isUnterminated, beq_self_eq_true, Bool.true_and, Bool.or_eq_true,
    decide_eq_true_eq, bne_iff_ne, beq_iff_eq, hlength, hhead, hlast, Closes]
  by_cases hone : k - i ≤ 1
  · have hnot : ¬i < k - 1 := by omega
    simp [hone, hnot]
  · have hbefore : (source.slice i k).toList.dropLast.getLast? = source.chars[k - 1 - 1]? := by
      have hpos : i + (k - i - 1 - 1) = k - 1 - 1 := by omega
      rw [List.getLast?_eq_getElem?, List.length_dropLast, hlength, List.getElem?_dropLast,
        hlength, if_pos (by omega), getElem?_toList_slice (by omega), hpos]
    have hlt : i < k - 1 := by omega
    simp only [hone, false_or, hbefore, hlt, true_and, escapeSign, not_and, not_not]
    exact Decidable.or_iff_not_imp_left.trans (by rw [ne_eq, not_not])

/-- A literal lacks its closing quote exactly when nothing closes it. -/
theorem TokenAt.isUnterminated_iff {source : Source} (h : source.TokenAt i .quote k) :
    Token.isUnterminated ⟨.quote, source.slice i k, i, k⟩ = true ↔ ¬source.ClosedAt i := by
  have hik := h.lt_size
  have hks := h.stop_le_size
  cases h with
  | @closedQuote m quote hchar hquote hclose =>
    have hlt := hclose.1
    rw [isUnterminated_slice_iff hchar (by omega) hks, not_iff_not, Nat.add_sub_cancel]
    have hclosed : source.ClosedAt i := ⟨quote, m, hchar, hlt, hclose.2.1⟩
    exact iff_of_true ⟨hlt, hclose.2.1⟩ hclosed
  | openQuote hchar hquote hopen =>
    rw [isUnterminated_slice_iff hchar hik hks, not_iff_not]
    refine iff_of_false ?_ ?_
    · rintro ⟨hlt, hcloses⟩
      exact hopen _ hlt hcloses
    · rintro ⟨quote, m, hchar', him, hcloses⟩
      obtain rfl := Option.some.inj (hchar.symm.trans hchar')
      exact hopen m him hcloses

theorem TokenAt.stop_eq_size {source : Source} (h : source.TokenAt i .quote k)
    (hopen : ¬source.ClosedAt i) : k = source.size := by
  cases h with
  | @closedQuote m quote hchar _ hclose =>
    exact absurd ⟨quote, m, hchar, hclose.1, hclose.2.1⟩ hopen
  | openQuote => rfl

/-- Every literal of a reading is closed, except perhaps the last token. -/
theorem Reads.closedAt {source : Source} {j : Nat} {after : List Token}
    (hlast : ∀ token ∈ tokens.getLast?, token.isUnterminated = false)
    (hsuffix : ⟨.quote, source.slice j k, j, k⟩ :: after <:+ tokens)
    (htoken : source.TokenAt j .quote k) (hafter : source.Reads k after) :
    source.ClosedAt j := by
  by_contra hopen
  have hunterminated := htoken.isUnterminated_iff.mpr hopen
  obtain rfl := htoken.stop_eq_size hopen
  obtain rfl := hafter.eq_nil
  obtain ⟨before, rfl⟩ := hsuffix
  rw [hlast _ List.getLast?_concat] at hunterminated
  exact Bool.false_ne_true hunterminated

/-! ## Sources with white space between them -/

/-- With white space at the seam, the tokens in front stay as they are unless a
literal is open or an equals sign behind reaches a run of text. -/
theorem Reads.append_space {rest : List Token} (hfront : front.Reads 0 tokens)
    (hback : back.Reads 0 rest) (hspace : space.AllBlank) (hempty : space.size = 0 → back.size = 0)
    (hlast : ∀ token ∈ tokens.getLast?, token.isUnterminated = false)
    (hequals : (∀ token ∈ tokens, token.kind ≠ .text) ∨ ∀ q, ¬back.EqualsAt q) :
    (front ++ (space ++ back)).Reads 0
      (tokens ++ rest.map (Token.shift (front.size + space.size))) := by
  refine hfront.before ?_ (hback.behind_space front hspace fun hzero => Or.inr (hempty hzero))
  intro j k kind after hsuffix htoken hafter
  have hseam : (front ++ (space ++ back)).OpenAt front.size := openAt_of_space hspace hempty
  refine htoken.before_space hseam ?_ ?_
  · rintro rfl
    exact Reads.closedAt hlast hsuffix htoken hafter
  · rintro rfl
    rcases hequals with htext | habsent
    · exact absurd rfl (htext _ (hsuffix.subset List.mem_cons_self))
    · exact not_equalsAt_of_space hspace habsent

end Source

/-! ## Texts with white space between them -/

theorem Source.allBlank_ofString {w : String} (hspace : w.toList.all isSpace = true) :
    (ofString w).AllBlank := by
  intro j hj
  rw [size_ofString] at hj
  refine ⟨w.toList[j], ?_, List.all_eq_true.mp hspace _ (List.getElem_mem hj)⟩
  simp [ofString, hj]

theorem Source.not_equalsAt_ofString {t : String} (hequals : equalsSign ∉ t.toList) :
    ∀ q, ¬(ofString t).EqualsAt q := by
  intro q hq
  have hget : t.toList[q]? = some equalsSign := by simpa [EqualsAt, ofString] using hq
  exact hequals (List.mem_of_getElem? hget)

/-- Two texts with white space between them are read one after the other, if
the first one does not end in an open literal and no equals sign of the second
one turns text of the first into a key. -/
theorem tokenize_append_space (s w t : String) (hw : w ≠ "")
    (hspace : w.toList.all isSpace = true)
    (hlast : ∀ token ∈ (tokenize s).getLast?, token.isUnterminated = false)
    (hequals : (∀ token ∈ tokenize s, token.kind ≠ .text) ∨ equalsSign ∉ t.toList) :
    tokenize (s ++ w ++ t) =
      tokenize s ++ (tokenize t).map (Token.shift (s.length + w.length)) := by
  have hempty : (Source.ofString w).size = 0 → (Source.ofString t).size = 0 := by
    intro hzero
    rw [Source.size_ofString, String.length_toList] at hzero
    exact absurd (String.length_eq_zero_iff.mp hzero) hw
  have hreads := (Source.ofString s).reads_tokens.append_space (Source.ofString t).reads_tokens
    (Source.allBlank_ofString hspace) hempty hlast (hequals.imp_right Source.not_equalsAt_ofString)
  rw [← Source.ofString_append, ← Source.ofString_append, ← String.append_assoc,
    Source.size_ofString, Source.size_ofString, String.length_toList,
    String.length_toList] at hreads
  exact (Source.reads_tokens (Source.ofString (s ++ w ++ t))).unique hreads

/-- The first text ends in an operator and holds an equals sign in a literal. -/
theorem tokenize_append_space_operator :
    " \t".toList.all isSpace = true ∧
      (∀ token ∈ (tokenize "(a = 'x = y' OR").getLast?, token.isUnterminated = false) ∧
      (∀ token ∈ tokenize "(a = 'x = y' OR", token.kind ≠ .text) ∧
      tokenize ("(a = 'x = y' OR" ++ " \t" ++ "b = c") =
        tokenize "(a = 'x = y' OR" ++
          (tokenize "b = c").map (Token.shift ("(a = 'x = y' OR".length + " \t".length)) := by
  have hspace : " \t".toList.all isSpace = true := by decide
  have hlast : ∀ token ∈ (tokenize "(a = 'x = y' OR").getLast?,
      token.isUnterminated = false := by decide +kernel
  have htext : ∀ token ∈ tokenize "(a = 'x = y' OR", token.kind ≠ .text := by decide +kernel
  exact ⟨hspace, hlast, htext,
    tokenize_append_space "(a = 'x = y' OR" " \t" "b = c" (by decide) hspace hlast (Or.inl htext)⟩

end QueryHighlight
