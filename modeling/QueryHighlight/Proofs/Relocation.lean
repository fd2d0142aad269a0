import QueryHighlight.Proofs.Concatenation
import QueryHighlight.Proofs.Shape

/-!
# A token in another place

When is a token of one source, character for character, a token of another one?
`Alike` says that the characters of a span stand in both sources and that the
rules cannot tell the two places apart by what is next to them: what comes before
is open in both or in neither, and what comes behind is open in both or starts
with the same character.  Every test that a rule makes of a position of the span,
or of its end, then has the same answer in both sources.

Three rules look further: a literal goes on to its closing quote, a key to its
equals sign, and text to the end of the source.  What they need there is said by
the hypotheses of `TokenAt.relocate`.
-/

namespace QueryHighlight
namespace Source

variable {source source' : Source} {a a' n j : Nat}

theorem openAt_iff {i : Nat} :
    source.OpenAt i ↔ ∀ c, source.chars[i]? = some c → isSpace c = true := by
  unfold OpenAt Blank
  constructor
  · rintro (hle | ⟨d, hchar, hspace⟩) c hchar'
    · exact absurd (lt_size_of_eq_some hchar') (Nat.not_lt.mpr hle)
    · exact Option.some.inj (hchar.symm.trans hchar') ▸ hspace
  · intro h
    rcases Nat.lt_or_ge i source.size with hlt | hge
    · obtain ⟨c, hchar⟩ := isSome_of_lt source hlt
      exact Or.inr ⟨c, hchar, h c hchar⟩
    · exact Or.inl hge

theorem not_wordAt_of_openAt {i : Nat} (h : source.OpenAt i) : ¬source.WordAt i := by
  rintro ⟨c, hchar, hc⟩
  exact Bool.false_ne_true (hc.symm.trans (h.textEnds c hchar))

/-- The `n` characters from `a` on stand in the other source from `a'` on, and
the two places look the same from inside. -/
structure Alike (source source' : Source) (a a' n : Nat) : Prop where
  chars_eq : ∀ j < n, source.chars[a + j]? = source'.chars[a' + j]?
  openBefore_iff : source.OpenBefore a ↔ source'.OpenBefore a'
  behind : source.OpenAt (a + n) ∧ source'.OpenAt (a' + n) ∨
    source.chars[a + n]? = source'.chars[a' + n]?

namespace Alike

theorem symm (h : Alike source source' a a' n) : Alike source' source a' a n :=
  ⟨fun j hj => (h.chars_eq j hj).symm, h.openBefore_iff.symm, h.behind.imp And.symm Eq.symm⟩

theorem openAt_iff (h : Alike source source' a a' n) (hj : j ≤ n) :
    source.OpenAt (a + j) ↔ source'.OpenAt (a' + j) := by
  rcases Nat.lt_or_eq_of_le hj with hlt | rfl
  · rw [Source.openAt_iff, Source.openAt_iff, h.chars_eq j hlt]
  · rcases h.behind with ⟨hopen, hopen'⟩ | heq
    · exact iff_of_true hopen hopen'
    · rw [Source.openAt_iff, Source.openAt_iff, heq]

theorem textEnds_iff (h : Alike source source' a a' n) (hj : j ≤ n) :
    source.TextEnds (a + j) ↔ source'.TextEnds (a' + j) := by
  unfold TextEnds
  rcases Nat.lt_or_eq_of_le hj with hlt | rfl
  · rw [h.chars_eq j hlt]
  · rcases h.behind with ⟨hopen, hopen'⟩ | heq
    · exact iff_of_true hopen.textEnds hopen'.textEnds
    · rw [heq]

theorem wordAt_iff (h : Alike source source' a a' n) (hj : j ≤ n) :
    source.WordAt (a + j) ↔ source'.WordAt (a' + j) := by
  unfold WordAt
  rcases Nat.lt_or_eq_of_le hj with hlt | rfl
  · rw [h.chars_eq j hlt]
  · rcases h.behind with ⟨hopen, hopen'⟩ | heq
    · exact iff_of_false (not_wordAt_of_openAt hopen) (not_wordAt_of_openAt hopen')
    · rw [heq]

theorem closes_iff (h : Alike source source' a a' n) (quote : Char) (hpos : 0 < j) (hj : j < n) :
    source.Closes quote (a + j) ↔ source'.Closes quote (a' + j) := by
  unfold Closes
  rw [h.chars_eq j hj, Nat.add_sub_assoc hpos, Nat.add_sub_assoc hpos,
    h.chars_eq (j - 1) (by omega)]

theorem blank_iff (h : Alike source source' a a' n) (hj : j < n) :
    source.Blank (a + j) ↔ source'.Blank (a' + j) := by
  unfold Blank
  rw [h.chars_eq j hj]

theorem not_equalsAt (h : Alike source source' a a' n)
    (hspan : ∀ q, a ≤ q → q < a + n → ¬source.EqualsAt q) :
    ∀ q, a' ≤ q → q < a' + n → ¬source'.EqualsAt q := by
  intro q hq hqn hequals
  obtain ⟨m, rfl⟩ := Nat.exists_eq_add_of_le hq
  apply hspan (a + m) (by omega) (by omega)
  rw [EqualsAt, h.chars_eq m (by omega)]
  exact hequals

theorem slice_eq (h : Alike source source' a a' n) (hj : j ≤ n) :
    source.slice a (a + j : Nat) = source'.slice a' (a' + j : Nat) := by
  apply String.toList_inj.mp
  rw [toList_slice_natCast, toList_slice_natCast, Nat.add_sub_cancel_left, Nat.add_sub_cancel_left]
  apply List.ext_getElem?
  intro m
  rw [List.getElem?_take, List.getElem?_take]
  split
  · next hm =>
    rw [List.getElem?_drop, List.getElem?_drop, Array.getElem?_toList, Array.getElem?_toList,
      h.chars_eq m (by omega)]
  · rfl

/-- An operator at the start of the span stands in both places or in neither, if
the span is not in the middle of a word. -/
theorem operatorAt {operator : String} (h : Alike source source' a a' n)
    (hmem : operator ∈ operators) (hend : ¬source.WordAt (a + n))
    (hat : source.OperatorAt operator a) : source'.OperatorAt operator a' := by
  have hlength : operator.length ≤ n := by
    by_contra hlong
    exact hend (hat.wordAt hmem (Nat.le_add_right a n) (by omega))
  obtain ⟨hspells, hbefore, hbehind⟩ := hat
  refine ⟨?_, h.openBefore_iff.mp hbefore, (h.openAt_iff hlength).mp hbehind⟩
  rw [← Int.natCast_add, ← h.slice_eq hlength, Int.natCast_add]
  exact hspells

theorem not_operatorAt (h : Alike source source' a a' n) (hend : ¬source.WordAt (a + n))
    (hnone : ∀ operator ∈ operators, ¬source.OperatorAt operator a) :
    ∀ operator ∈ operators, ¬source'.OperatorAt operator a' := by
  intro operator hmem hat
  exact hnone operator hmem
    (h.symm.operatorAt hmem (mt (h.wordAt_iff (Nat.le_refl n)).mpr hend) hat)

end Alike

theorem TokenAt.not_wordAt_of_key {i k : Nat} (h : source.TokenAt i .key k) :
    ¬source.WordAt k := by
  obtain ⟨q, hkq, hequals, hblank⟩ := h.key_blanks
  intro hword
  rcases Nat.eq_or_lt_of_le hkq with rfl | hlt
  · exact not_equalsAt_of_wordAt hword hequals
  · exact not_blank_of_wordAt hword (hblank k (Nat.le_refl k) hlt)

/-- A token stays one in a place that looks the same. -/
theorem TokenAt.relocate {kind : TokenKind} (h : source.TokenAt a kind (a + n))
    (halike : Alike source source' a a' n)
    (hquote : kind = .quote → source.ClosedAt a ∨ source'.size = a' + n)
    (hkey : kind = .key → ∃ q, a' + n ≤ q ∧ source'.EqualsAt q ∧
      ∀ j, a' + n ≤ j → j < q → source'.Blank j)
    (htext : kind = .text → ∀ q, a' + n ≤ q → ¬source'.EqualsAt q) :
    source'.TokenAt a' kind (a' + n) := by
  have hpos : 0 < n := by
    have := h.lt_stop
    omega
  have hchars : source'.chars[a']? = source.chars[a]? := (halike.chars_eq 0 hpos).symm
  have hword : source.WordAt a → source'.WordAt a' := (halike.wordAt_iff (Nat.zero_le n)).mp
  have hwhole := h
  generalize hstop : a + n = stop at h
  cases h with
  | parenthesis hchar hc =>
    obtain rfl : n = 1 := by omega
    exact .parenthesis (hchars.trans hchar) hc
  | equals hchar =>
    obtain rfl : n = 1 := by omega
    exact .equals (hchars.trans hchar)
  | @closedQuote k quote hchar hmem hclose =>
    obtain ⟨m, rfl⟩ := Nat.exists_eq_add_of_le (Nat.le_of_lt hclose.1)
    obtain rfl : n = m + 1 := by omega
    refine .closedQuote (k := a' + m) (hchars.trans hchar) hmem (hclose.carry a a' ?_)
    intro j hj hjm
    exact halike.closes_iff quote hj (by omega)
  | openQuote hchar hmem hopen =>
    rcases hquote rfl with ⟨quote, m, hchar', ham, hcloses⟩ | hsize
    · obtain rfl := Option.some.inj (hchar.symm.trans hchar')
      exact absurd hcloses (hopen m ham)
    · rw [← hsize]
      refine .openQuote (hchars.trans hchar) hmem ?_
      intro k hk hcloses
      have hlt := lt_size_of_eq_some hcloses.1
      obtain ⟨m, rfl⟩ := Nat.exists_eq_add_of_le (Nat.le_of_lt hk)
      exact hopen (a + m) (by omega)
        ((halike.closes_iff _ (by omega) (by omega)).mpr hcloses)
  | @operator operator hat hmem hoperator =>
    obtain rfl : n = operator.length := by omega
    have hend := not_wordAt_of_openAt hoperator.2.2
    exact .operator (hword hat) hmem (halike.operatorAt hmem hend hoperator)
  | @key q k hat hnone hequals hlast =>
    obtain ⟨m, rfl⟩ := Nat.exists_eq_add_of_le (show a ≤ k by omega)
    obtain rfl : n = m + 1 := by omega
    obtain ⟨q', hq', hequals', hblank⟩ := hkey rfl
    refine .key (q := q') (k := a' + m) (hword hat)
      (halike.not_operatorAt hwhole.not_wordAt_of_key hnone) ⟨by omega, hequals', ?_⟩
      ⟨by omega, ?_, ?_⟩
    · intro j hj hjq
      rcases Nat.lt_or_ge j (a' + (m + 1)) with hlt | hge
      · refine halike.not_equalsAt ?_ j hj hlt
        intro i hi him
        exact hequals.2.2 i hi (Nat.lt_of_lt_of_le him hlast.1)
      · exact (hblank j hge hjq).not_equalsAt
    · exact mt (halike.blank_iff (Nat.lt_succ_self m)).mpr hlast.2.1
    · intro j hj hjq hvisible
      exact hvisible (hblank j hj hjq)
  | text hat hnone habsent hleast =>
    subst hstop
    have hend : ¬source.WordAt (a + n) := by
      rintro ⟨c, hchar, hc⟩
      exact Bool.false_ne_true (hc.symm.trans (hleast.2.1 c hchar))
    refine .text (hword hat) (halike.not_operatorAt hend hnone) ?_ (hleast.carry a a' ?_)
    · intro q hq
      rcases Nat.lt_or_ge q (a' + n) with hlt | hge
      · exact halike.not_equalsAt (fun j hj _ => habsent j hj) q hq hlt
      · exact htext rfl q hge
    · intro j _ hj
      exact halike.textEnds_iff hj

end Source
end QueryHighlight
