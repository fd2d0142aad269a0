import Mathlib.Tactic.SplitIfs
import QueryHighlight.Lexer.Refinement

/-!
# The grammar is unambiguous

`Source.Reads` is a relation, so it could allow several readings of a source.
This module proves that it allows one.  Together with `Source.reads_tokens` the
grammar then says exactly what the lexer does, although the lexer remembers the
next equals sign and moves its cursor in loops.

There are four groups.

* Least and greatest positions are unique.
* The operators at a position.  `operators_prefix_free` is the fact that makes
  the order in which they are tried irrelevant.
* The first character of a token.  `mark` sorts the visible characters by the
  rule they select, and `TokenAt.first` says that a token's kind has the mark of
  its first character.  Two tokens at one position therefore come from one
  group of rules.
* One reading.  `TokenAt.unique` is the case distinction inside each group of
  rules, `Reads.unique` the induction over a reading, and
  `reads_iff_eq_tokenize` the result.
-/

namespace QueryHighlight
namespace Source

variable {source : Source}

/-! ## Least and greatest positions -/

theorem LeastFrom.unique {p : Nat → Prop} {i k₁ k₂ : Nat}
    (h₁ : LeastFrom p i k₁) (h₂ : LeastFrom p i k₂) : k₁ = k₂ := by
  obtain ⟨hik₁, hp₁, hleast₁⟩ := h₁
  obtain ⟨hik₂, hp₂, hleast₂⟩ := h₂
  rcases Nat.lt_trichotomy k₁ k₂ with hlt | heq | hgt
  · exact absurd hp₁ (hleast₂ k₁ hik₁ hlt)
  · exact heq
  · exact absurd hp₂ (hleast₁ k₂ hik₂ hgt)

theorem GreatestBelow.unique {p : Nat → Prop} {stop k₁ k₂ : Nat}
    (h₁ : GreatestBelow p stop k₁) (h₂ : GreatestBelow p stop k₂) : k₁ = k₂ := by
  obtain ⟨hlt₁, hp₁, hgreatest₁⟩ := h₁
  obtain ⟨hlt₂, hp₂, hgreatest₂⟩ := h₂
  rcases Nat.lt_trichotomy k₁ k₂ with hlt | heq | hgt
  · exact absurd hp₂ (hgreatest₁ k₂ hlt hlt₂)
  · exact heq
  · exact absurd hp₁ (hgreatest₂ k₁ hgt hlt₁)

/-! ## The operators at a position -/

/-- No operator is the beginning of another one. -/
theorem operators_prefix_free :
    ∀ a ∈ operators, ∀ b ∈ operators, a.toList <+: b.toList → a = b := by
  decide

/-- The rest of the source, in upper case, begins with the letters of an
operator that stands there. -/
theorem OperatorAt.toList_prefix {operator : String} {i : Nat}
    (h : source.OperatorAt operator i) :
    operator.toList <+: (source.chars.toList.drop i).map Char.toUpper := by
  have hspells := beq_iff_eq.mp h.1
  rw [← Int.natCast_add, toList_slice_natCast, List.map_take] at hspells
  rw [← hspells]
  exact List.take_prefix _ _

theorem OperatorAt.unique {a b : String} {i : Nat} (ha : a ∈ operators)
    (hb : b ∈ operators) (hata : source.OperatorAt a i) (hatb : source.OperatorAt b i) :
    a = b := by
  rcases List.prefix_or_prefix_of_prefix hata.toList_prefix hatb.toList_prefix with h | h
  · exact operators_prefix_free a ha b hb h
  · exact (operators_prefix_free b hb a ha h).symm

end Source

/-! ## The first character of a token -/

/-- The groups of rules between which a visible character selects. -/
inductive Mark where
  | parenthesis
  | equals
  | quote
  | word
deriving DecidableEq, Repr

/-- The group of rules that a visible character selects. -/
def mark (c : Char) : Mark :=
  if c ∈ parentheses then .parenthesis
  else if c = equalsSign then .equals
  else if c ∈ quotes then .quote
  else .word

/-- The group of rules that makes tokens of a kind.  No rule makes values; they
count as words. -/
def TokenKind.mark : TokenKind → Mark
  | .parenthesis => .parenthesis
  | .equals => .equals
  | .quote => .quote
  | .logicalOperator | .key | .value | .text => .word

theorem mark_of_mem_parentheses :
    ∀ c ∈ parentheses, isSpace c = false ∧ mark c = .parenthesis := by
  rw [parentheses, List.forall_mem_cons, List.forall_mem_singleton]
  decide

theorem mark_of_mem_quotes : ∀ c ∈ quotes, isSpace c = false ∧ mark c = .quote := by
  rw [quotes, List.forall_mem_cons, List.forall_mem_cons, List.forall_mem_singleton]
  decide

theorem mark_equalsSign : isSpace equalsSign = false ∧ mark equalsSign = .equals := by
  decide

theorem endsText_eq_false_iff {c : Char} :
    endsText c = false ↔ isSpace c = false ∧ mark c = .word := by
  unfold endsText delimiters mark
  rw [Bool.or_eq_false_iff, ← Bool.not_eq_true (List.contains _ _), List.contains_iff_mem]
  simp only [List.mem_append, List.mem_singleton]
  split_ifs <;> simp_all

namespace Source

variable {source : Source}

/-- A token starts with a visible character, and that character selects the
rules that make tokens of its kind. -/
theorem TokenAt.first {i k : Nat} {kind : TokenKind} (h : source.TokenAt i kind k) :
    ∃ c, source.chars[i]? = some c ∧ isSpace c = false ∧ mark c = kind.mark := by
  have ofWord : source.WordAt i →
      ∃ c, source.chars[i]? = some c ∧ isSpace c = false ∧ mark c = .word := by
    intro hword
    obtain ⟨c, hchar, hends⟩ := hword
    exact ⟨c, hchar, endsText_eq_false_iff.mp hends⟩
  cases h with
  | parenthesis hchar hc => exact ⟨_, hchar, mark_of_mem_parentheses _ hc⟩
  | equals hchar => exact ⟨_, hchar, mark_equalsSign⟩
  | closedQuote hchar hquote _ => exact ⟨_, hchar, mark_of_mem_quotes _ hquote⟩
  | openQuote hchar hquote _ => exact ⟨_, hchar, mark_of_mem_quotes _ hquote⟩
  | operator hword _ _ => exact ofWord hword
  | key hword _ _ _ => exact ofWord hword
  | text hword _ _ _ => exact ofWord hword

theorem TokenAt.lt_size {i k : Nat} {kind : TokenKind} (h : source.TokenAt i kind k) :
    i < source.size := by
  obtain ⟨c, hchar, _⟩ := h.first
  exact lt_size_of_eq_some hchar

theorem TokenAt.not_blank {i k : Nat} {kind : TokenKind} (h : source.TokenAt i kind k) :
    ¬source.Blank i := by
  obtain ⟨c, hchar, hvisible, _⟩ := h.first
  intro hblank
  obtain ⟨d, hchar', hspace⟩ := hblank
  obtain rfl := Option.some.inj (hchar.symm.trans hchar')
  rw [hvisible] at hspace
  exact Bool.false_ne_true hspace

/-! ## One reading -/

/-- At most one token starts at a position. -/
theorem TokenAt.unique {i k₁ k₂ : Nat} {kind₁ kind₂ : TokenKind}
    (h₁ : source.TokenAt i kind₁ k₁) (h₂ : source.TokenAt i kind₂ k₂) :
    kind₁ = kind₂ ∧ k₁ = k₂ := by
  have hmark : kind₁.mark = kind₂.mark := by
    obtain ⟨c₁, hchar₁, _, hmark₁⟩ := h₁.first
    obtain ⟨c₂, hchar₂, _, hmark₂⟩ := h₂.first
    obtain rfl := Option.some.inj (hchar₁.symm.trans hchar₂)
    rw [← hmark₁, hmark₂]
  -- Rules of different groups make kinds of different marks, so only pairs of
  -- rules from one group are left in each case.
  cases h₁ with
  | parenthesis =>
    cases h₂ with
    | parenthesis => exact ⟨rfl, rfl⟩
    | _ => exact absurd hmark (by decide)
  | equals =>
    cases h₂ with
    | equals => exact ⟨rfl, rfl⟩
    | _ => exact absurd hmark (by decide)
  | closedQuote hchar₁ _ hclose₁ =>
    cases h₂ with
    | closedQuote hchar₂ _ hclose₂ =>
      obtain rfl := Option.some.inj (hchar₁.symm.trans hchar₂)
      exact ⟨rfl, by rw [hclose₁.unique hclose₂]⟩
    | openQuote hchar₂ _ hopen =>
      obtain rfl := Option.some.inj (hchar₁.symm.trans hchar₂)
      exact absurd hclose₁.2.1 (hopen _ hclose₁.1)
    | _ => exact absurd hmark (by decide)
  | openQuote hchar₁ _ hopen =>
    cases h₂ with
    | closedQuote hchar₂ _ hclose₂ =>
      obtain rfl := Option.some.inj (hchar₁.symm.trans hchar₂)
      exact absurd hclose₂.2.1 (hopen _ hclose₂.1)
    | openQuote => exact ⟨rfl, rfl⟩
    | _ => exact absurd hmark (by decide)
  | operator _ hmem₁ hat₁ =>
    cases h₂ with
    | operator _ hmem₂ hat₂ => exact ⟨rfl, by rw [hat₁.unique hmem₁ hmem₂ hat₂]⟩
    | key _ hnone _ _ => exact absurd hat₁ (hnone _ hmem₁)
    | text _ hnone _ _ => exact absurd hat₁ (hnone _ hmem₁)
    | _ => exact absurd hmark (by decide)
  | key _ hnone hequals₁ hlast₁ =>
    cases h₂ with
    | operator _ hmem hat => exact absurd hat (hnone _ hmem)
    | key _ _ hequals₂ hlast₂ =>
      obtain rfl := hequals₁.unique hequals₂
      exact ⟨rfl, by rw [hlast₁.unique hlast₂]⟩
    | text _ _ habsent _ => exact absurd hequals₁.2.1 (habsent _ hequals₁.1)
    | _ => exact absurd hmark (by decide)
  | text _ hnone habsent hstop₁ =>
    cases h₂ with
    | operator _ hmem hat => exact absurd hat (hnone _ hmem)
    | key _ _ hequals _ => exact absurd hequals.2.1 (habsent _ hequals.1)
    | text _ _ _ hstop₂ => exact ⟨rfl, hstop₁.unique hstop₂⟩
    | _ => exact absurd hmark (by decide)

theorem Blank.lt_size {i : Nat} (h : source.Blank i) : i < source.size := by
  obtain ⟨c, hchar, _⟩ := h
  exact lt_size_of_eq_some hchar

/-- From a position there is at most one reading. -/
theorem Reads.unique {i : Nat} {tokens₁ tokens₂ : List Token}
    (h₁ : source.Reads i tokens₁) (h₂ : source.Reads i tokens₂) : tokens₁ = tokens₂ := by
  induction h₁ generalizing tokens₂ with
  | done =>
    cases h₂ with
    | done => rfl
    | blank hblank _ => exact absurd hblank.lt_size (Nat.lt_irrefl _)
    | token htoken _ => exact absurd htoken.lt_size (Nat.lt_irrefl _)
  | blank hblank _ ih =>
    cases h₂ with
    | done => exact absurd hblank.lt_size (Nat.lt_irrefl _)
    | blank _ hrest => exact ih hrest
    | token htoken _ => exact absurd hblank htoken.not_blank
  | token htoken _ ih =>
    cases h₂ with
    | done => exact absurd htoken.lt_size (Nat.lt_irrefl _)
    | blank hblank _ => exact absurd hblank htoken.not_blank
    | token htoken' hrest =>
      obtain ⟨rfl, rfl⟩ := htoken.unique htoken'
      rw [ih hrest]

end Source

/-- Tokenizing a text succeeds, and its tokens are the one list that the grammar
reads from the first position. -/
theorem reads_iff_eq_tokenize (text : String) :
    (Lexer.ofString text).tokenize.answer = .ok (tokenize text) ∧
      ∀ tokens, (Source.ofString text).Reads 0 tokens ↔ tokens = tokenize text := by
  refine ⟨(Lexer.tokenize_ofSource (Source.ofString text)).1, ?_⟩
  intro tokens
  constructor
  · intro hreads
    exact hreads.unique (Source.reads_tokens (Source.ofString text))
  · intro heq
    rw [heq]
    exact Source.reads_tokens (Source.ofString text)

end QueryHighlight
