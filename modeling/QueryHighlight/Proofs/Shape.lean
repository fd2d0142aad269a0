import Mathlib.Computability.RegularExpressions
import QueryHighlight.Proofs.Reading

/-!
# The shape of a token stream

The kinds of the tokens of a text, in their order, are a word of a regular
language (`TokenKind.stream`).  A text is read in two phases: as long as an
equals sign follows, every word that is no operator is a key, and it is followed
by its equals sign; from the first run of text on there are no keys and no
equals signs.

`InStream` is the same language with its words built from the left, which is
the way in which a reading goes on; `mem_stream_iff` connects the two.
-/

namespace QueryHighlight

/-! ## The language -/

namespace TokenKind

open RegularExpression

/-- What may come before the first run of text. -/
def early : RegularExpression TokenKind :=
  char logicalOperator + char parenthesis + char equals + char quote +
    char key * char equals

/-- What may come from the first run of text on. -/
def late : RegularExpression TokenKind :=
  char logicalOperator + char parenthesis + char quote + char text

/-- The kinds of the tokens of a text. -/
def stream : RegularExpression TokenKind :=
  early.star * late.star

/-- The words of `stream`, built from the left. -/
inductive InStream : List TokenKind → Prop where
  | late {kinds : List TokenKind}
      (hlate : ∀ kind ∈ kinds, kind ∈ [logicalOperator, parenthesis, quote, text]) :
      InStream kinds
  | single {kind : TokenKind} {kinds : List TokenKind}
      (hkind : kind ∈ [logicalOperator, parenthesis, equals, quote])
      (hrest : InStream kinds) : InStream (kind :: kinds)
  | keyEquals {kinds : List TokenKind} (hrest : InStream kinds) :
      InStream (key :: equals :: kinds)

variable {kinds : List TokenKind}

theorem InStream.of_cons {kind : TokenKind} (h : InStream (kind :: kinds)) :
    InStream kinds := by
  cases h with
  | late hlate => exact .late (List.forall_mem_cons.mp hlate).2
  | single _ hrest => exact hrest
  | keyEquals hrest => exact .single (by decide) hrest

theorem InStream.of_key (h : InStream (key :: kinds)) : ∃ rest, kinds = equals :: rest := by
  cases h with
  | late hlate => exact absurd (hlate key List.mem_cons_self) (by decide)
  | single hkind _ => exact absurd hkind (by decide)
  | keyEquals _ => exact ⟨_, rfl⟩

theorem InStream.value_not_mem (h : InStream kinds) : value ∉ kinds := by
  induction h with
  | late hlate => exact fun hmem => absurd (hlate value hmem) (by decide)
  | single hkind _ ih =>
    rw [List.mem_cons, not_or]
    exact ⟨fun heq => absurd (heq ▸ hkind) (by decide), ih⟩
  | keyEquals _ ih => simpa using ih

/-! ## The words of the language -/

private theorem mem_char_iff {kind : TokenKind} {word : List TokenKind} :
    word ∈ (char kind).matches' ↔ word = [kind] := Iff.rfl

theorem mem_early_iff {word : List TokenKind} :
    word ∈ early.matches' ↔
      (∃ kind ∈ [logicalOperator, parenthesis, equals, quote], word = [kind]) ∨
        word = [key, equals] := by
  simp only [early, matches'_add, matches'_mul, Language.mem_add, Language.mem_mul,
    mem_char_iff, exists_eq_left, List.mem_cons, List.not_mem_nil, or_false,
    exists_eq_or_imp, or_assoc, List.cons_append, List.nil_append, eq_comm]

theorem mem_late_iff {word : List TokenKind} :
    word ∈ late.matches' ↔
      ∃ kind ∈ [logicalOperator, parenthesis, quote, text], word = [kind] := by
  simp only [late, matches'_add, Language.mem_add, mem_char_iff, exists_eq_left,
    List.mem_cons, List.not_mem_nil, or_false, exists_eq_or_imp, or_assoc]

theorem mem_late_star_iff :
    kinds ∈ late.star.matches' ↔
      ∀ kind ∈ kinds, kind ∈ [logicalOperator, parenthesis, quote, text] := by
  rw [matches'_star, Language.mem_kstar]
  constructor
  · rintro ⟨words, rfl, hwords⟩ kind hmem
    obtain ⟨word, hword, hkind⟩ := List.mem_flatten.mp hmem
    obtain ⟨kind', hkind', rfl⟩ := mem_late_iff.mp (hwords word hword)
    rwa [List.mem_singleton.mp hkind]
  · intro hlate
    refine ⟨kinds.map fun kind => [kind], (List.flatMap_singleton' kinds).symm, ?_⟩
    intro word hword
    obtain ⟨kind, hmem, rfl⟩ := List.mem_map.mp hword
    exact mem_late_iff.mpr ⟨kind, hlate kind hmem, rfl⟩

theorem append_mem_stream {word : List TokenKind} (hword : word ∈ early.matches')
    (h : kinds ∈ stream.matches') : word ++ kinds ∈ stream.matches' := by
  obtain ⟨before, hbefore, after, hafter, rfl⟩ := Language.mem_mul.mp h
  obtain ⟨words, rfl, hwords⟩ := Language.mem_kstar.mp hbefore
  rw [← List.append_assoc]
  refine Language.append_mem_mul (Language.mem_kstar.mpr ⟨word :: words, rfl, ?_⟩) hafter
  exact List.forall_mem_cons.mpr ⟨hword, hwords⟩

theorem mem_stream_iff : kinds ∈ stream.matches' ↔ InStream kinds := by
  constructor
  · intro h
    obtain ⟨before, hbefore, after, hafter, rfl⟩ := Language.mem_mul.mp h
    obtain ⟨words, rfl, hwords⟩ := Language.mem_kstar.mp hbefore
    clear h hbefore
    induction words with
    | nil => exact .late (mem_late_star_iff.mp hafter)
    | cons word words ih =>
      have hword := hwords word List.mem_cons_self
      have ih := ih fun word hmem => hwords word (List.mem_cons_of_mem _ hmem)
      rw [List.flatten_cons, List.append_assoc]
      rcases mem_early_iff.mp hword with ⟨kind, hkind, rfl⟩ | rfl
      · exact .single hkind ih
      · exact .keyEquals ih
  · intro h
    induction h with
    | late hlate =>
      exact Language.append_mem_mul (Language.nil_mem_kstar _) (mem_late_star_iff.mpr hlate)
    | @single kind _ hkind _ ih =>
      exact append_mem_stream (mem_early_iff.mpr (Or.inl ⟨kind, hkind, rfl⟩)) ih
    | keyEquals _ ih => exact append_mem_stream (mem_early_iff.mpr (Or.inr rfl)) ih

end TokenKind

/-! ## The tokens of a source -/

namespace Source

open TokenKind

variable {source : Source} {i k : Nat} {tokens : List Token}

/-- Where no equals sign follows there are no keys. -/
theorem Reads.late (h : source.Reads i tokens) (hequals : ∀ q, i ≤ q → ¬source.EqualsAt q) :
    ∀ token ∈ tokens, token.kind ∈ [logicalOperator, parenthesis, quote, text] := by
  induction h with
  | done => simp
  | blank _ _ ih =>
    apply ih
    intro q hq
    exact hequals q (by omega)
  | @token i k kind tokens htoken _ ih =>
    have hik := htoken.lt_stop
    rw [List.forall_mem_cons]
    constructor
    · show kind ∈ _
      cases htoken with
      | equals hchar => exact absurd hchar (hequals i (Nat.le_refl i))
      | key _ _ hnext _ => exact absurd hnext.2.1 (hequals _ hnext.1)
      | _ => decide
    · apply ih
      intro q hq
      exact hequals q (by omega)

/-- After a key there is white space, and then its equals sign. -/
theorem TokenAt.key_blanks (h : source.TokenAt i .key k) :
    ∃ q, k ≤ q ∧ source.EqualsAt q ∧ ∀ j, k ≤ j → j < q → source.Blank j := by
  cases h with
  | @key q k _ _ hequals hlast =>
    refine ⟨q, hlast.1, hequals.2.1, ?_⟩
    intro j hkj hjq
    by_contra hvisible
    exact hlast.2.2 j hkj hjq hvisible

/-- A text that is read as ordinary is followed by no equals sign. -/
theorem TokenAt.text_not_equalsAt (h : source.TokenAt i .text k) :
    ∀ q, i ≤ q → ¬source.EqualsAt q := by
  cases h with
  | text _ _ hequals _ => exact hequals

theorem Reads.after_key (hkey : source.TokenAt i .key k) (h : source.Reads k tokens) :
    ∃ (q : Nat) (rest : List Token), (∀ j, k ≤ j → j < q → source.Blank j) ∧
      tokens = ⟨.equals, source.slice q (q + 1 : Nat), q, (q + 1 : Nat)⟩ :: rest := by
  obtain ⟨q, hkq, hequals, hblank⟩ := hkey.key_blanks
  have hq : source.Reads q tokens := h.drop_blanks hkq hblank
  obtain ⟨rest, heq, _⟩ := hq.eq_cons (.equals hequals)
  exact ⟨q, rest, hblank, heq⟩

theorem Reads.inStream (h : source.Reads i tokens) : InStream (tokens.map Token.kind) := by
  induction h with
  | done => exact .late (by simp)
  | blank _ _ ih => exact ih
  | @token i k kind tokens htoken hrest ih =>
    show InStream (kind :: tokens.map Token.kind)
    cases kind with
    | key =>
      obtain ⟨q, rest, _, rfl⟩ := hrest.after_key htoken
      exact .keyEquals (InStream.of_cons ih)
    | text =>
      -- No equals sign follows, so the second phase has begun.
      have hlate := hrest.late fun q hq =>
        htoken.text_not_equalsAt q (by have := htoken.lt_stop; omega)
      refine .late (List.forall_mem_cons.mpr ⟨by decide, ?_⟩)
      exact List.forall_mem_map.mpr hlate
    | value => nomatch htoken
    | logicalOperator | parenthesis | equals | quote => exact .single (by decide) ih

/-- The tokens of a source, in order, have the shape of a query: keys with
their equals signs in front, and no equals sign from the first text on. -/
structure WellShaped (source : Source) (tokens : List Token) : Prop where
  kinds_mem : tokens.map Token.kind ∈ stream.matches'
  kind_ne_value : ∀ token ∈ tokens, token.kind ≠ .value
  /-- A key is followed by an equals sign, and only white space is between. -/
  key_followed : ∀ key after, key :: after <:+ tokens → key.kind = .key →
    ∃ equals rest, after = equals :: rest ∧ equals.kind = .equals ∧
      ∀ j : Nat, key.stop ≤ j → j < equals.start → source.Blank j
  text_last : ∀ text after, text :: after <:+ tokens → text.kind = .text →
    ∀ token ∈ after, token.kind ≠ .key ∧ token.kind ≠ .equals
  /-- No equals sign stands anywhere from the start of a text on. -/
  text_not_equalsAt : ∀ text ∈ tokens, text.kind = .text →
    ∀ j : Nat, text.start ≤ j → ¬source.EqualsAt j

theorem Reads.wellShaped (h : source.Reads i tokens) : source.WellShaped tokens := by
  have hstream := h.inStream
  refine ⟨mem_stream_iff.mpr hstream, ?_, ?_, ?_, ?_⟩
  · intro token hmem hvalue
    apply hstream.value_not_mem
    exact hvalue ▸ List.mem_map_of_mem hmem
  · intro key after hsuffix hkind
    obtain ⟨j, k, kind, rfl, _, htoken, hafter⟩ := h.of_suffix hsuffix
    obtain rfl : kind = .key := hkind
    obtain ⟨q, rest, hblank, rfl⟩ := hafter.after_key htoken
    refine ⟨_, rest, rfl, rfl, ?_⟩
    intro m hkm hmq
    exact hblank m (Int.ofNat_le.mp hkm) (Int.ofNat_lt.mp hmq)
  · intro text after hsuffix hkind
    obtain ⟨j, k, kind, rfl, _, htoken, hafter⟩ := h.of_suffix hsuffix
    obtain rfl : kind = .text := hkind
    intro token hmem
    have hlate := hafter.late (fun q hq =>
      htoken.text_not_equalsAt q (by have := htoken.lt_stop; omega)) token hmem
    constructor
    · intro heq
      exact absurd (heq ▸ hlate) (by decide)
    · intro heq
      exact absurd (heq ▸ hlate) (by decide)
  · intro text hmem hkind
    obtain ⟨j, k, kind, rfl, htoken⟩ := h.of_mem hmem
    obtain rfl : kind = .text := hkind
    intro m hjm
    exact htoken.text_not_equalsAt m (Int.ofNat_le.mp hjm)

end Source

/-- The tokens of every text have the shape of a query. -/
theorem tokenize_wellShaped (text : String) :
    (Source.ofString text).WellShaped (tokenize text) :=
  (Source.ofString text).reads_tokens.wellShaped

end QueryHighlight
