import Mathlib.Data.List.Chain
import QueryHighlight.Lexer.Refinement

/-!
# Tokenizing makes progress

A source is tokenized by a loop that applies rules until the cursor is at the end.
This module follows the loop from state to state: how often it applies a rule, how
far the cursor is then, and which ways out of a rule it never takes.

* `Lexer.states` lists the states of the loop, and `Lexer.IsRun` says what makes a
  list one of successive states.  Whatever a rule keeps holds in all of them
  (`forall_mem_states`).
* `Lexer.OnTrack` is the invariant of a run: the cursor is in the source, and what is
  remembered of the next equals sign is true.  A rule keeps it and moves the cursor
  forward (`OnTrack.next`), so there are no more states than positions
  (`OnTrack.length_states_le`).
* Two ways out of a rule are there for words that begin with something else than a
  word character.  A key could be all white space (`DeclinesKey`), and a run of text
  could be empty (`LeavesFiller`).  The rules that are tried before them do not fit, so
  on track the word begins with a word character, which is neither
  (`OnTrack.not_declinesKey`, `OnTrack.not_leavesFiller`).

`tokenize_progress` is the result.
-/

namespace QueryHighlight
namespace Lexer

variable {lexer state : Lexer} {source : Source} {rule : Rule} {i : Nat}

/-! ## The states of the loop -/

/-- The states of the loop that begins at a state, first to last. -/
def states (lexer : Lexer) : List Lexer :=
  if _hend : lexer.atEnd then [lexer]
  else
    match _hnext : lexer.readNext with
    | ⟨.error _, after⟩ => [lexer, after]
    | ⟨.ok (), after⟩ => lexer :: after.states
termination_by (lexer.source.size - lexer.pos).toNat
decreasing_by exact size_sub_pos_lt _hend _hnext

/-- Some states lead from the first to the last, each by a rule from the one before. -/
structure IsRun (first last : Lexer) (states : List Lexer) : Prop where
  head : states.head? = some first
  last : states.getLast? = some last
  step : states.IsChain fun before after =>
    before.atEnd = false ∧ after = before.readNext.lexer

theorem head?_states (lexer : Lexer) : lexer.states.head? = some lexer := by
  rw [states]
  split
  · rfl
  · split <;> rfl

theorem getLast?_states (lexer : Lexer) :
    lexer.states.getLast? = some lexer.readAll.lexer := by
  fun_induction states lexer with
  | case1 lexer hend =>
    rw [readAll, dif_pos hend]
    rfl
  | case2 lexer hend fault after hnext =>
    rw [readAll, dif_neg hend]
    split
    · next heq =>
      rw [hnext] at heq
      exact congrArg some (congrArg Outcome.lexer heq)
    · next heq =>
      rw [hnext] at heq
      exact absurd (congrArg Outcome.answer heq) (by simp)
  | case3 lexer hend after hnext ih =>
    rw [readAll, dif_neg hend, List.getLast?_cons, ih]
    split
    · next heq =>
      rw [hnext] at heq
      exact absurd (congrArg Outcome.answer heq) (by simp)
    · next heq =>
      rw [hnext] at heq
      obtain rfl : after = _ := congrArg Outcome.lexer heq
      rfl

theorem isChain_states (lexer : Lexer) :
    lexer.states.IsChain fun before after =>
      before.atEnd = false ∧ after = before.readNext.lexer := by
  fun_induction states lexer with
  | case1 => exact .singleton _
  | case2 lexer hend fault after hnext =>
    refine .cons_cons ⟨by simpa using hend, ?_⟩ (.singleton _)
    rw [hnext]
  | case3 lexer hend after hnext ih =>
    refine List.isChain_cons.mpr ⟨?_, ih⟩
    intro state hstate
    rw [head?_states, Option.mem_def, Option.some.injEq] at hstate
    refine ⟨by simpa using hend, ?_⟩
    rw [hnext, hstate]

/-- What holds in the first state and is kept by the rules holds in every state. -/
theorem forall_mem_states {P : Lexer → Prop} (hfirst : P lexer)
    (hnext : ∀ state : Lexer, state.atEnd = false → P state → P state.readNext.lexer) :
    ∀ state ∈ lexer.states, P state := by
  refine lexer.isChain_states.induction P _ ?_ ?_
  · intro before after hstep hbefore
    rw [hstep.2]
    exact hnext before hstep.1 hbefore
  · intro hne
    have hhead := lexer.head?_states
    rw [List.head?_eq_some_head hne, Option.some.injEq] at hhead
    rwa [hhead]

theorem tokenize_lexer (lexer : Lexer) : lexer.tokenize.lexer = lexer.reset.readAll.lexer := by
  unfold tokenize
  rcases lexer.reset.readAll with ⟨answer, after⟩
  cases answer <;> rfl

/-- A text is tokenized by a run. -/
theorem isRun_states (text : String) :
    IsRun (ofString text) (ofString text).tokenize.lexer (ofString text).states where
  head := head?_states _
  last := by
    rw [tokenize_lexer]
    exact getLast?_states _
  step := isChain_states _

/-! ## Where the loop is -/

/-- The loop reads `source`, and has come to position `i` of it. -/
structure OnTrack (source : Source) (lexer : Lexer) (i : Nat) : Prop where
  source_eq : lexer.source = source
  pos_eq : lexer.pos = i
  le_size : i ≤ source.size
  right : lexer.lookahead.Right source i

namespace OnTrack

theorem ofSource (source : Source) : OnTrack source (ofSource source) 0 :=
  ⟨rfl, rfl, Nat.zero_le _, trivial⟩

theorem atEnd_iff (h : OnTrack source lexer i) : lexer.atEnd = true ↔ i = source.size := by
  have hle := h.le_size
  simp only [atEnd, h.source_eq, h.pos_eq, decide_eq_true_eq]
  omega

theorem lt_size (h : OnTrack source lexer i) (hend : lexer.atEnd = false) :
    i < source.size := by
  have hle := h.le_size
  have hne : i ≠ source.size := by
    intro heq
    rw [h.atEnd_iff.mpr heq] at hend
    exact absurd hend (by decide)
  omega

/-- A rule succeeds and stays on track, at a later position. -/
theorem next (h : OnTrack source lexer i) (hend : lexer.atEnd = false) :
    lexer.readNext.answer = .ok () ∧
      ∃ k, i < k ∧ OnTrack source lexer.readNext.lexer k := by
  obtain ⟨rfl, hpos, _, hright⟩ := id h
  obtain ⟨hok, hsource, k, hik, hks, hposk, hrightk, _⟩ :=
    readNext_reads hpos (h.lt_size hend) hright
  exact ⟨hok, k, hik, hsource, hposk, hks, hrightk⟩

/-- Each rule leaves at least one character behind. -/
theorem length_states_le (h : OnTrack source lexer i) :
    lexer.states.length ≤ source.size - i + 1 := by
  fun_induction states lexer generalizing i with
  | case1 => exact Nat.succ_pos _
  | case2 lexer hend fault after hnext =>
    obtain ⟨hok, _⟩ := h.next (by simpa using hend)
    rw [hnext] at hok
    exact absurd hok (by simp)
  | case3 lexer hend after hnext ih =>
    obtain ⟨_, k, hik, htrack⟩ := h.next (by simpa using hend)
    rw [hnext] at htrack
    have hle := ih htrack
    have hk := htrack.le_size
    rw [List.length_cons]
    omega

end OnTrack

theorem onTrack_of_mem_states (hmem : state ∈ (ofSource source).states) :
    ∃ i, OnTrack source state i := by
  refine forall_mem_states (P := fun state => ∃ i, OnTrack source state i)
    ⟨0, .ofSource source⟩ ?_ state hmem
  intro state hend htrack
  obtain ⟨i, htrack⟩ := htrack
  obtain ⟨_, k, _, hnext⟩ := htrack.next hend
  exact ⟨k, hnext⟩

/-! ## Ways out that are not taken -/

/-- There is an equals sign, and still no key before it. -/
def DeclinesKey (lexer : Lexer) : Prop :=
  lexer.lookAhead.lookahead.position? ≠ none ∧ lexer.readKey.answer = .ok false

/-- There is no text, and the character under the cursor is passed over. -/
def LeavesFiller (lexer : Lexer) : Prop :=
  lexer.readText = ⟨.ok (), lexer.skip⟩

/-- The rules that look for a key or for text are applied to word characters only. -/
theorem wordAt_of_firstRule? (hpos : lexer.pos = i) (hi : i < lexer.source.size)
    (hrule : lexer.firstRule? = some rule) (hword : rule = .key ∨ rule = .text) :
    lexer.source.WordAt i := by
  obtain ⟨c, hchar⟩ := Source.isSome_of_lt lexer.source hi
  have hget : lexer.source.get? lexer.pos = some c := by
    rw [hpos, Source.get?_natCast, hchar]
  have hnone := not_fits_of_firstRule? hrule [.blank, .parenthesis, .equals, .quote] rfl
    (by rcases hword with rfl | rfl <;> decide)
  simp only [List.forall_mem_cons, Rule.fits, hget, Option.any_some, beq_iff_eq,
    Option.some.injEq, List.contains_iff_mem] at hnone
  obtain ⟨hspace, hparen, hequals, hquote, _⟩ := hnone
  exact Source.wordAt_of_unmarked hchar hspace hparen hequals hquote

/-- Text is looked for after a search for a key that has only looked ahead. -/
theorem readKey_of_firstRule? (hrule : lexer.firstRule? = some .text) :
    lexer.readKey = ⟨.ok false, lexer.lookAhead⟩ := by
  have hnone := not_fits_of_firstRule? hrule
    [.blank, .parenthesis, .equals, .quote, .operator, .key] rfl (by decide)
  have hkey : ¬Rule.key.fits lexer = true := hnone .key (by decide)
  rcases readKey_cases lexer with ⟨fault, h⟩ | h | ⟨stop, _, h⟩
  · rw [Rule.fits, h] at hkey
    exact absurd rfl hkey
  · exact h
  · rw [Rule.fits, h] at hkey
    exact absurd rfl hkey

namespace OnTrack

/-- A key holds at least the character under the cursor. -/
theorem not_declinesKey (h : OnTrack source lexer i) (hword : source.WordAt i) :
    ¬lexer.DeclinesKey := by
  obtain ⟨rfl, hpos, _, hright⟩ := h
  obtain ⟨_, hnext⟩ := lookAhead_position hpos hright
  intro hdeclines
  obtain ⟨hsome, hdeclined⟩ := hdeclines
  obtain ⟨q, hq⟩ := Option.ne_none_iff_exists'.mp hsome
  rw [hq] at hnext
  have hiq : i < q := by
    have hne : i ≠ q := by
      intro heq
      exact Source.not_equalsAt_of_wordAt hword (heq ▸ hnext.2.1)
    have hle := hnext.1
    omega
  have hqs := Source.lt_size_of_eq_some hnext.2.1
  obtain ⟨k, hk, hik, _⟩ := Source.trimmedStop_greatest
    (Source.not_blank_of_wordAt hword) hiq (Nat.le_of_lt hqs)
  rw [readKey, hq] at hdeclined
  simp only [readKeyBefore, lookAhead_source, lookAhead_pos, hpos, hk] at hdeclined
  rw [if_pos (by omega)] at hdeclined
  simp at hdeclined

/-- A run of text holds at least the character under the cursor. -/
theorem not_leavesFiller (h : OnTrack source lexer i) (hword : source.WordAt i) :
    ¬lexer.lookAhead.LeavesFiller := by
  obtain ⟨rfl, hpos, _, _⟩ := h
  obtain ⟨c, hchar, _⟩ := id hword
  have hi := Source.lt_size_of_eq_some hchar
  obtain ⟨k, hk, _, hleast⟩ := Source.textStop_least hword
  have hik : i < k := hleast.1
  have hread : lexer.lookAhead.readText = ⟨.ok (), lexer.lookAhead.take .text k⟩ := by
    rw [readText, lookAhead_source, lookAhead_pos, hpos, Source.get?_natCast, hchar]
    simp only [hk]
    rw [if_neg (by simpa [atEnd, hpos] using hi), if_pos (by omega)]
  rw [LeavesFiller, hread, Outcome.mk.injEq]
  intro hfiller
  obtain ⟨_, hsame⟩ := hfiller
  -- The token that is made tells the two outcomes apart.
  have htokens := congrArg (fun lexer => lexer.tokens.size) hsame
  simp [take, emit, skip] at htokens

end OnTrack
end Lexer

/-- Tokenizing a text succeeds and stops at its end, by a run in which no more rules
are applied than there are characters.  In each state but the last one the first rule
that fits is applied; it succeeds and moves the cursor forward, not past the end.  When
it has looked for a key, it has not found an equals sign without a key before it, and
when it has looked for text, it has not passed over the character instead. -/
theorem tokenize_progress (text : String) :
    (Lexer.ofString text).tokenize.answer = .ok (tokenize text) ∧
      (Lexer.ofString text).tokenize.lexer.pos = text.length ∧
      Lexer.IsRun (Lexer.ofString text) (Lexer.ofString text).tokenize.lexer
        (Lexer.ofString text).states ∧
      (Lexer.ofString text).states.length ≤ text.length + 1 ∧
      ∀ state ∈ (Lexer.ofString text).states, state.atEnd = false →
        state.readNext.answer = .ok () ∧
        state.pos + 1 ≤ state.readNext.lexer.pos ∧
        state.readNext.lexer.pos ≤ text.length ∧
        ∃ rule, state.firstRule? = some rule ∧
          state.readNext = rule.outcome state ∧
          (rule = .key ∨ rule = .text → ¬state.DeclinesKey) ∧
          (rule = .text → ¬state.readKey.lexer.LeavesFiller) := by
  have hsize : (Source.ofString text).size = text.length := by
    rw [Source.size_ofString, String.length_toList]
  obtain ⟨hok, hpos⟩ := Lexer.tokenize_ofSource (Source.ofString text)
  rw [hsize] at hpos
  have hlength := (Lexer.OnTrack.ofSource (Source.ofString text)).length_states_le
  rw [hsize] at hlength
  refine ⟨hok, hpos, Lexer.isRun_states text, hlength, ?_⟩
  intro state hmem hend
  obtain ⟨i, htrack⟩ := Lexer.onTrack_of_mem_states hmem
  have hi := htrack.lt_size hend
  obtain ⟨hnext, k, hik, htrack'⟩ := htrack.next hend
  have hk := htrack'.le_size
  obtain ⟨c, hchar⟩ := Source.isSome_of_lt (Source.ofString text) hi
  have hget : state.source.get? state.pos = some c := by
    rw [htrack.source_eq, htrack.pos_eq, Source.get?_natCast, hchar]
  obtain ⟨rule, hrule, houtcome⟩ := Lexer.readNext_eq_outcome hget
  have hword : rule = .key ∨ rule = .text → (Source.ofString text).WordAt i := by
    intro hlooks
    rw [← htrack.source_eq] at hi ⊢
    exact Lexer.wordAt_of_firstRule? htrack.pos_eq hi hrule hlooks
  rw [htrack.pos_eq, htrack'.pos_eq]
  refine ⟨hnext, by omega, by omega, rule, hrule, houtcome, ?_, ?_⟩
  · intro hlooks
    exact htrack.not_declinesKey (hword hlooks)
  · intro htext
    rw [Lexer.readKey_of_firstRule? (htext ▸ hrule)]
    exact htrack.not_leavesFiller (hword (Or.inr htext))

/-- The word begins like an operator and is none, and no equals sign follows. -/
example : (Lexer.ofString "ORx (").firstRule? = some .text := by
  decide +kernel

end QueryHighlight
