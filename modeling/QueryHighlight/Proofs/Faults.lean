import QueryHighlight.Proofs.Lookahead

/-!
# Steps that fail

A session may move the cursor past the end of the source, and may replace the
source under a search that is still remembered.  Some steps then have a character
to read that is not there.  This module says which steps those are, and that
nothing has happened when one of them fails.

* `Outcome.FailsIff` says both of one outcome: when it is a fault, and that a
  fault leaves the state as it was.
* There is one lemma for each rule (`peek_failsIff`, `readKey_failsIff`, ...),
  for a cursor that is at no negative position.  A key is the only token whose end
  is looked for outside the source (`trimmedStop_eq_error`), and only when the
  remembered equals sign lies there (`Lexer.Overreaches`).
* `Lexer.Refuses` collects the conditions, and `step_failsIff` the lemmas.
* The cursor of a session stays at or after the first position unless it is put
  before it (`pos_after_nonneg`).
-/

namespace QueryHighlight

/-! ## Outcomes that are faults -/

/-- An outcome of an operation on a lexer is a fault exactly under a condition.
A fault says that a character past the end of the source was to be read, and
comes with the state from before the operation. -/
structure Outcome.FailsIff {α : Type} (outcome : Outcome α) (lexer : Lexer)
    (condition : Prop) : Prop where
  error_iff : (∃ fault, outcome.answer = .error fault) ↔ condition
  unchanged : ∀ fault, outcome.answer = .error fault →
    outcome.lexer = lexer ∧ ∃ j : Nat, lexer.source.size ≤ j ∧ fault = .ofPosition j

namespace Outcome

variable {α β : Type} {outcome : Outcome α} {lexer : Lexer} {condition : Prop}

theorem failsIff_of_ok {a : α} (hanswer : outcome.answer = .ok a) (hcondition : ¬condition) :
    outcome.FailsIff lexer condition := by
  constructor
  · simp [hanswer, hcondition]
  · simp [hanswer]

theorem failsIff_of_error {j : Nat} (heq : outcome = ⟨.error (.ofPosition j), lexer⟩)
    (hj : lexer.source.size ≤ j) (hcondition : condition) :
    outcome.FailsIff lexer condition := by
  subst heq
  constructor
  · simp [hcondition]
  · intro fault hfault
    simp only [Except.error.injEq] at hfault
    exact ⟨rfl, j, hj, hfault.symm⟩

theorem FailsIff.map (h : outcome.FailsIff lexer condition) (f : α → β) :
    (outcome.map f).FailsIff lexer condition := by
  have hsame : ∀ fault, (outcome.map f).answer = .error fault ↔
      outcome.answer = .error fault := by
    intro fault
    unfold Outcome.map
    cases hanswer : outcome.answer <;> simp
  constructor
  · simp only [hsame, h.error_iff]
  · intro fault hfault
    rw [map_lexer]
    exact h.unchanged fault ((hsame fault).mp hfault)

theorem FailsIff.congr {condition' : Prop} (h : outcome.FailsIff lexer condition)
    (hcondition : condition ↔ condition') : outcome.FailsIff lexer condition' :=
  ⟨h.error_iff.trans hcondition, h.unchanged⟩

end Outcome

/-! ## The end of a key -/

namespace Source

variable {source : Source} {i q : Nat}

/-- Trimming a span that ends inside the source has only characters to read that
are there, and so it has if there is nothing to trim. -/
theorem trimmedStop_eq_ok (hq : q ≤ source.size ∨ q ≤ i) :
    ∃ stop, source.trimmedStop i q = .ok stop := by
  induction q with
  | zero => exact ⟨_, by rw [trimmedStop, if_neg (by omega)]⟩
  | succ m ih =>
    rw [trimmedStop]
    by_cases him : i < m + 1
    · obtain ⟨c, hchar⟩ := isSome_of_lt source (i := m) (by omega)
      have hcast : ((m + 1 : Nat) : Int) - 1 = (m : Int) := by omega
      rw [if_pos (by omega), hcast, get?_natCast, hchar]
      by_cases hspace : isSpace c = true
      · simp only [hspace, if_true]
        exact ih (by omega)
      · simp [hspace]
    · rw [if_neg (by omega)]
      exact ⟨_, rfl⟩

/-- Trimming a span that ends past the source fails at its last position. -/
theorem trimmedStop_eq_error (hiq : i < q) (hq : source.size < q) :
    source.trimmedStop i q = .error (.ofPosition ((q - 1 : Nat) : Int)) := by
  have hcast : (q : Int) - 1 = ((q - 1 : Nat) : Int) := by omega
  rw [trimmedStop, if_pos (by omega), hcast, get?_eq_none (by omega)]

end Source

/-! ## The rules -/

namespace Lexer

variable {lexer : Lexer} {i : Nat}

/-- The equals sign that is remembered lies past the end of the source, behind a
position. -/
def Overreaches (lexer : Lexer) (i : Nat) : Prop :=
  ∃ q : Nat, lexer.lookahead = .found q ∧ i < q ∧ lexer.source.size < q

theorem get?_pos_eq_none (hpos : lexer.pos = i) (hi : lexer.source.size ≤ i) :
    lexer.source.get? lexer.pos = none :=
  Source.get?_eq_none (by omega)

theorem get?_pos_eq_some (hpos : lexer.pos = i) (hi : i < lexer.source.size) :
    ∃ c, lexer.source.get? lexer.pos = some c ∧ lexer.source.chars[i]? = some c := by
  obtain ⟨c, hchar⟩ := Source.isSome_of_lt lexer.source hi
  exact ⟨c, by rw [hpos, Source.get?_natCast, hchar], hchar⟩

/-- An operation that only needs the character under the cursor fails when there is
none. -/
theorem failsIff_of_get? {α : Type} {outcome : Outcome α} (hpos : lexer.pos = i)
    (hnone : lexer.source.get? lexer.pos = none →
      outcome = ⟨.error (.ofPosition lexer.pos), lexer⟩)
    (hsome : ∀ c, lexer.source.get? lexer.pos = some c → ∃ a, outcome.answer = .ok a) :
    outcome.FailsIff lexer (lexer.source.size ≤ i) := by
  by_cases hi : lexer.source.size ≤ i
  · refine Outcome.failsIff_of_error ?_ hi hi
    rw [hnone (get?_pos_eq_none hpos hi), hpos]
  · obtain ⟨c, hget, _⟩ := get?_pos_eq_some hpos (Nat.not_le.mp hi)
    obtain ⟨a, ha⟩ := hsome c hget
    exact Outcome.failsIff_of_ok ha hi

theorem peek_failsIff (hpos : lexer.pos = i) :
    lexer.peek.FailsIff lexer (lexer.source.size ≤ i) := by
  apply failsIff_of_get? hpos
  · intro hnone
    rw [peek, hnone]
  · intro c hget
    exact ⟨c, by rw [peek, hget]⟩

theorem readQuote_failsIff (hpos : lexer.pos = i) :
    lexer.readQuote.FailsIff lexer (lexer.source.size ≤ i) := by
  apply failsIff_of_get? hpos
  · intro hnone
    rw [readQuote, hnone]
  · intro c hget
    exact ⟨(), by rw [readQuote, hget]⟩

theorem readText_eq_ok (hpos : lexer.pos = i) : lexer.readText.answer = .ok () := by
  unfold readText atEnd
  by_cases hi : lexer.source.size ≤ i
  · rw [hpos, if_pos (by simpa using hi)]
  · obtain ⟨c, hget, _⟩ := get?_pos_eq_some hpos (Nat.not_le.mp hi)
    rw [hget, hpos, if_neg (by simpa using hi)]
    by_cases hstop : (i : Int) < lexer.source.textStop i
    · simp [hstop]
    · simp [hstop]

theorem readText_failsIff (hpos : lexer.pos = i) : lexer.readText.FailsIff lexer False :=
  Outcome.failsIff_of_ok (readText_eq_ok hpos) id

theorem readOperator_failsIff (lexer : Lexer) : lexer.readOperator.FailsIff lexer False := by
  unfold readOperator
  cases lexer.source.operatorStop? lexer.pos with
  | none => exact Outcome.failsIff_of_ok rfl id
  | some stop => exact Outcome.failsIff_of_ok rfl id

/-- Looking ahead leaves the lexer alone, or finds an equals sign that is in the
source, if it finds one. -/
theorem lookAhead_cases (lexer : Lexer) :
    lexer.lookahead.isStale lexer.pos = false ∧ lexer.lookAhead = lexer ∨
      lexer.lookahead.isStale lexer.pos = true ∧
        ∀ q, lexer.lookAhead.lookahead.position? = some q → q < lexer.source.size := by
  unfold lookAhead
  cases hstale : lexer.lookahead.isStale lexer.pos with
  | false => exact Or.inl ⟨rfl, by simp⟩
  | true =>
    refine Or.inr ⟨rfl, ?_⟩
    intro q hq
    rw [if_pos rfl, search_lookahead] at hq
    cases hfind : lexer.source.find? equalsSign lexer.pos with
    | none =>
      rw [hfind] at hq
      exact absurd hq (Option.some_ne_none q).symm
    | some k =>
      rw [hfind] at hq
      obtain rfl : k = q := Option.some.inj hq
      exact Source.lt_size_of_eq_some (Source.find?_holds hfind)

/-- The key before an equals sign that is in the source, or not behind the cursor,
is found without a fault. -/
theorem readKeyBefore_eq_ok {q : Nat} (hpos : lexer.pos = i)
    (hq : q ≤ lexer.source.size ∨ q ≤ i) :
    ∃ found, (lexer.readKeyBefore q).answer = .ok found := by
  obtain ⟨stop, hstop⟩ := Source.trimmedStop_eq_ok hq
  unfold readKeyBefore
  rw [hpos, hstop]
  by_cases hlt : (i : Int) < stop
  · exact ⟨true, by simp [hlt]⟩
  · exact ⟨false, by simp [hlt]⟩

theorem readKey_failsIff (hpos : lexer.pos = i) :
    lexer.readKey.FailsIff lexer (lexer.Overreaches i) := by
  have hpos' : lexer.lookAhead.pos = i := by rw [lookAhead_pos, hpos]
  unfold readKey
  rcases lookAhead_cases lexer with ⟨hfresh, hsame⟩ | ⟨hstale, hinside⟩
  -- No search is made: what is remembered may come from another source.
  · rw [hsame]
    cases hlook : lexer.lookahead with
    | unsearched => simp [hlook, Lookahead.isStale] at hfresh
    | absent => exact Outcome.failsIff_of_ok rfl (by simp [Overreaches, hlook])
    | found q =>
      simp only [Lookahead.position?]
      by_cases hover : i < q ∧ lexer.source.size < q
      · refine Outcome.failsIff_of_error (j := q - 1) ?_ (by omega) ⟨q, hlook, hover⟩
        rw [readKeyBefore, hpos, Source.trimmedStop_eq_error hover.1 hover.2]
      · obtain ⟨found, hfound⟩ := readKeyBefore_eq_ok (q := q) hpos (by omega)
        refine Outcome.failsIff_of_ok hfound ?_
        intro hoverreaches
        obtain ⟨q', hlook', hover'⟩ := hoverreaches
        obtain rfl : q = q' := by simpa [hlook] using hlook'
        exact hover hover'
  -- A search is made: what it finds is in the source, and what was remembered before
  -- it lay behind the cursor.
  · have hnot : ¬lexer.Overreaches i := by
      intro hoverreaches
      obtain ⟨q, hlook, hiq, _⟩ := hoverreaches
      simp only [hlook, Lookahead.isStale, hpos, decide_eq_true_eq] at hstale
      omega
    cases hposition : lexer.lookAhead.lookahead.position? with
    | none => exact Outcome.failsIff_of_ok rfl hnot
    | some q =>
      have hq := hinside q hposition
      obtain ⟨found, hfound⟩ := readKeyBefore_eq_ok (q := q) hpos'
        (by rw [lookAhead_source]; omega)
      exact Outcome.failsIff_of_ok hfound hnot

/-- A word is read without a fault if it is an operator; if it is none, it may be
the start of a key that overreaches. -/
theorem readWord_failsIff (hpos : lexer.pos = i) (hi : i < lexer.source.size) :
    lexer.readWord.FailsIff lexer
      ((∀ operator ∈ operators, ¬lexer.source.OperatorAt operator i) ∧ lexer.Overreaches i) := by
  have hkey := readKey_failsIff hpos
  unfold readWord readOperator
  rw [hpos]
  cases hstop : lexer.source.operatorStop? (i : Int) with
  | some stop =>
    refine Outcome.failsIff_of_ok rfl ?_
    intro ⟨hnone, _⟩
    obtain ⟨operator, hmem, hat, _⟩ := Source.operatorStop?_eq_some (Nat.le_of_lt hi) hstop
    exact hnone operator hmem hat
  | none =>
    have hnone := Source.operatorStop?_eq_none (Nat.le_of_lt hi) hstop
    refine Outcome.FailsIff.congr ?_ (and_iff_right hnone).symm
    rcases readKey_cases lexer with ⟨fault, h⟩ | h | ⟨stop, _, h⟩
    · rw [h] at hkey
      simp only [h]
      exact ⟨by simpa using hkey.error_iff, by simpa using hkey.unchanged⟩
    · have hnot : ¬lexer.Overreaches i := by simpa [h] using hkey.error_iff
      simp only [h]
      exact Outcome.failsIff_of_ok (readText_eq_ok (by rw [lookAhead_pos, hpos])) hnot
    · have hnot : ¬lexer.Overreaches i := by simpa [h] using hkey.error_iff
      simp only [h]
      exact Outcome.failsIff_of_ok rfl hnot

/-- The rule that the character under the cursor selects has nothing to read: there
is no such character, or it starts a key that overreaches. -/
def NextRefused (lexer : Lexer) (i : Nat) : Prop :=
  lexer.source.size ≤ i ∨
    lexer.source.WordAt i ∧ (∀ operator ∈ operators, ¬lexer.source.OperatorAt operator i) ∧
      ∃ q : Nat, lexer.lookahead = .found q ∧ lexer.source.size < q

theorem not_nextRefused {c : Char} (hchar : lexer.source.chars[i]? = some c)
    (hends : endsText c = true) : ¬lexer.NextRefused i := by
  have hlt := Source.lt_size_of_eq_some hchar
  rintro (hle | ⟨⟨d, hchar', hd⟩, _⟩)
  · omega
  · rw [hchar, Option.some.injEq] at hchar'
    rw [← hchar', hends] at hd
    exact Bool.false_ne_true hd.symm

/-- Behind a cursor in the source, an equals sign past the end overreaches. -/
theorem nextRefused_iff_of_word (hword : lexer.source.WordAt i) :
    lexer.NextRefused i ↔
      (∀ operator ∈ operators, ¬lexer.source.OperatorAt operator i) ∧ lexer.Overreaches i := by
  obtain ⟨c, hchar, _⟩ := id hword
  have hlt := Source.lt_size_of_eq_some hchar
  constructor
  · rintro (hle | ⟨_, hnone, q, hlook, hq⟩)
    · omega
    · exact ⟨hnone, q, hlook, by omega, hq⟩
  · intro ⟨hnone, q, hlook, _, hq⟩
    exact Or.inr ⟨hword, hnone, q, hlook, hq⟩

theorem readNext_failsIff (hpos : lexer.pos = i) :
    lexer.readNext.FailsIff lexer (lexer.NextRefused i) := by
  unfold readNext
  by_cases hi : lexer.source.size ≤ i
  · rw [get?_pos_eq_none hpos hi]
    exact Outcome.failsIff_of_error (by rw [hpos]) hi (Or.inl hi)
  · obtain ⟨c, hget, hchar⟩ := get?_pos_eq_some hpos (Nat.not_le.mp hi)
    rw [hget]
    dsimp only
    by_cases hspace : isSpace c = true
    · rw [if_pos hspace]
      exact Outcome.failsIff_of_ok rfl (not_nextRefused hchar (by simp [endsText, hspace]))
    by_cases hparen : c ∈ parentheses
    · rw [if_neg hspace, if_pos hparen]
      exact Outcome.failsIff_of_ok rfl
        (not_nextRefused hchar (by simp [endsText, delimiters, hparen]))
    by_cases hequals : c = equalsSign
    · rw [if_neg hspace, if_neg hparen, if_pos hequals]
      exact Outcome.failsIff_of_ok rfl
        (not_nextRefused hchar (by simp [endsText, delimiters, hequals]))
    by_cases hquote : c ∈ quotes
    · have hnot := not_nextRefused hchar (by simp [endsText, delimiters, hquote])
      rw [if_neg hspace, if_neg hparen, if_neg hequals, if_pos hquote]
      exact (readQuote_failsIff hpos).congr (iff_of_false hi hnot)
    · have hword := Source.wordAt_of_unmarked hchar hspace hparen hequals hquote
      rw [if_neg hspace, if_neg hparen, if_neg hequals, if_neg hquote]
      exact (readWord_failsIff hpos (Nat.not_le.mp hi)).congr (nextRefused_iff_of_word hword).symm

/-! ## The steps of a session -/

/-- The condition under which a step fails at a position. -/
def Refuses (lexer : Lexer) (i : Nat) : Step → Prop
  | .peek | .readQuote => lexer.source.size ≤ i
  | .readKey => lexer.Overreaches i
  | .readNext => lexer.NextRefused i
  | _ => False

theorem step_failsIff (hpos : lexer.pos = i) (step : Step) :
    (lexer.step step).FailsIff lexer (lexer.Refuses i step) := by
  cases step with
  | tokenize => exact Outcome.failsIff_of_ok (step_tokenize lexer).1 id
  | readNext => exact (readNext_failsIff hpos).map _
  | readQuote => exact (readQuote_failsIff hpos).map _
  | readText => exact (readText_failsIff hpos).map _
  | readOperator => exact (readOperator_failsIff lexer).map Answer.flag
  | readKey => exact (readKey_failsIff hpos).map Answer.flag
  | peek => exact (peek_failsIff hpos).map Answer.char
  | findEquals | atEnd | isSpaceAt | endsText | emit | seek | replaceSource =>
    exact Outcome.failsIff_of_ok rfl id

/-! ## Where the cursor is -/

theorem Moves.pos_le {after : Lexer} (h : lexer.Moves after) : lexer.pos ≤ after.pos := by
  induction h with
  | stay => exact Int.le_refl _
  | lookAhead _ ih => rwa [lookAhead_pos]
  | skip _ ih => rw [skip_pos]; omega
  | take _ hstop ih => rw [take_pos]; omega

end Lexer

/-- The step does not put the cursor before the first position. -/
def Step.staysNonneg : Step → Bool
  | .emit _ _ stop => 0 ≤ stop
  | .seek pos => 0 ≤ pos
  | _ => true

namespace Lexer

variable {lexer : Lexer}

theorem pos_step_nonneg {step : Step} (h : 0 ≤ lexer.pos) (hstep : step.staysNonneg = true) :
    0 ≤ (lexer.step step).lexer.pos := by
  cases step with
  | tokenize => exact (step_tokenize_moves lexer).pos_le
  | emit | seek => exact of_decide_eq_true hstep
  | replaceSource => exact h
  | _ => exact Int.le_trans h (step_moves lexer rfl).pos_le

theorem pos_after_nonneg {steps : List Step} (h : 0 ≤ lexer.pos)
    (hsteps : ∀ step ∈ steps, step.staysNonneg = true) : 0 ≤ (lexer.after steps).pos := by
  induction steps generalizing lexer with
  | nil => exact h
  | cons step steps ih =>
    rw [List.forall_mem_cons] at hsteps
    exact ih (pos_step_nonneg h hsteps.1) hsteps.2

/-- In a session that never puts the cursor before the first position, a step fails
exactly when it is refused where the cursor is: a look at the character there and
a quoted literal when there is none, a key when the remembered equals sign lies
behind both the cursor and the end of the source, the rule that the character
selects when there is none or when it is no operator and starts such a key.  All a
failed step does is to say that a character past the end of the source was to be
read. -/
theorem step_error_iff_refuses {text : String} {steps : List Step} {lexer : Lexer}
    (hsteps : ∀ step ∈ steps, step.staysNonneg = true)
    (hlexer : (Lexer.ofString text).after steps = lexer) :
    ∃ i : Nat, lexer.pos = i ∧
      ∀ step : Step,
        ((∃ fault, (lexer.step step).answer = .error fault) ↔ lexer.Refuses i step) ∧
          ∀ fault, (lexer.step step).answer = .error fault →
            (lexer.step step).lexer = lexer ∧
              ∃ j : Nat, lexer.source.size ≤ j ∧ fault = .ofPosition j := by
  have hnonneg : 0 ≤ lexer.pos := by
    rw [← hlexer]
    exact pos_after_nonneg (Int.le_refl 0) hsteps
  obtain ⟨i, hpos⟩ := Int.eq_ofNat_of_zero_le hnonneg
  refine ⟨i, hpos, ?_⟩
  intro step
  have hfails := step_failsIff hpos step
  exact ⟨hfails.error_iff, hfails.unchanged⟩

/-- A session in which a search outlives its source: the equals sign that is
remembered was at position `3`, and the new source has one character. -/
def outlivedSearch : List Step :=
  [.seek 1, .findEquals, .replaceSource "N", .seek 0]

theorem step_error_iff_refuses_outlivedSearch :
    (∀ step ∈ outlivedSearch, step.staysNonneg = true) ∧
      ∀ step ∈ [Step.readKey, .readNext],
        (∃ fault, (((Lexer.ofString "ab = c").after outlivedSearch).step step).answer =
            .error fault) ∧
          (((Lexer.ofString "ab = c").after outlivedSearch).step step).lexer =
            (Lexer.ofString "ab = c").after outlivedSearch := by
  have hsteps : ∀ step ∈ outlivedSearch, step.staysNonneg = true := by decide
  have hstart : ((Lexer.ofString "ab = c").after outlivedSearch).pos = 0 := by decide +kernel
  have hlook : ((Lexer.ofString "ab = c").after outlivedSearch).lookahead = .found 3 := by
    decide +kernel
  have hsize : ((Lexer.ofString "ab = c").after outlivedSearch).source.size = 1 := by
    decide +kernel
  obtain ⟨i, hpos, hstep⟩ := step_error_iff_refuses hsteps
    (show (Lexer.ofString "ab = c").after outlivedSearch = _ from rfl)
  obtain rfl : 0 = i := by omega
  have hword : ((Lexer.ofString "ab = c").after outlivedSearch).source.WordAt 0 :=
    ⟨'N', by decide +kernel, by decide⟩
  have hnone : ∀ operator ∈ operators,
      ¬((Lexer.ofString "ab = c").after outlivedSearch).source.OperatorAt operator 0 := by
    decide +kernel
  refine ⟨hsteps, ?_⟩
  intro step hmem
  have hrefused : ((Lexer.ofString "ab = c").after outlivedSearch).Refuses 0 step := by
    simp only [List.mem_cons, List.not_mem_nil, or_false] at hmem
    rcases hmem with rfl | rfl
    · exact ⟨3, hlook, by omega, by omega⟩
    · exact Or.inr ⟨hword, hnone, 3, hlook, by omega⟩
  obtain ⟨fault, hfault⟩ := (hstep step).1.mpr hrefused
  exact ⟨⟨fault, hfault⟩, ((hstep step).2 fault hfault).1⟩

end Lexer
end QueryHighlight
