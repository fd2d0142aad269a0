import QueryHighlight.Lexer.Session
import QueryHighlight.Proofs.Unambiguous

/-!
# What is remembered stays right

A lexer remembers the next equals sign instead of searching for it again.  In a
session the rules may be applied anywhere and in any order, so this module says
when the memory can be relied on.

* `Lexer.Moves` says once what a rule can do to a state: it may look ahead, pass
  over a character, or take a token.  Every rule does only that, and so does a
  whole run (`readNext_moves`, `readAll_moves`).
* `Lexer.Remembers` is the invariant: what is remembered is true of the source
  from the cursor on.  Moves keep it, and so does every step of a session that
  neither moves the cursor back nor replaces the source (`Remembers.step`,
  `Remembers.after`).
* A tokenizing starts from nothing, so that it does not depend on what went on
  before (`step_tokenize`).
-/

namespace QueryHighlight
namespace Lexer

variable {lexer after : Lexer}

/-! ## What a rule can do -/

/-- The states that a lexer can reach by looking ahead, by passing over
characters and by taking tokens. -/
inductive Moves (lexer : Lexer) : Lexer → Prop where
  | stay : Moves lexer lexer
  | lookAhead {after : Lexer} (h : Moves lexer after) : Moves lexer after.lookAhead
  | skip {after : Lexer} (h : Moves lexer after) : Moves lexer after.skip
  | take {after : Lexer} {kind : TokenKind} {stop : Int} (h : Moves lexer after)
      (hstop : after.pos < stop) : Moves lexer (after.take kind stop)

theorem Moves.trans {last : Lexer} (h : lexer.Moves after) (h' : after.Moves last) :
    lexer.Moves last := by
  induction h' with
  | stay => exact h
  | lookAhead _ ih => exact ih.lookAhead
  | skip _ ih => exact ih.skip
  | take _ hstop ih => exact ih.take hstop

theorem Moves.source_eq (h : lexer.Moves after) : after.source = lexer.source := by
  induction h with
  | stay => rfl
  | lookAhead _ ih => rw [lookAhead_source, ih]
  | skip _ ih => exact ih
  | take _ _ ih => exact ih

theorem readQuote_moves (lexer : Lexer) : lexer.Moves lexer.readQuote.lexer := by
  unfold readQuote
  split
  · exact .stay
  · next hquote => exact .take .stay (Source.lt_quoteStop hquote)

theorem readText_moves (lexer : Lexer) : lexer.Moves lexer.readText.lexer := by
  unfold readText
  split
  · exact .skip .stay
  · split
    · exact .stay
    · split
      · next hlt => exact .take .stay hlt
      · exact .skip .stay

theorem readOperator_moves (lexer : Lexer) : lexer.Moves lexer.readOperator.lexer := by
  rcases readOperator_cases lexer with h | ⟨stop, hlt, h⟩
  · rw [h]
    exact .stay
  · rw [h]
    exact .take .stay hlt

theorem readKey_moves (lexer : Lexer) : lexer.Moves lexer.readKey.lexer := by
  rcases readKey_cases lexer with ⟨fault, h⟩ | h | ⟨stop, hlt, h⟩
  · rw [h]
    exact .lookAhead .stay
  · rw [h]
    exact .lookAhead .stay
  · rw [h]
    exact .take (.lookAhead .stay) (by rwa [lookAhead_pos])

theorem Rule.outcome_moves (lexer : Lexer) (rule : Rule) :
    lexer.Moves (rule.outcome lexer).lexer := by
  cases rule with
  | blank => exact .skip .stay
  | parenthesis | equals => exact .take .stay (Int.lt_succ _)
  | quote => exact readQuote_moves lexer
  | operator =>
    rw [outcome, Outcome.map_lexer]
    exact readOperator_moves lexer
  | key =>
    rw [outcome, Outcome.map_lexer]
    exact readKey_moves lexer
  | text => exact (readKey_moves lexer).trans (readText_moves _)

/-- Whatever rule the character under the cursor selects, it only moves. -/
theorem readNext_moves (lexer : Lexer) : lexer.Moves lexer.readNext.lexer := by
  rcases readNext_cases lexer with herror | ⟨rule, _, houtcome⟩
  · rw [herror]
    exact .stay
  · rw [houtcome]
    exact rule.outcome_moves lexer

theorem readAll_moves (lexer : Lexer) : lexer.Moves lexer.readAll.lexer := by
  fun_induction readAll lexer with
  | case1 lexer _ => exact .stay
  | case2 lexer _ fault after hnext =>
    have hmoves := readNext_moves lexer
    rwa [hnext] at hmoves
  | case3 lexer _ after hnext ih =>
    have hmoves := readNext_moves lexer
    rw [hnext] at hmoves
    exact hmoves.trans ih

theorem tokenize_moves (lexer : Lexer) : lexer.reset.Moves lexer.tokenize.lexer := by
  have hmoves := readAll_moves lexer.reset
  unfold tokenize
  split
  · next hread => rwa [hread] at hmoves
  · next hread => rwa [hread] at hmoves

/-! ## What is remembered -/

/-- What a lexer remembers of the next equals sign is true of its source from
the cursor on. -/
def Remembers (lexer : Lexer) : Prop :=
  ∃ i : Nat, lexer.pos = i ∧ lexer.lookahead.Right lexer.source i

theorem Remembers.forward (h : lexer.Remembers) (hsource : after.source = lexer.source)
    (hlookahead : after.lookahead = lexer.lookahead) (hpos : lexer.pos ≤ after.pos) :
    after.Remembers := by
  obtain ⟨i, hi, hright⟩ := h
  obtain ⟨k, hk⟩ := Int.eq_ofNat_of_zero_le (show 0 ≤ after.pos by omega)
  refine ⟨k, hk, ?_⟩
  rw [hsource, hlookahead]
  exact hright.mono (by omega)

theorem Remembers.lookAhead (h : lexer.Remembers) : lexer.lookAhead.Remembers := by
  obtain ⟨i, hi, hright⟩ := h
  refine ⟨i, by rw [lookAhead_pos, hi], ?_⟩
  rw [lookAhead_source]
  exact (lookAhead_position hi hright).1

theorem Remembers.moves (h : lexer.Remembers) (hmoves : lexer.Moves after) :
    after.Remembers := by
  induction hmoves with
  | stay => exact h
  | lookAhead _ ih => exact ih.lookAhead
  | skip _ ih => exact ih.forward rfl rfl (Int.le_of_lt (Int.lt_succ _))
  | take _ hstop ih => exact ih.forward rfl rfl (Int.le_of_lt hstop)

theorem remembers_ofSource (source : Source) : (ofSource source).Remembers :=
  ⟨0, rfl, trivial⟩

end Lexer

/-! ## The steps of a session -/

/-- The step applies a rule or asks a question; the other steps set the cursor
or the source themselves. -/
def Step.onlyMoves : Step → Bool
  | .tokenize | .emit _ _ _ | .seek _ | .replaceSource _ => false
  | _ => true

/-- The step does not move the cursor back, except to read the whole source
again, and leaves the source alone. -/
def Step.goesForward (lexer : Lexer) : Step → Bool
  | .emit _ _ stop => lexer.pos ≤ stop
  | .seek pos => lexer.pos ≤ pos
  | .replaceSource _ => false
  | _ => true

/-- The text that is read after a step, if before it was `text`. -/
def Step.textAfter (text : String) : Step → String
  | .replaceSource replacement => replacement
  | _ => text

namespace Lexer

variable {lexer : Lexer}

theorem step_moves (lexer : Lexer) {step : Step} (hmoves : step.onlyMoves = true) :
    lexer.Moves (lexer.step step).lexer := by
  cases step with
  | readNext =>
    rw [step, Outcome.map_lexer]
    exact readNext_moves lexer
  | readQuote =>
    rw [step, Outcome.map_lexer]
    exact readQuote_moves lexer
  | readText =>
    rw [step, Outcome.map_lexer]
    exact readText_moves lexer
  | readOperator =>
    rw [step, Outcome.map_lexer]
    exact readOperator_moves lexer
  | readKey =>
    rw [step, Outcome.map_lexer]
    exact readKey_moves lexer
  | peek =>
    rw [step, Outcome.map_lexer, peek]
    split <;> exact .stay
  | findEquals => exact .lookAhead .stay
  | atEnd | isSpaceAt | endsText => exact .stay
  | tokenize | emit | seek | replaceSource => exact absurd hmoves Bool.false_ne_true

theorem step_tokenize_moves (lexer : Lexer) :
    lexer.reset.Moves (lexer.step .tokenize).lexer := by
  rw [step, Outcome.map_lexer]
  exact tokenize_moves lexer

theorem Remembers.step {step : Step} (h : lexer.Remembers)
    (hforward : step.goesForward lexer = true) : (lexer.step step).lexer.Remembers := by
  cases step with
  | tokenize => exact (remembers_ofSource lexer.source).moves (step_tokenize_moves lexer)
  | emit kind start stop => exact h.forward rfl rfl (of_decide_eq_true hforward)
  | seek pos => exact h.forward rfl rfl (of_decide_eq_true hforward)
  | replaceSource => exact absurd hforward Bool.false_ne_true
  | _ => exact h.moves (step_moves lexer rfl)

theorem step_source {text : String} (h : lexer.source = Source.ofString text) (step : Step) :
    (lexer.step step).lexer.source = Source.ofString (step.textAfter text) := by
  cases step with
  | tokenize => exact (step_tokenize_moves lexer).source_eq.trans h
  | emit | seek => exact h
  | replaceSource => rfl
  | _ => exact (step_moves lexer rfl).source_eq.trans h

/-! ## Whole sessions -/

/-- Every step of a session goes forward. -/
def goesForward (lexer : Lexer) : List Step → Bool
  | [] => true
  | step :: steps => step.goesForward lexer && (lexer.step step).lexer.goesForward steps

theorem Remembers.after {steps : List Step} (h : lexer.Remembers)
    (hforward : lexer.goesForward steps = true) : (lexer.after steps).Remembers := by
  induction steps generalizing lexer with
  | nil => exact h
  | cons step steps ih =>
    obtain ⟨hstep, hsteps⟩ := Bool.and_eq_true_iff.mp hforward
    exact ih (h.step hstep) hsteps

theorem after_source {text : String} (h : lexer.source = Source.ofString text)
    (steps : List Step) :
    (lexer.after steps).source = Source.ofString (steps.foldl Step.textAfter text) := by
  induction steps generalizing lexer text with
  | nil => exact h
  | cons step steps ih => exact ih (step_source h step)

/-- Steps that go forward leave the source alone. -/
theorem foldl_textAfter_of_goesForward {text : String} {steps : List Step}
    (hforward : lexer.goesForward steps = true) : steps.foldl Step.textAfter text = text := by
  induction steps generalizing lexer with
  | nil => rfl
  | cons step steps ih =>
    obtain ⟨hstep, hsteps⟩ := Bool.and_eq_true_iff.mp hforward
    have hsame : step.textAfter text = text := by
      cases step with
      | replaceSource => exact absurd hstep Bool.false_ne_true
      | _ => rfl
    rw [List.foldl_cons, hsame]
    exact ih hsteps

/-- A tokenizing reads the source as if nothing had gone before. -/
theorem step_tokenize (lexer : Lexer) :
    (lexer.step .tokenize).answer = .ok (.tokens lexer.source.tokens) ∧
      (lexer.step .tokenize).lexer.pos = lexer.source.size := by
  have hsame : lexer.tokenize = (ofSource lexer.source).tokenize := rfl
  obtain ⟨hanswer, hpos⟩ := tokenize_ofSource lexer.source
  rw [← hsame] at hanswer hpos
  rw [step, Outcome.map_lexer, Outcome.map, hanswer]
  exact ⟨rfl, hpos⟩

end Lexer

/-! ## The next equals sign -/

namespace Source

/-- The next equals sign from a position on, if there is one. -/
def NextEquals (source : Source) (i : Nat) : Option Nat → Prop
  | some q => LeastFrom source.EqualsAt i q
  | none => ∀ q, i ≤ q → ¬source.EqualsAt q

theorem NextEquals.unique {source : Source} {i : Nat} {a b : Option Nat}
    (ha : source.NextEquals i a) (hb : source.NextEquals i b) : a = b := by
  cases a with
  | none =>
    cases b with
    | none => rfl
    | some q => exact absurd hb.2.1 (ha q hb.1)
  | some p =>
    cases b with
    | none => exact absurd ha.2.1 (hb p ha.1)
    | some q => rw [LeastFrom.unique ha hb]

end Source

theorem Lexer.Remembers.nextEquals {lexer : Lexer} {i : Nat} (h : lexer.Remembers)
    (hpos : lexer.pos = i) :
    lexer.source.NextEquals i lexer.lookAhead.lookahead.position? := by
  obtain ⟨k, hk, hright⟩ := h
  obtain rfl : k = i := by omega
  exact (lookAhead_position hk hright).2

/-- In a session that goes forward, what is answered about the next equals sign
is what an uncached search finds, the least position from the cursor on.  After
any session at all, tokenizing gives the tokens of the text that is then the
source, and leaves the cursor at its end. -/
theorem Lexer.answers_after_session (text : String) (steps : List Step)
    (hforward : (Lexer.ofString text).goesForward steps = true) :
    (∃ (i : Nat) (found : Option Nat),
        ((Lexer.ofString text).after steps).source = Source.ofString text ∧
        ((Lexer.ofString text).after steps).pos = i ∧
        (((Lexer.ofString text).after steps).step .findEquals).answer =
          .ok (.position found) ∧
        found = (Source.ofString text).find? equalsSign i ∧
        (Source.ofString text).NextEquals i found) ∧
      ∀ anySteps : List Step,
        (((Lexer.ofString text).after anySteps).step .tokenize).answer =
            .ok (.tokens (QueryHighlight.tokenize (anySteps.foldl Step.textAfter text))) ∧
          (((Lexer.ofString text).after anySteps).step .tokenize).lexer.pos =
            (anySteps.foldl Step.textAfter text).length := by
  have hsource : (Lexer.ofString text).source = Source.ofString text := rfl
  constructor
  · have hremembers := (remembers_ofSource (Source.ofString text)).after hforward
    have hafter := after_source hsource steps
    rw [foldl_textAfter_of_goesForward hforward] at hafter
    have ⟨i, hi, _⟩ := hremembers
    have hnext := hremembers.nextEquals hi
    have hfind : (Source.ofString text).NextEquals i _ :=
      Source.find?_least (Source.ofString text) i
    change ((Lexer.ofString text).after steps).source.NextEquals i _ at hnext
    rw [hafter] at hnext
    exact ⟨i, _, hafter, hi, rfl, hnext.unique hfind, hnext⟩
  · intro anySteps
    have htokenize := step_tokenize ((Lexer.ofString text).after anySteps)
    rw [after_source hsource anySteps, Source.size_ofString, String.length_toList] at htokenize
    exact htokenize

/-- A session in which a blank is read as a quote, and one in which a search
outlives its source. -/
theorem Lexer.answers_after_wild_session :
    (Lexer.ofString "a = b = c").goesForward [.findEquals, .readText, .readQuote, .readKey] =
        true ∧
      (((Lexer.ofString "a = b = c").after [.findEquals, .readText, .readQuote, .readKey]).step
          .findEquals).answer = .ok (.position (some 6)) ∧
      (((Lexer.ofString "a = b = c").after [.seek 5, .findEquals, .replaceSource "x = (", .seek 1,
          .readText]).step .tokenize).answer = .ok (.tokens (QueryHighlight.tokenize "x = (")) := by
  have hforward : (Lexer.ofString "a = b = c").goesForward
      [.findEquals, .readText, .readQuote, .readKey] = true := by decide +kernel
  have hpos : ((Lexer.ofString "a = b = c").after
      [.findEquals, .readText, .readQuote, .readKey]).pos = 5 := by decide +kernel
  have hfind : (Source.ofString "a = b = c").find? equalsSign (5 : Nat) = some 6 := by
    decide +kernel
  obtain ⟨⟨i, found, _, hi, hanswer, hfound, _⟩, hany⟩ :=
    answers_after_session "a = b = c" _ hforward
  obtain rfl : i = 5 := by omega
  refine ⟨hforward, ?_, (hany _).1⟩
  rw [hanswer, hfound, hfind]

end QueryHighlight
