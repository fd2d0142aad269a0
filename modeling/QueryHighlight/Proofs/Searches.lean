import QueryHighlight.Proofs.Lookahead
import QueryHighlight.Proofs.Progress

/-!
# How often a source is searched

A lexer asks for the next equals sign at every word, and a search may go through the
whole rest of the source.  What a search finds is remembered until the cursor has
passed it, so a run makes few searches, and none looks at a character that another
one has looked at.

* `Search.Examines` are the positions that a search looks at, and `Search.Follows`
  says which searches can be made while something is remembered.
* `Lookahead.Leads` says what can be remembered later.  `Lookahead.searchesLeft` bounds
  the number of searches to come: each search uses up an equals sign, or finds none and
  is the last one (`Search.MadeBetween.searchesLeft_lt`).
* `readNext_memory` is what a rule does to the list of searches: it leaves the list and
  what is remembered alone, or it makes one search because what is remembered no longer
  does.  On track that is a search which can be made (`OnTrack.kept_or_searched`).
* `Lexer.Sparing` is what holds of the searches that have been made and of those that
  still can be.  A rule keeps it (`Sparing.next`), so every run does.

`tokenize_searches` is the result.
-/

namespace QueryHighlight

/-! ## Searches -/

namespace Search

/-- The position behind the last one that a search examines: it goes on up to what it
finds, or to the end of the source. -/
def stop (size : Nat) (search : Search) : Int :=
  match search.found with
  | none => size
  | some q => q + 1

/-- The positions that a search examines. -/
def Examines (size : Nat) (search : Search) (j : Int) : Prop :=
  search.start ≤ j ∧ j < search.stop size

/-- No position is examined by both searches. -/
def Apart (size : Nat) (earlier later : Search) : Prop :=
  ∀ j, ¬(earlier.Examines size j ∧ later.Examines size j)

/-- A search can be made when this is remembered, or later.  One that replaces a
position begins behind it, and there is none when no equals sign is left. -/
def Follows (search : Search) : Lookahead → Prop
  | .unsearched => True
  | .absent => False
  | .found q => q < search.start

end Search

namespace Lookahead

/-- The second can be remembered when the first was remembered before: positions
increase, and in the end there may be none. -/
inductive Leads : Lookahead → Lookahead → Prop where
  | same {a : Lookahead} : Leads a a
  | first {a : Lookahead} : Leads .unsearched a
  | next {p q : Nat} (h : p < q) : Leads (.found p) (.found q)
  | last {p : Nat} : Leads (.found p) .absent

theorem Leads.trans {a b c : Lookahead} (h : a.Leads b) (h' : b.Leads c) : a.Leads c := by
  cases h with
  | same => exact h'
  | first => exact .first
  | next hlt =>
    cases h' with
    | same => exact .next hlt
    | next hlt' => exact .next (Nat.lt_trans hlt hlt')
    | last => exact .last
  | last =>
    cases h' with
    | same => exact .last

instance : Trans Leads Leads Leads :=
  ⟨Leads.trans⟩

/-- How many more searches there can be: one for each equals sign that may still be
found, and one that finds none. -/
def searchesLeft (source : Source) : Lookahead → Nat
  | .unsearched => source.chars.toList.count equalsSign + 1
  | .absent => 0
  | .found q => (source.chars.toList.drop (q + 1)).count equalsSign + 1

end Lookahead

namespace Source

/-- Behind an equals sign there are fewer of them than before it. -/
theorem EqualsAt.count_drop_lt {source : Source} {i q : Nat} (h : source.EqualsAt q)
    (hiq : i ≤ q) :
    (source.chars.toList.drop (q + 1)).count equalsSign <
      (source.chars.toList.drop i).count equalsSign := by
  have hchar : source.chars.toList[q]? = some equalsSign := by
    rw [Array.getElem?_toList]
    exact h
  obtain ⟨hq, hget⟩ := List.getElem?_eq_some_iff.mp hchar
  have hsplit : (source.chars.toList.drop q).count equalsSign =
      (source.chars.toList.drop (q + 1)).count equalsSign + 1 := by
    rw [List.drop_eq_getElem_cons hq, hget, List.count_cons_self]
  have hle := (List.drop_sublist_drop_left source.chars.toList hiq).count_le equalsSign
  omega

end Source

namespace Search

variable {source : Source} {search : Search} {memory later : Lookahead}

theorem Follows.of_leads (h : search.Follows later) (hleads : memory.Leads later) :
    search.Follows memory := by
  cases hleads with
  | same => exact h
  | first => trivial
  | next hlt =>
    have hstart : ((_ : Nat) : Int) < search.start := h
    show ((_ : Nat) : Int) < search.start
    omega
  | last => exact absurd h id

/-- Two searches are apart if the second can be made when the answer of the first is
remembered. -/
theorem Follows.apart {earlier : Search} (h : search.Follows (.ofSearch earlier.found))
    (size : Nat) : earlier.Apart size search := by
  intro j hboth
  obtain ⟨⟨_, hstop⟩, hstart, _⟩ := hboth
  unfold stop at hstop
  cases hfound : earlier.found with
  | none =>
    rw [hfound] at h
    exact h
  | some q =>
    rw [hfound] at h hstop
    have hlt : (q : Int) < search.start := h
    have hle : j < (q : Int) + 1 := hstop
    omega

theorem follows_of_isStale {pos : Int} {found : Option Nat}
    (hstale : memory.isStale pos = true) : (⟨pos, found⟩ : Search).Follows memory := by
  cases memory with
  | unsearched => trivial
  | absent => exact absurd hstale Bool.false_ne_true
  | found q =>
    show (q : Int) < pos
    exact of_decide_eq_true hstale

/-- From one state to another a search of a source has been made: it begins at the
cursor, behind the position that was remembered, and finds the next equals sign, which
is remembered instead. -/
structure MadeBetween (source : Source) (before after : Lexer) (search : Search) : Prop where
  follows : search.Follows before.lookahead
  start_eq : search.start = before.pos
  nextEquals : ∃ i : Nat, before.pos = i ∧ source.NextEquals i search.found
  lookahead_eq : after.lookahead = .ofSearch search.found
  searches_eq : after.searches = before.searches.push search

namespace MadeBetween

variable {before after : Lexer}

theorem leads (h : search.MadeBetween source before after) :
    before.lookahead.Leads after.lookahead := by
  obtain ⟨hfollows, hstart, ⟨i, hpos, hnext⟩, hafter, _⟩ := h
  rw [hafter]
  cases hmemory : before.lookahead with
  | unsearched => exact .first
  | absent =>
    rw [hmemory] at hfollows
    exact absurd hfollows id
  | found p =>
    rw [hmemory] at hfollows
    have hlt : (p : Int) < search.start := hfollows
    cases hfound : search.found with
    | none => exact .last
    | some q =>
      rw [hfound] at hnext
      have hle := hnext.1
      exact .next (by omega)

/-- Each search uses up an equals sign, or it is the last one. -/
theorem searchesLeft_lt (h : search.MadeBetween source before after) :
    after.lookahead.searchesLeft source < before.lookahead.searchesLeft source := by
  obtain ⟨hfollows, hstart, ⟨i, hpos, hnext⟩, hafter, _⟩ := h
  rw [hafter]
  cases hfound : search.found with
  | none =>
    cases hmemory : before.lookahead with
    | absent =>
      rw [hmemory] at hfollows
      exact absurd hfollows id
    | unsearched | found => exact Nat.succ_pos _
  | some q =>
    rw [hfound] at hnext
    have hle := hnext.1
    cases hmemory : before.lookahead with
    | unsearched =>
      have hfewer := hnext.2.1.count_drop_lt (Nat.zero_le q)
      rw [List.drop_zero] at hfewer
      exact Nat.succ_lt_succ hfewer
    | absent =>
      rw [hmemory] at hfollows
      exact absurd hfollows id
    | found p =>
      rw [hmemory] at hfollows
      have hlt : (p : Int) < search.start := hfollows
      exact Nat.succ_lt_succ (hnext.2.1.count_drop_lt (show p + 1 ≤ q by omega))

end MadeBetween
end Search

namespace Lexer

variable {source : Source} {lexer state before after : Lexer} {i : Nat}

/-! ## The searches of a rule -/

/-- What is remembered, and the searches that have been made for it. -/
def memory (lexer : Lexer) : Lookahead × Array Search :=
  (lexer.lookahead, lexer.searches)

theorem readQuote_memory (lexer : Lexer) : lexer.readQuote.lexer.memory = lexer.memory := by
  unfold readQuote
  split <;> rfl

theorem readText_memory (lexer : Lexer) : lexer.readText.lexer.memory = lexer.memory := by
  unfold readText
  split
  · rfl
  · split
    · rfl
    · split <;> rfl

theorem readOperator_memory (lexer : Lexer) :
    lexer.readOperator.lexer.memory = lexer.memory := by
  unfold readOperator
  split <;> rfl

theorem readKey_memory (lexer : Lexer) :
    lexer.readKey.lexer.memory = lexer.lookAhead.memory := by
  rcases readKey_cases lexer with ⟨fault, hkey⟩ | hkey | ⟨stop, _, hkey⟩
  · rw [hkey]
  · rw [hkey]
  · rw [hkey]
    rfl

theorem lookAhead_memory (lexer : Lexer) :
    lexer.lookAhead.memory = lexer.memory ∨
      lexer.lookahead.isStale lexer.pos = true ∧
        lexer.lookAhead.memory = lexer.search.memory := by
  unfold lookAhead
  split
  · next hstale => exact Or.inr ⟨hstale, rfl⟩
  · exact Or.inl rfl

/-- A rule makes no search, or it makes one, and only if what is remembered is stale. -/
theorem readNext_memory (lexer : Lexer) :
    lexer.readNext.lexer.memory = lexer.memory ∨
      lexer.lookahead.isStale lexer.pos = true ∧
        lexer.readNext.lexer.memory = lexer.search.memory := by
  rcases readNext_cases lexer with herror | ⟨rule, _, houtcome⟩
  · rw [herror]
    exact Or.inl rfl
  · rw [houtcome]
    cases rule with
    | blank | parenthesis | equals => exact Or.inl rfl
    | quote => exact Or.inl (readQuote_memory lexer)
    | operator =>
      rw [Rule.outcome, Outcome.map_lexer]
      exact Or.inl (readOperator_memory lexer)
    | key =>
      rw [Rule.outcome, Outcome.map_lexer, readKey_memory]
      exact lookAhead_memory lexer
    | text =>
      rw [Rule.outcome, readText_memory, readKey_memory]
      exact lookAhead_memory lexer

/-- What a rule does on track: it keeps what is remembered, or it searches. -/
theorem OnTrack.kept_or_searched (h : OnTrack source lexer i) :
    lexer.readNext.lexer.memory = lexer.memory ∨
      ∃ search : Search, search.MadeBetween source lexer lexer.readNext.lexer := by
  obtain ⟨rfl, hpos, _, _⟩ := h
  rcases readNext_memory lexer with hkept | ⟨hstale, hsearched⟩
  · exact Or.inl hkept
  · obtain ⟨hlookahead, hsearches⟩ := Prod.mk.inj hsearched
    refine Or.inr ⟨_, Search.follows_of_isStale hstale, rfl, ⟨i, hpos, ?_⟩, hlookahead, hsearches⟩
    rw [hpos]
    exact Source.find?_least lexer.source i

/-! ## The searches of a run -/

/-- The searches made so far are apart, also from every search that can still be made,
and together with those there are not too many of them. -/
structure Sparing (source : Source) (lexer : Lexer) : Prop where
  apart : lexer.searches.toList.Pairwise (Search.Apart source.size)
  apart_later : ∀ earlier ∈ lexer.searches.toList, ∀ later : Search,
    later.Follows lexer.lookahead → earlier.Apart source.size later
  length_le : lexer.searches.toList.length + lexer.lookahead.searchesLeft source ≤
    source.chars.toList.count equalsSign + 1

namespace Sparing

theorem ofSource (source : Source) : Sparing source (ofSource source) :=
  ⟨.nil, fun _ hmem => absurd hmem List.not_mem_nil, Nat.le_of_eq (Nat.zero_add _)⟩

theorem congr (h : Sparing source before) (hkept : after.memory = before.memory) :
    Sparing source after := by
  obtain ⟨hlookahead, hsearches⟩ := Prod.mk.inj hkept
  obtain ⟨hapart, hlater, hlength⟩ := h
  rw [← hsearches] at hapart hlater hlength
  rw [← hlookahead] at hlater hlength
  exact ⟨hapart, hlater, hlength⟩

theorem search {search : Search} (h : Sparing source before)
    (hmade : search.MadeBetween source before after) : Sparing source after := by
  have hsearches : after.searches.toList = before.searches.toList ++ [search] := by
    rw [hmade.searches_eq, Array.toList_push]
  constructor
  · rw [hsearches, List.pairwise_append]
    refine ⟨h.apart, List.pairwise_singleton _ _, ?_⟩
    intro earlier hmem later hlater
    rw [List.mem_singleton.mp hlater]
    exact h.apart_later earlier hmem search hmade.follows
  · intro earlier hmem later hfollows
    rw [hsearches, List.mem_append] at hmem
    rcases hmem with hmem | hmem
    · exact h.apart_later earlier hmem later (hfollows.of_leads hmade.leads)
    · rw [List.mem_singleton.mp hmem]
      rw [hmade.lookahead_eq] at hfollows
      exact hfollows.apart source.size
  · have hle := h.length_le
    have hlt := hmade.searchesLeft_lt
    rw [hsearches, List.length_append, List.length_singleton]
    omega

theorem next (h : Sparing source lexer) (htrack : OnTrack source lexer i) :
    Sparing source lexer.readNext.lexer := by
  rcases htrack.kept_or_searched with hkept | ⟨search, hmade⟩
  · exact h.congr hkept
  · exact h.search hmade

end Sparing

/-- How the states of a run look for equals signs. -/
structure SearchesSparingly (source : Source) (states : List Lexer) : Prop where
  /-- At first nothing is remembered, and no search has been made. -/
  unsearched : ∀ first ∈ states.head?, first.memory = (.unsearched, #[])
  /-- Later there are greater and greater positions, and in the end there may be
  none. -/
  ordered : states.Pairwise fun before after => before.lookahead.Leads after.lookahead
  /-- Every position that is remembered is one of an equals sign. -/
  equalsAt : ∀ state ∈ states, ∀ q, state.lookahead = .found q → source.EqualsAt q
  /-- From one state to the next, no search is made and what is remembered stays, or
  one search is made behind the position that it replaces. -/
  step : states.IsChain fun before after =>
    after.memory = before.memory ∨
      ∃ search : Search, search.MadeBetween source before after

theorem isChain_searches (source : Source) :
    (ofSource source).states.IsChain fun before after =>
      after.memory = before.memory ∨
        ∃ search : Search, search.MadeBetween source before after := by
  refine (isChain_states (ofSource source)).imp_of_mem_imp ?_
  intro before after hmem _ hstep
  obtain ⟨i, htrack⟩ := onTrack_of_mem_states hmem
  rw [hstep.2]
  exact htrack.kept_or_searched

theorem searchesSparingly_states (source : Source) :
    SearchesSparingly source (ofSource source).states where
  unsearched := by
    intro first hfirst
    rw [head?_states, Option.mem_def, Option.some.injEq] at hfirst
    rw [← hfirst]
    rfl
  ordered := by
    refine ((isChain_searches source).imp ?_).pairwise
    intro before after hstep
    rcases hstep with hkept | ⟨search, hmade⟩
    · rw [(Prod.mk.inj hkept).1]
      exact .same
    · exact hmade.leads
  equalsAt := by
    intro state hmem q hfound
    obtain ⟨i, htrack⟩ := onTrack_of_mem_states hmem
    have hright := htrack.right
    rw [hfound] at hright
    exact hright.1
  step := isChain_searches source

theorem sparing_of_mem_states (hmem : state ∈ (ofSource source).states) :
    Sparing source state := by
  refine (forall_mem_states (P := fun state => Sparing source state ∧ ∃ i, OnTrack source state i)
    ⟨.ofSource source, 0, .ofSource source⟩ ?_ state hmem).1
  intro state hend hstate
  obtain ⟨hsparing, i, htrack⟩ := hstate
  obtain ⟨_, k, _, hnext⟩ := htrack.next hend
  exact ⟨hsparing.next htrack, k, hnext⟩

end Lexer

/-- A text is tokenized by a run that searches it sparingly.  The run makes at most one
search for each equals sign, and one more, and no position is examined by two of them. -/
theorem tokenize_searches (text : String) :
    Lexer.IsRun (Lexer.ofString text) (Lexer.ofString text).tokenize.lexer
        (Lexer.ofString text).states ∧
      Lexer.SearchesSparingly (Source.ofString text) (Lexer.ofString text).states ∧
      (Lexer.ofString text).tokenize.lexer.searches.toList.length ≤
        text.toList.count equalsSign + 1 ∧
      (Lexer.ofString text).tokenize.lexer.searches.toList.Pairwise
        (Search.Apart text.length) := by
  have hrun := Lexer.isRun_states text
  have hsparing : Lexer.Sparing (Source.ofString text) (Lexer.ofString text).tokenize.lexer :=
    Lexer.sparing_of_mem_states (List.mem_of_getLast? hrun.last)
  have hsize : (Source.ofString text).size = text.length := by
    rw [Source.size_ofString, String.length_toList]
  refine ⟨hrun, Lexer.searchesSparingly_states (Source.ofString text), ?_, ?_⟩
  · have hle := hsparing.length_le
    have hchars : (Source.ofString text).chars.toList = text.toList := rfl
    rw [hchars] at hle
    omega
  · rw [← hsize]
    exact hsparing.apart

/-- One search for each equals sign, and one that finds none. -/
example : (Lexer.ofString "a = b AND c = d").tokenize.lexer.searches =
    #[⟨0, some 2⟩, ⟨4, some 12⟩, ⟨14, none⟩] := by
  decide +kernel

end QueryHighlight
