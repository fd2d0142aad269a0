import QueryHighlight.Proofs.Rendering

/-!
# Escaped texts

Which texts does escaping write, and does it lose anything?  This module answers
both, for the five passes as they are made.

* One character at a time.  `written` says outright what stands in markup for a
  character.  `escape_one_pass` is the result: the passes come to the same, so a text
  can be escaped in parts.
* The image.  `IsEscaped` describes escaped texts without mention of the passes: they
  have no bracket and no quote, and each ampersand begins an entity.  A text of this
  form can be read entity by entity (`IsEscaped.exists_escapeChars`), and
  `escape_invertible` is the result.
-/

namespace QueryHighlight

/-! ## One character at a time -/

/-- What is written for a character.  Five characters have entities, and every other
one is written as itself. -/
def written : Char → String
  | '&' => "&amp;"
  | '<' => "&lt;"
  | '>' => "&gt;"
  | '"' => "&quot;"
  | '\'' => "&#039;"
  | c => c.toString

theorem toList_written (c : Char) : (written c).toList = escapeChar c := by
  rcases escapeChar_cases c with ⟨entry, hmem, rfl, heq⟩ | ⟨hne, heq⟩
  · have hspecial : ∀ entry ∈ entities, written entry.1 = entry.2 := by decide
    rw [heq, hspecial entry hmem]
  · simp only [entities, List.forall_mem_cons] at hne
    obtain ⟨hamp, hopen, hclose, hdouble, hsingle, _⟩ := hne
    rw [heq, written.eq_6 c hamp hopen hclose hdouble hsingle]
    exact String.toList_singleton c

theorem escape_append (a b : String) : escape (a ++ b) = escape a ++ escape b := by
  rw [← String.toList_inj, String.toList_append, toList_escape, toList_escape, toList_escape,
    String.toList_append, escapeChars_append]

/-- Five passes over a text write for each of its characters what is written for that
character alone.  So the escaped form of two texts in a row is made of their own. -/
theorem escape_one_pass :
    (∀ text : String, escape text = String.join (text.toList.map written)) ∧
      ∀ a b : String, escape (a ++ b) = escape a ++ escape b := by
  refine ⟨?_, escape_append⟩
  intro text
  rw [← String.toList_inj, toList_escape, escapeChars_eq_flatMap, String.toList_join,
    List.flatMap_map]
  simp only [toList_written]

/-- Passes do not read what an earlier one has written. -/
example : escape "<&lt;" = "&lt;&amp;lt;" := by decide +kernel

/-! ## The image -/

/-- A text begins with one of the five entities. -/
def BeginsEntity (chars : List Char) : Prop :=
  ∃ entity ∈ ["&amp;", "&lt;", "&gt;", "&quot;", "&#039;"], entity.toList <+: chars

theorem beginsEntity_iff {chars : List Char} :
    BeginsEntity chars ↔ ∃ entry ∈ entities, entry.2.toList <+: chars := by
  simp [BeginsEntity, entities]

/-- A text has the form of an escaped one: there is no bracket and no quote in it, and
every ampersand in it begins an entity. -/
structure IsEscaped (chars : List Char) : Prop where
  plain : ∀ c ∈ chars, c ∉ ['<', '>', '"', '\'']
  entity : ∀ rest, '&' :: rest <:+ chars → BeginsEntity ('&' :: rest)

theorem IsEscaped.of_suffix {chars rest : List Char} (h : IsEscaped chars)
    (hrest : rest <:+ chars) : IsEscaped rest where
  plain c hmem := h.plain c (hrest.mem hmem)
  entity more hmore := h.entity more (hmore.trans hrest)

theorem isEscaped_nil : IsEscaped [] where
  plain _ hmem := absurd hmem List.not_mem_nil
  entity _ hrest := absurd (List.suffix_nil.mp hrest) (List.cons_ne_nil _ _)

theorem isEscaped_cons_iff {c : Char} {rest : List Char} :
    IsEscaped (c :: rest) ↔
      c ∉ ['<', '>', '"', '\''] ∧
        (c = '&' → BeginsEntity (c :: rest)) ∧ IsEscaped rest := by
  constructor
  · intro h
    refine ⟨h.plain c List.mem_cons_self, ?_, h.of_suffix (List.suffix_cons c rest)⟩
    intro hamp
    subst hamp
    exact h.entity rest (List.suffix_refl _)
  · intro ⟨hplain, hentity, hrest⟩
    refine ⟨List.forall_mem_cons.mpr ⟨hplain, hrest.plain⟩, ?_⟩
    intro more hmore
    rcases List.suffix_cons_iff.mp hmore with heq | hsuffix
    · obtain ⟨rfl, rfl⟩ := List.cons.inj heq
      exact hentity rfl
    · exact hrest.entity more hsuffix

/-- Escaped texts are those that are inert in markup without tags. -/
theorem isEscaped_iff_inert {chars : List Char} :
    IsEscaped chars ↔ Markup.Inert (chars.map .char) := by
  induction chars with
  | nil => exact iff_of_true isEscaped_nil .nil
  | cons c rest ih =>
    have hprefix : ∀ entity : List Char,
        entity <+: c :: rest ↔
          entity.map Markup.Piece.char <+: .char c :: rest.map .char := by
      intro entity
      rw [← List.map_cons, List.prefix_map_iff_of_injective]
      exact fun _ _ => Markup.Piece.char.inj
    rw [List.map_cons, isEscaped_cons_iff, Markup.inert_char_iff, ih]
    simp only [beginsEntity_iff, hprefix]

instance (chars : List Char) : Decidable (IsEscaped chars) :=
  decidable_of_iff _ isEscaped_iff_inert.symm

theorem isEscaped_escapeChars (text : List Char) : IsEscaped (escapeChars text) :=
  isEscaped_iff_inert.mpr (Markup.inert_escapeChars text)

/-- Four characters never stand in an escaped text, and the fifth that is escaped is
the ampersand. -/
theorem entities_raw :
    ∀ entry ∈ entities, entry.1 = '&' ∨ entry.1 ∈ ['<', '>', '"', '\''] := by
  decide

theorem entities_ne_nil : ∀ entry ∈ entities, entry.2.toList ≠ [] := by
  decide

theorem escapeChar_of_plain {c : Char} (hplain : c ∉ ['<', '>', '"', '\''])
    (hamp : c ≠ '&') : escapeChar c = [c] := by
  rcases escapeChar_cases c with ⟨entry, hmem, rfl, _⟩ | ⟨_, heq⟩
  · rcases entities_raw entry hmem with hraw | hraw
    · exact absurd hraw hamp
    · exact absurd hraw hplain
  · exact heq

/-- A text that has the form of an escaped one is one. -/
theorem IsEscaped.exists_escapeChars {chars : List Char} (h : IsEscaped chars) :
    ∃ text, escapeChars text = chars := by
  -- An entity is read as a whole, so the induction is on the length.
  induction hlength : chars.length using Nat.strongRecOn generalizing chars with
  | ind n ih =>
    cases chars with
    | nil => exact ⟨[], rfl⟩
    | cons c rest =>
      obtain ⟨hplain, hentity, hrest⟩ := isEscaped_cons_iff.mp h
      by_cases hamp : c = '&'
      · obtain ⟨entry, hmem, tail, htail⟩ := beginsEntity_iff.mp (hentity hamp)
        have hshorter : tail.length < n := by
          have hpos := List.length_pos_iff.mpr (entities_ne_nil entry hmem)
          rw [← hlength, ← htail, List.length_append]
          omega
        obtain ⟨text, rfl⟩ := ih tail.length hshorter (h.of_suffix ⟨_, htail⟩) rfl
        refine ⟨entry.1 :: text, ?_⟩
        rw [escapeChars_cons, escapeChar_entity entry hmem, htail]
      · obtain ⟨text, rfl⟩ := ih rest.length (hlength ▸ Nat.lt_succ_self _) hrest rfl
        refine ⟨c :: text, ?_⟩
        rw [escapeChars_cons, escapeChar_of_plain hplain hamp, List.singleton_append]

theorem unescape_escape (text : String) :
    String.ofList (unescape (escape text).toList) = text := by
  rw [toList_escape, unescape_escapeChars, String.ofList_toList]

theorem IsEscaped.exists_escape {markup : String} (h : IsEscaped markup.toList) :
    ∃ text, escape text = markup := by
  obtain ⟨text, htext⟩ := h.exists_escapeChars
  refine ⟨String.ofList text, ?_⟩
  rw [← String.toList_inj, toList_escape, String.toList_ofList, htext]

/-- Reading entities back undoes escaping.  The escaped texts are exactly those without
brackets and quotes in which every ampersand begins an entity, and escaping undoes the
reading of such a text. -/
theorem escape_invertible :
    (∀ text : String, String.ofList (unescape (escape text).toList) = text) ∧
      ∀ markup : String,
        ((∃ text, escape text = markup) ↔ IsEscaped markup.toList) ∧
          (IsEscaped markup.toList →
            escape (String.ofList (unescape markup.toList)) = markup) := by
  refine ⟨unescape_escape, ?_⟩
  intro markup
  constructor
  · constructor
    · intro ⟨text, htext⟩
      rw [← htext, toList_escape]
      exact isEscaped_escapeChars _
    · exact IsEscaped.exists_escape
  · intro h
    obtain ⟨text, rfl⟩ := h.exists_escape
    rw [unescape_escape]

/-- Entities of entities, and a text that breaks off inside an entity. -/
theorem escape_invertible_nested :
    IsEscaped "&amp;lt;&#039;&amp;#039".toList ∧
      escape (String.ofList (unescape "&amp;lt;&#039;&amp;#039".toList)) =
        "&amp;lt;&#039;&amp;#039" ∧
      ¬∃ text, escape text = "a&lt" := by
  have hnested : IsEscaped "&amp;lt;&#039;&amp;#039".toList := by decide +kernel
  have hbroken : ¬IsEscaped "a&lt".toList := by decide +kernel
  refine ⟨hnested, (escape_invertible.2 _).2 hnested, ?_⟩
  exact mt (escape_invertible.2 "a&lt").1.mp hbroken

end QueryHighlight
