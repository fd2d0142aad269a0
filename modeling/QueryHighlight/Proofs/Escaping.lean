import QueryHighlight.Markup.Escape
import QueryHighlight.Markup.Unescape

/-!
# Escaping and reading back

`escapeChars` makes five passes over a text.  The passes do not disturb each
other, so they come to the same as `escapeChar`, which treats each character on
its own.  Everything else in this module is about one character:
`escapeChar_cases` says what is written for it, and `unescape_escapeChar` that
it is read back.
-/

namespace QueryHighlight

/-! ## Five passes as one -/

/-- One character as it is written into markup. -/
def escapeChar (c : Char) : List Char :=
  match entities.lookup c with
  | some entity => entity.toList
  | none => [c]

theorem replaceChar_append (raw : Char) (entity : String) (a b : List Char) :
    replaceChar raw entity (a ++ b) = replaceChar raw entity a ++ replaceChar raw entity b :=
  List.flatMap_append

/-- Passes go over the two halves of a text apart. -/
theorem foldl_replaceChar_append (entries : List (Char × String)) (a b : List Char) :
    entries.foldl (fun text entry => replaceChar entry.1 entry.2 text) (a ++ b) =
      entries.foldl (fun text entry => replaceChar entry.1 entry.2 text) a ++
        entries.foldl (fun text entry => replaceChar entry.1 entry.2 text) b := by
  induction entries generalizing a b with
  | nil => rfl
  | cons entry entries ih =>
    rw [List.foldl_cons, List.foldl_cons, List.foldl_cons, replaceChar_append, ih]

theorem escapeChars_append (a b : List Char) :
    escapeChars (a ++ b) = escapeChars a ++ escapeChars b :=
  foldl_replaceChar_append entities a b

theorem escapeChar_entity :
    ∀ entry ∈ entities, escapeChar entry.1 = entry.2.toList := by
  decide

/-- A character with an entity is written as it, any other one as itself. -/
theorem escapeChar_cases (c : Char) :
    (∃ entry ∈ entities, c = entry.1 ∧ escapeChar c = entry.2.toList) ∨
      (∀ entry ∈ entities, c ≠ entry.1) ∧ escapeChar c = [c] := by
  by_cases h : ∃ entry ∈ entities, c = entry.1
  · obtain ⟨entry, hmem, rfl⟩ := h
    exact Or.inl ⟨entry, hmem, rfl, escapeChar_entity entry hmem⟩
  · have hne : ∀ entry ∈ entities, c ≠ entry.1 := by
      intro entry hmem heq
      exact h ⟨entry, hmem, heq⟩
    have hlookup : entities.lookup c = none := by
      rw [List.lookup_eq_none_iff]
      intro entry hmem
      apply bne_iff_ne.mpr
      exact hne entry hmem
    refine Or.inr ⟨hne, ?_⟩
    rw [escapeChar, hlookup]

theorem foldl_replaceChar_singleton {c : Char} (entries : List (Char × String))
    (h : ∀ entry ∈ entries, c ≠ entry.1) :
    entries.foldl (fun text entry => replaceChar entry.1 entry.2 text) [c] = [c] := by
  induction entries with
  | nil => rfl
  | cons entry entries ih =>
    rw [List.forall_mem_cons] at h
    have hpass : replaceChar entry.1 entry.2 [c] = [c] := by
      rw [replaceChar, List.flatMap_singleton, if_neg h.1]
    rw [List.foldl_cons, hpass]
    exact ih h.2

theorem escapeChars_singleton (c : Char) : escapeChars [c] = escapeChar c := by
  have hspecial : ∀ entry ∈ entities, escapeChars [entry.1] = entry.2.toList := by decide
  rcases escapeChar_cases c with ⟨entry, hmem, rfl, heq⟩ | ⟨hne, heq⟩
  · rw [hspecial entry hmem, heq]
  · rw [heq]
    exact foldl_replaceChar_singleton entities hne

theorem escapeChars_eq_flatMap (text : List Char) :
    escapeChars text = text.flatMap escapeChar := by
  induction text with
  | nil => rfl
  | cons c text ih =>
    rw [← List.singleton_append, escapeChars_append, escapeChars_singleton, ih]
    show escapeChar c ++ text.flatMap escapeChar = (c :: text).flatMap escapeChar
    rw [List.flatMap_cons]

theorem escapeChars_cons (c : Char) (text : List Char) :
    escapeChars (c :: text) = escapeChar c ++ escapeChars text := by
  rw [escapeChars_eq_flatMap, escapeChars_eq_flatMap, List.flatMap_cons]

theorem toList_escape (text : String) : (escape text).toList = escapeChars text.toList := by
  rw [escape, String.toList_ofList]

/-! ## Reading back -/

theorem unescape_cons_of_ne {c : Char} (h : c ≠ '&') (rest : List Char) :
    unescape (c :: rest) = c :: unescape rest := by
  rw [unescape] <;> intros <;> contradiction

theorem unescape_entity (rest : List Char) :
    ∀ entry ∈ entities, unescape (entry.2.toList ++ rest) = entry.1 :: unescape rest := by
  intro entry hmem
  simp only [entities, List.mem_cons, List.not_mem_nil, or_false] at hmem
  rcases hmem with rfl | rfl | rfl | rfl | rfl <;> rfl

/-- A character is read back whatever follows it. -/
theorem unescape_escapeChar (c : Char) (rest : List Char) :
    unescape (escapeChar c ++ rest) = c :: unescape rest := by
  rcases escapeChar_cases c with ⟨entry, hmem, rfl, heq⟩ | ⟨hne, heq⟩
  · rw [heq, unescape_entity rest entry hmem]
  · rw [heq, List.singleton_append]
    exact unescape_cons_of_ne (hne ('&', "&amp;") (by decide)) rest

theorem unescape_escapeChars_append (text rest : List Char) :
    unescape (escapeChars text ++ rest) = text ++ unescape rest := by
  rw [escapeChars_eq_flatMap]
  induction text with
  | nil => rfl
  | cons c text ih =>
    rw [List.flatMap_cons, List.append_assoc, unescape_escapeChar, ih, List.cons_append]

theorem unescape_escapeChars (text : List Char) : unescape (escapeChars text) = text := by
  have hread := unescape_escapeChars_append text []
  rwa [List.append_nil, unescape, List.append_nil] at hread

end QueryHighlight
