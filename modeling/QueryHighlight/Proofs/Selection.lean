import QueryHighlight.Proofs.Styling

/-!
# Which starts of class names make rules that select

The start of the class names is checked when a renderer is made, for the sake of the
markup.  It is written into the stylesheet as well, where more is asked of it: a class
name must be an identifier there.  A rule with any other name for its selector is
dropped, so a page shows the elements of its class without their style.  This module
says for which starts the rules of a page select the elements that they are written for.

* Identifiers.  `isIdentifier` is the test for one.  A class name passes it unless the
  start begins like a number (`Renderer.isIdentifier_className`).
* Elements with a class.  `Markup.classes` reads the classes of a tag, and
  `Renderer.carriers_page` finds the elements of a page that have the class of a kind.
* Rules and elements.  `Stylesheet.Rule.selects` is the test that joins the two, and
  `Renderer.stylesFor_openTag` says which styles the element of a token is given.

`Renderer.page_selects_iff` is the result.
-/

namespace QueryHighlight

/-! ## Identifiers -/

/-- A character that may stand in an identifier. -/
def isNameChar (c : Char) : Bool :=
  c.isAlphanum || c == '_' || c == '-'

/-- A character with which an identifier may begin, hyphens apart. -/
def beginsName (c : Char) : Bool :=
  c.isAlpha || c == '_'

/-- The test for an identifier of a stylesheet, among texts of ASCII characters without
escapes.  It begins with a letter or an underscore, with a hyphen and one of these, or
with two hyphens.  Letters, digits, hyphens and underscores follow. -/
def isIdentifier : List Char → Bool
  | '-' :: c :: rest => (beginsName c || c == '-') && rest.all isNameChar
  | c :: rest => beginsName c && rest.all isNameChar
  | [] => false

/-- The test for text that begins like a number: with a digit, or with a hyphen and a
digit. -/
def beginsNumber : List Char → Bool
  | '-' :: c :: _ => c.isDigit
  | c :: _ => c.isDigit
  | [] => false

theorem isIdentifier_cons {c : Char} (h : c ≠ '-') (rest : List Char) :
    isIdentifier (c :: rest) = (beginsName c && rest.all isNameChar) := by
  unfold isIdentifier
  split
  · next heq => exact absurd (List.head_eq_of_cons_eq heq) h
  · next heq =>
    obtain ⟨rfl, rfl⟩ := List.cons_eq_cons.mp heq
    rfl
  · next heq => exact absurd heq (List.cons_ne_nil _ _)

theorem beginsNumber_cons {c : Char} (h : c ≠ '-') (rest : List Char) :
    beginsNumber (c :: rest) = c.isDigit := by
  unfold beginsNumber
  split
  · next heq => exact absurd (List.head_eq_of_cons_eq heq) h
  · next heq => rw [List.head_eq_of_cons_eq heq]
  · next heq => exact absurd heq (List.cons_ne_nil _ _)

theorem isDigit_eq_false_of_isAlpha {c : Char} (h : c.isAlpha = true) : c.isDigit = false := by
  have hcode := toNat_of_isAlpha h
  have hnine : '9'.toNat = 57 := rfl
  rw [Bool.eq_false_iff]
  intro hdigit
  have hrange := Char.isDigit_iff_toNat.mp hdigit
  omega

/-- Of the characters of an identifier, the digits are those that cannot stand behind a
first hyphen. -/
theorem beginsName_or_hyphen {c : Char} (h : isNameChar c = true) :
    (beginsName c || c == '-') = !c.isDigit := by
  cases hdigit : c.isDigit with
  | true =>
    have halpha : c.isAlpha = false := by
      rw [Bool.eq_false_iff]
      intro halpha
      rw [isDigit_eq_false_of_isAlpha halpha] at hdigit
      exact absurd hdigit Bool.false_ne_true
    have hunderscore : c ≠ '_' := by
      rintro rfl
      exact absurd hdigit (by decide)
    have hhyphen : c ≠ '-' := by
      rintro rfl
      exact absurd hdigit (by decide)
    simp [beginsName, halpha, hunderscore, hhyphen]
  | false =>
    rw [isNameChar, Char.isAlphanum, hdigit, Bool.or_false] at h
    exact h

/-- Name characters make an identifier, unless they begin like a number or are a hyphen on
its own. -/
theorem isIdentifier_eq_not_beginsNumber {name : List Char}
    (hname : name.all isNameChar = true) (hne : name ≠ []) (hhyphen : name ≠ ['-']) :
    isIdentifier name = !beginsNumber name := by
  cases name with
  | nil => exact absurd rfl hne
  | cons first rest =>
    rw [List.all_cons, Bool.and_eq_true] at hname
    by_cases hfirst : first = '-'
    · subst hfirst
      -- The character behind the hyphen decides.
      cases rest with
      | nil => exact absurd rfl hhyphen
      | cons second rest =>
        rw [List.all_cons, Bool.and_eq_true] at hname
        rw [isIdentifier, beginsNumber, beginsName_or_hyphen hname.2.1, hname.2.2,
          Bool.and_true]
    · have hbegins := beginsName_or_hyphen hname.1
      rw [beq_false_of_ne hfirst, Bool.or_false] at hbegins
      rw [isIdentifier_cons hfirst, beginsNumber_cons hfirst, hbegins, hname.2, Bool.and_true]

example : isIdentifier "--key".toList = true ∧ isIdentifier "-1key".toList = false := by decide

/-- Whether a text begins like a number is settled in front of its first letter. -/
theorem beginsNumber_append (start : List Char) {c : Char} (h : c.isAlpha = true)
    (rest : List Char) : beginsNumber (start ++ c :: rest) = beginsNumber start := by
  have hdigit := isDigit_eq_false_of_isAlpha h
  cases start with
  | nil =>
    have hne : c ≠ '-' := by
      rintro rfl
      exact absurd h (by decide)
    rw [List.nil_append, beginsNumber_cons hne, hdigit, beginsNumber]
  | cons first start =>
    by_cases hfirst : first = '-'
    · subst hfirst
      cases start with
      | nil => exact hdigit
      | cons second start => rfl
    · rw [List.cons_append, beginsNumber_cons hfirst, beginsNumber_cons hfirst]

/-- A label begins with a letter. -/
theorem TokenKind.exists_toList_label (kind : TokenKind) :
    ∃ c rest, kind.label.toList = c :: rest ∧ c.isAlpha = true := by
  cases kind <;> exact ⟨_, _, rfl, by decide⟩

namespace Renderer

theorem className_ne_nil (renderer : Renderer) (kind : TokenKind) :
    (renderer.className kind).toList ≠ [] := by
  obtain ⟨c, rest, hlabel, -⟩ := kind.exists_toList_label
  rw [className, String.toList_append, hlabel]
  exact List.append_ne_nil_of_right_ne_nil _ (List.cons_ne_nil c rest)

/-- A class name is an identifier, unless the start that it is given begins like a
number. -/
theorem isIdentifier_className (renderer : Renderer) (kind : TokenKind) :
    isIdentifier (renderer.className kind).toList =
      !beginsNumber renderer.classPrefix.toList := by
  obtain ⟨c, rest, hlabel, hc⟩ := kind.exists_toList_label
  have hname : (renderer.className kind).toList =
      renderer.classPrefix.toList ++ c :: rest := by
    rw [className, String.toList_append, hlabel]
  have hletter : (renderer.className kind).toList ≠ ['-'] := by
    intro heq
    have hmem : c ∈ ['-'] := by
      rw [← heq, hname]
      simp
    rw [List.mem_singleton.mp hmem] at hc
    exact absurd hc (by decide)
  rw [isIdentifier_eq_not_beginsNumber (renderer.isClassPrefix_className kind)
    (renderer.className_ne_nil kind) hletter, hname, beginsNumber_append _ hc]

end Renderer

/-! ## Elements with a class -/

namespace Markup

/-- The white space that stands between the classes of an element. -/
def separatesClasses (c : Char) : Bool :=
  c == ' ' || c == '\t' || c == '\n' || c == '\x0c' || c == '\r'

/-- The classes of the element that a tag opens: the words of the value of its class
attribute. -/
def classes (tag : List Char) : List (List Char) :=
  (((classValue? tag).getD []).splitOnP separatesClasses).filter (· ≠ [])

/-- The tags of the elements that carry a class, in order. -/
def carriers (name markup : List Char) : List (List Char) :=
  (tags markup).filter fun tag => name ∈ classes tag

end Markup

namespace Renderer

theorem classes_openTag (renderer : Renderer) (kind : TokenKind) :
    Markup.classes (renderer.openTag kind).toList = [(renderer.className kind).toList] := by
  have hwhole : ∀ c ∈ (renderer.className kind).toList, Markup.separatesClasses c = false := by
    intro c hmem
    rw [Bool.eq_false_iff]
    intro hspace
    have hcases : c = ' ' ∨ c = '\t' ∨ c = '\n' ∨ c = '\x0c' ∨ c = '\r' := by
      simpa [Markup.separatesClasses, or_assoc] using hspace
    rcases hcases with rfl | rfl | rfl | rfl | rfl <;>
      exact renderer.not_mem_className kind (by decide) hmem
  rw [Markup.classes, classValue?_openTag, Option.getD_some,
    List.splitOnP_eq_singleton hwhole, List.filter_cons_of_pos, List.filter_nil]
  simpa using renderer.className_ne_nil kind

theorem classes_closeTag (renderer : Renderer) :
    Markup.classes renderer.closeTag.toList = [] := by
  rw [Markup.classes, classValue?_closeTag]
  rfl

/-- The element of a token carries the class of its own kind and no other one. -/
theorem mem_classes_openTag (renderer : Renderer) {kind other : TokenKind} :
    (renderer.className kind).toList ∈ Markup.classes (renderer.openTag other).toList ↔
      other = kind := by
  rw [classes_openTag, List.mem_singleton]
  constructor
  · intro heq
    exact (renderer.className_injective (String.toList_inj.mp heq)).symm
  · rintro rfl
    rfl

/-- The elements of a highlighted text that carry the class of a kind are those of the
tokens of this kind. -/
theorem carriers_highlight (renderer : Renderer) (kind : TokenKind) (text : String) :
    Markup.carriers (renderer.className kind).toList (renderer.highlight text).toList =
      ((tokenize text).filter fun token => token.kind = kind).map fun token =>
        (renderer.openTag token.kind).toList := by
  rw [Markup.carriers, tags_highlight]
  generalize tokenize text = tokens
  induction tokens with
  | nil => rfl
  | cons token tokens ih =>
    rw [List.flatMap_cons, List.filter_append, ih]
    by_cases hkind : token.kind = kind
    · simp [hkind, classes_openTag, classes_closeTag]
    · have hother := mt renderer.mem_classes_openTag.mp hkind
      simp [hkind, hother, classes_closeTag]

/-- The only class in the frame of a page is that of the preview. -/
theorem not_mem_classes_frame (renderer : Renderer) (kind : TokenKind) :
    ∀ tag ∈ (Page.openingTags ++ Page.closingTags).map String.toList,
      (renderer.className kind).toList ∉ Markup.classes tag := by
  have hframe : ∀ tag ∈ (Page.openingTags ++ Page.closingTags).map String.toList,
      ∀ name ∈ Markup.classes tag, name = previewClass.toList := by
    decide +kernel
  intro tag htag hmem
  exact renderer.className_ne_previewClass kind
    (String.toList_inj.mp (hframe tag htag _ hmem))

/-- The elements of a page that carry the class of a kind are those of the tokens of this
kind. -/
theorem carriers_page (renderer : Renderer) (kind : TokenKind) (text title : String) :
    Markup.carriers (renderer.className kind).toList (renderer.page text title).toList =
      ((tokenize text).filter fun token => token.kind = kind).map fun token =>
        (renderer.openTag token.kind).toList := by
  have hframe := renderer.not_mem_classes_frame kind
  rw [List.map_append, List.forall_mem_append] at hframe
  have hfront : (Page.openingTags.map String.toList).filter
      (fun tag => (renderer.className kind).toList ∈ Markup.classes tag) = [] := by
    simpa using hframe.1
  have hback : (Page.closingTags.map String.toList).filter
      (fun tag => (renderer.className kind).toList ∈ Markup.classes tag) = [] := by
    simpa using hframe.2
  rw [← carriers_highlight, Markup.carriers, Markup.carriers, tags_page, List.filter_append,
    List.filter_append, hfront, hback, List.nil_append, List.append_nil]

end Renderer

/-! ## Rules and elements -/

namespace Stylesheet

/-- The class that a rule is for, if its selector is a full stop with an identifier behind
it.  There is none for any other selector, and such a rule is dropped. -/
def Rule.className? (rule : Rule) : Option (List Char) :=
  match rule.selector with
  | '.' :: name => if isIdentifier name then some name else none
  | _ => none

/-- Whether a rule selects the element that a tag opens. -/
def Rule.selects (rule : Rule) (tag : List Char) : Bool :=
  rule.className?.any fun name => name ∈ Markup.classes tag

/-- The styles that a stylesheet gives to the element that a tag opens. -/
def stylesFor (css tag : List Char) : List (List Char) :=
  ((rules css).filter fun rule => rule.selects tag).map Rule.style

theorem Rule.className?_eq_some_iff {rule : Rule} {name : List Char} :
    rule.className? = some name ↔ rule.selector = '.' :: name ∧ isIdentifier name = true := by
  unfold Rule.className?
  split
  · next word heq =>
    rw [heq, List.cons_eq_cons, Option.ite_none_right_eq_some, Option.some.injEq]
    constructor
    · rintro ⟨hword, rfl⟩
      exact ⟨⟨rfl, rfl⟩, hword⟩
    · rintro ⟨⟨-, rfl⟩, hword⟩
      exact ⟨hword, rfl⟩
  · next hother =>
    constructor
    · intro hnone
      exact absurd hnone.symm (Option.some_ne_none name)
    · intro hselector
      exact absurd hselector.1 (hother name)

theorem Rule.selects_iff {rule : Rule} {tag : List Char} :
    rule.selects tag = true ↔
      ∃ name ∈ Markup.classes tag, rule.selector = '.' :: name ∧ isIdentifier name = true := by
  rw [Rule.selects, Option.any_eq_true]
  constructor
  · rintro ⟨name, hclass, hmem⟩
    exact ⟨name, of_decide_eq_true hmem, Rule.className?_eq_some_iff.mp hclass⟩
  · rintro ⟨name, hmem, hname⟩
    exact ⟨name, Rule.className?_eq_some_iff.mpr hname, decide_eq_true hmem⟩

end Stylesheet

namespace Renderer

/-- Of the rules of a page, those that select the element of a token. -/
theorem filter_selects_openTag (renderer : Renderer) (kind : TokenKind) :
    (Stylesheet.rules renderer.pageStyle.toList).filter
        (fun rule => rule.selects (renderer.openTag kind).toList) =
      if beginsNumber renderer.classPrefix.toList then []
      else [⟨'.' :: (renderer.className kind).toList, kind.defaultStyle.toList⟩] := by
  have hselects : ∀ rule : Stylesheet.Rule,
      rule.selects (renderer.openTag kind).toList = true ↔
        rule.selector = '.' :: (renderer.className kind).toList ∧
          isIdentifier (renderer.className kind).toList = true := by
    intro rule
    rw [Stylesheet.Rule.selects_iff, classes_openTag]
    simp
  cases hstart : beginsNumber renderer.classPrefix.toList with
  | true =>
    have hname : isIdentifier (renderer.className kind).toList = false := by
      rw [isIdentifier_className, hstart]
      rfl
    rw [if_pos rfl, List.filter_eq_nil_iff]
    intro rule _ hrule
    rw [hselects, hname] at hrule
    exact absurd hrule.2 Bool.false_ne_true
  | false =>
    have hname : isIdentifier (renderer.className kind).toList = true := by
      rw [isIdentifier_className, hstart]
      rfl
    rw [if_neg Bool.false_ne_true, ← filter_rules_className]
    apply List.filter_congr
    intro rule _
    rw [Bool.eq_iff_iff, hselects, decide_eq_true_iff]
    exact and_iff_left hname

/-- The element of a token is given the default style of its kind, but none at all if the
start of the class names begins like a number. -/
theorem stylesFor_openTag (renderer : Renderer) (kind : TokenKind) :
    Stylesheet.stylesFor renderer.pageStyle.toList (renderer.openTag kind).toList =
      if beginsNumber renderer.classPrefix.toList then [] else [kind.defaultStyle.toList] := by
  rw [Stylesheet.stylesFor, filter_selects_openTag]
  split <;> rfl

/-- The class of a kind can be selected on the pages of a renderer. -/
structure SelectsKind (renderer : Renderer) (kind : TokenKind) : Prop where
  /-- The class name is an identifier. -/
  name_valid : isIdentifier (renderer.className kind).toList = true
  /-- On every page, the one rule that is written for the class is read as such, and it
  selects the elements that carry the class. -/
  rule_selects : ∀ text title : String, ∃ css rule,
    Markup.textsBehind "<style>".toList (Markup.pieces (renderer.page text title).toList) =
        [css] ∧
      (Stylesheet.rules css).filter
          (fun rule => rule.selector = '.' :: (renderer.className kind).toList) = [rule] ∧
      rule.className? = some (renderer.className kind).toList ∧
      (Markup.tags (renderer.page text title).toList).filter rule.selects =
        Markup.carriers (renderer.className kind).toList (renderer.page text title).toList

theorem selectsKind_of_isIdentifier {renderer : Renderer} {kind : TokenKind}
    (h : isIdentifier (renderer.className kind).toList = true) :
    renderer.SelectsKind kind := by
  refine ⟨h, ?_⟩
  intro text title
  have hclass : (Stylesheet.Rule.mk ('.' :: (renderer.className kind).toList)
      kind.defaultStyle.toList).className? = some (renderer.className kind).toList :=
    Stylesheet.Rule.className?_eq_some_iff.mpr ⟨rfl, h⟩
  refine ⟨renderer.pageStyle.toList, _, renderer.textsBehind_page text title,
    renderer.filter_rules_className kind, hclass, ?_⟩
  apply List.filter_congr
  intro tag _
  rw [Stylesheet.Rule.selects, hclass, Option.any_some]

/-- The class of a kind can be selected on the pages of a renderer just when the start of
its class names does not begin like a number.  The elements with this class are those of
the tokens of the kind.  They have their default style if the class can be selected, and
otherwise none. -/
theorem page_selects_iff (renderer : Renderer) (kind : TokenKind) :
    (renderer.SelectsKind kind ↔ beginsNumber renderer.classPrefix.toList = false) ∧
      ∀ text title : String, ∃ css : List Char,
        Markup.textsBehind "<style>".toList
            (Markup.pieces (renderer.page text title).toList) = [css] ∧
          Markup.carriers (renderer.className kind).toList
              (renderer.page text title).toList =
            ((tokenize text).filter fun token => token.kind = kind).map
              (fun token => (renderer.openTag token.kind).toList) ∧
          Stylesheet.stylesFor css (renderer.openTag kind).toList =
            if beginsNumber renderer.classPrefix.toList then []
            else [kind.defaultStyle.toList] := by
  have hname : isIdentifier (renderer.className kind).toList = true ↔
      beginsNumber renderer.classPrefix.toList = false := by
    rw [isIdentifier_className, Bool.not_eq_true']
  constructor
  · rw [← hname]
    exact ⟨SelectsKind.name_valid, selectsKind_of_isIdentifier⟩
  · intro text title
    exact ⟨renderer.pageStyle.toList, renderer.textsBehind_page text title,
      renderer.carriers_page kind text title, renderer.stylesFor_openTag kind⟩

/-- A renderer whose class names start with a digit. -/
def numbered : Renderer where
  element := "span"
  classPrefix := "1"
  element_valid := by decide +kernel
  classPrefix_valid := by decide +kernel

/-- The check on the start of the class names lets a digit pass, and the class of a text
token cannot be selected then: the element is on the page, and no rule gives it a style. -/
theorem not_selectsKind_numbered :
    ofWords "span" "1" = .ok numbered ∧
      isIdentifier (numbered.className .text).toList = false ∧
      ¬numbered.SelectsKind .text ∧
      Markup.carriers "1text".toList (numbered.page "a" defaultTitle).toList =
        ["<span class=\"1text\">".toList] ∧
      Stylesheet.stylesFor numbered.pageStyle.toList "<span class=\"1text\">".toList = [] := by
  have hname : isIdentifier (numbered.className .text).toList = false := by decide +kernel
  have hclass : (numbered.className .text).toList = "1text".toList := by decide +kernel
  have hopen : (numbered.openTag .text).toList = "<span class=\"1text\">".toList := by
    decide +kernel
  have htokens : tokenize "a" = [⟨.text, "a", 0, 1⟩] := by decide +kernel
  have hstart : beginsNumber numbered.classPrefix.toList = true := by decide +kernel
  refine ⟨numbered.ofWords_self, hname, ?_, ?_, ?_⟩
  · intro hselects
    rw [hselects.name_valid] at hname
    exact absurd hname.symm Bool.false_ne_true
  · rw [← hclass, carriers_page, htokens, ← hopen]
    rfl
  · rw [← hopen, stylesFor_openTag, hstart, if_pos rfl]

end Renderer
end QueryHighlight
