import Mathlib
import QueryHighlight.Proofs.Quoting
import QueryHighlight.Proofs.Sources

/-!
# Token listings are unambiguous

A listing is read by people and by programs, which take it line by line.  This module
proves that nothing in a token can spoil that.  Contents, kinds and positions are
arbitrary: they need not come from any text.

* Lines.  `lines` divides a text at every character that is taken for the end of a
  line, and those are more than the newline.
* One token.  What is shown for a token is printable throughout, so no line ends in
  it (`Token.forall_isPrintable_display`), and its four parts can be told apart
  (`Token.display_injective`).
* A listing.  Its lines are what is shown for its tokens (`lines_listing`).

`listing_unambiguous` is the result.
-/

namespace QueryHighlight

/-! ## Lines -/

/-- The characters that end a line: four of ASCII's blanks, three of its separators,
the next-line control, and the line and paragraph separators. -/
def lineBreaks : CharClass where
  ranges := [(0x0A, 0x0D), (0x1C, 0x1E), (0x85, 0x85), (0x2028, 0x2029)]

/-- The test for a character that ends a line. -/
def endsLine (c : Char) : Bool :=
  lineBreaks.contains c

/-- The lines of a text, without what ends them.  A carriage return and a newline right
after it end one line together, and what stands behind the last line end is a line
unless it is empty. -/
def lines : List Char → List (List Char)
  | [] => []
  | '\r' :: '\n' :: rest => [] :: lines rest
  | c :: rest =>
    if endsLine c then [] :: lines rest
    else
      match lines rest with
      | [] => [[c]]
      | line :: more => (c :: line) :: more

example : lines "a\r\nb\x0b\n\u2028c".toList =
    ["a".toList, "b".toList, [], [], "c".toList] := by
  decide +kernel

/-- Whatever ends a line is a blank, and not the space. -/
theorem isSpace_of_endsLine {c : Char} (h : endsLine c = true) :
    isSpace c = true ∧ c ≠ ' ' := by
  have hwithin : ∀ range ∈ lineBreaks.ranges,
      (∃ blank ∈ whiteSpace.ranges, blank.1 ≤ range.1 ∧ range.2 ≤ blank.2) ∧
        ¬(range.1 ≤ ' '.toNat ∧ ' '.toNat ≤ range.2) := by
    decide
  obtain ⟨range, hmem, hlo, hhi⟩ := CharClass.contains_iff.mp h
  obtain ⟨⟨blank, hblank, hfirst, hlast⟩, hspace⟩ := hwithin range hmem
  constructor
  · exact CharClass.contains_iff.mpr
      ⟨blank, hblank, Nat.le_trans hfirst hlo, Nat.le_trans hhi hlast⟩
  · rintro rfl
    exact hspace ⟨hlo, hhi⟩

theorem endsLine_of_isPrintable {c : Char} (h : isPrintable c = true) :
    endsLine c = false := by
  rw [← Bool.not_eq_true]
  intro hends
  obtain ⟨hspace, hne⟩ := isSpace_of_endsLine hends
  rw [isPrintable_of_isSpace hspace hne] at h
  exact Bool.false_ne_true h

theorem lines_newline (rest : List Char) : lines ('\n' :: rest) = [] :: lines rest := by
  rw [lines]
  · exact if_pos (by decide)
  · intro _ hreturn
    exact absurd hreturn (by decide)

theorem lines_cons {c : Char} (h : endsLine c = false) (text : List Char) {line : List Char}
    {more : List (List Char)} (htext : lines text = line :: more) :
    lines (c :: text) = (c :: line) :: more := by
  rw [lines, if_neg (Bool.eq_false_iff.mp h), htext]
  rintro _ rfl _
  exact absurd h (by decide)

/-- A line without line ends in it, and its newline, are taken off the front. -/
theorem lines_append_newline {line : List Char} (h : ∀ c ∈ line, endsLine c = false)
    (rest : List Char) : lines (line ++ '\n' :: rest) = line :: lines rest := by
  induction line with
  | nil => exact lines_newline rest
  | cons c line ih =>
    obtain ⟨hc, hline⟩ := List.forall_mem_cons.mp h
    exact lines_cons hc _ (ih hline)

/-! ## One token -/

theorem TokenKind.constant_injective {a b : TokenKind} (h : a.constant = b.constant) :
    a = b := by
  have hnodup : (TokenKind.all.map TokenKind.constant).Nodup := by decide
  exact List.inj_on_of_nodup_map hnodup (TokenKind.mem_all a) (TokenKind.mem_all b) h

/-- There is no comma in the name of a kind. -/
theorem TokenKind.mem_constant {kind : TokenKind} {c : Char}
    (h : c ∈ kind.constant.toList) : isPrintable c = true ∧ c ≠ ',' := by
  have hall : kind.constant.toList.all (fun c => isPrintable c && c != ',') = true := by
    cases kind <;> decide +kernel
  simpa using List.all_eq_true.mp hall c h

theorem isPrintable_of_isDigit {c : Char} (h : c.isDigit = true) : isPrintable c = true := by
  simp only [Char.isDigit, Bool.and_eq_true, decide_eq_true_eq, ge_iff_le,
    UInt32.le_iff_toNat_le] at h
  obtain ⟨hlo, hhi⟩ := h
  apply isPrintable_of_ascii
  · exact Nat.le_trans (by decide) hlo
  · exact Nat.le_trans hhi (by decide)

theorem mem_natRepr {n : Nat} {c : Char} (h : c ∈ n.repr.toList) :
    isPrintable c = true ∧ c ≠ ':' := by
  rw [Nat.toList_repr] at h
  have hdigit := Nat.isDigit_of_mem_toDigits (by decide) (by decide) h
  refine ⟨isPrintable_of_isDigit hdigit, ?_⟩
  rintro rfl
  exact absurd hdigit (by decide)

/-- There is no colon in a position. -/
theorem mem_repr {n : Int} {c : Char} (h : c ∈ n.repr.toList) :
    isPrintable c = true ∧ c ≠ ':' := by
  rw [Int.repr_eq_if] at h
  split at h
  · exact mem_natRepr h
  · rw [String.toList_append, List.mem_append] at h
    rcases h with hsign | hdigit
    · rw [List.mem_singleton.mp hsign]
      decide +kernel
    · exact mem_natRepr hdigit

namespace Token

theorem toList_display (token : Token) :
    token.display.toList = "Token(".toList ++ (token.kind.constant.toList ++
      ',' :: ' ' :: (Quoted.encode token.content.toList ++ ',' :: ' ' ::
        (token.start.repr.toList ++ ':' :: (token.stop.repr.toList ++ [')'])))) := by
  simp only [display, quoted, Int.toString_eq_repr, String.toList_append,
    String.toList_ofList, List.append_assoc, String.reduceToList, List.cons_append,
    List.nil_append]

/-- What is shown for a token is printable, whatever its content is. -/
theorem forall_isPrintable_display (token : Token) :
    ∀ c ∈ token.display.toList, isPrintable c = true := by
  have hword : ∀ c ∈ "Token(".toList, isPrintable c = true := by
    rw [← List.all_eq_true]
    decide +kernel
  have hcomma : isPrintable ',' = true := by decide +kernel
  have hspace : isPrintable ' ' = true := by decide +kernel
  have hcolon : isPrintable ':' = true := by decide +kernel
  have hclose : isPrintable ')' = true := by decide +kernel
  rw [toList_display]
  simp only [List.forall_mem_append, List.forall_mem_cons]
  exact ⟨hword, fun _ hkind => (TokenKind.mem_constant hkind).1, hcomma, hspace,
    fun _ => Quoted.isPrintable_of_mem_encode, hcomma, hspace,
    fun _ hstart => (mem_repr hstart).1, hcolon, fun _ hstop => (mem_repr hstop).1, hclose,
    List.forall_mem_nil _⟩

theorem forall_endsLine_display (token : Token) :
    ∀ c ∈ token.display.toList, endsLine c = false := by
  intro c hmem
  exact endsLine_of_isPrintable (token.forall_isPrintable_display c hmem)

/-- Two tokens that are shown alike are the same token. -/
theorem display_injective {a b : Token} (h : a.display = b.display) : a = b := by
  have hlist := congrArg String.toList h
  rw [toList_display, toList_display, List.append_cancel_left_eq] at hlist
  -- A part ends where its separator stands first, and quoted text where its quote does.
  obtain ⟨hkind, hlist⟩ := append_separator_inj (fun hmem => (TokenKind.mem_constant hmem).2 rfl)
    (fun hmem => (TokenKind.mem_constant hmem).2 rfl) hlist
  obtain ⟨hcontent, hlist⟩ := Quoted.encode_append_inj (List.tail_eq_of_cons_eq hlist)
  obtain ⟨hstart, hlist⟩ := append_separator_inj (fun hmem => (mem_repr hmem).2 rfl)
    (fun hmem => (mem_repr hmem).2 rfl)
    (List.tail_eq_of_cons_eq (List.tail_eq_of_cons_eq hlist))
  have hstop := List.append_cancel_right hlist
  rw [String.toList_inj] at hkind hcontent hstart hstop
  cases a
  cases b
  rw [Token.mk.injEq]
  exact ⟨TokenKind.constant_injective hkind, hcontent, Int.repr_inj.mp hstart,
    Int.repr_inj.mp hstop⟩

end Token

/-! ## A listing -/

theorem toList_listing_cons (token : Token) (tokens : List Token) :
    (listing (token :: tokens)).toList =
      token.display.toList ++ '\n' :: (listing tokens).toList := by
  simp [listing]

/-- The lines of a listing show one token each. -/
theorem lines_listing (tokens : List Token) :
    lines (listing tokens).toList = tokens.map fun token => token.display.toList := by
  induction tokens with
  | nil => rfl
  | cons token tokens ih =>
    rw [toList_listing_cons, lines_append_newline token.forall_endsLine_display, ih,
      List.map_cons]

/-- The only line ends of a listing are the newlines behind its tokens. -/
theorem filter_endsLine_listing (tokens : List Token) :
    (listing tokens).toList.filter endsLine = List.replicate tokens.length '\n' := by
  induction tokens with
  | nil => rfl
  | cons token tokens ih =>
    have hdisplay : token.display.toList.filter endsLine = [] := by
      rw [List.filter_eq_nil_iff]
      intro c hmem
      rw [token.forall_endsLine_display c hmem]
      exact Bool.false_ne_true
    rw [toList_listing_cons, List.filter_append, hdisplay, List.nil_append,
      List.filter_cons_of_pos (by decide), ih, List.length_cons, List.replicate_succ]

theorem listing_injective {tokens tokens' : List Token} (h : listing tokens = listing tokens') :
    tokens = tokens' := by
  have hlines := congrArg (fun text => lines text.toList) h
  simp only [lines_listing] at hlines
  refine List.map_injective_iff.mpr ?_ hlines
  intro a b hshown
  exact Token.display_injective (String.toList_inj.mp hshown)

namespace Process

/-- A call asks for the tokens of a query that is there. -/
def Tokenizes (process : Process) (arguments : List String) (query : String) : Prop :=
  ∃ name more title, withoutFlags arguments = "tokenize" :: name :: more ∧
    process.surroundings.Offers name query title

theorem Tokenizes.output_eq {process : Process} {arguments : List String} {query : String}
    (h : process.Tokenizes arguments query) :
    (process.call arguments).1.output = listing (tokenize query) := by
  obtain ⟨name, more, title, hkept, hoffers⟩ := h
  have hanswer := Surroundings.answer_run_ok .tokenize hoffers more
  have hcall := process.answer_call arguments
  rw [hkept] at hcall
  exact congrArg Prod.snd (hcall.trans hanswer)

end Process

/-- A listing can be taken apart again, whatever the tokens are.  Its line ends are the
newlines behind the tokens, so its lines are what is shown for them; different tokens
are shown differently; and so no two lists of tokens have the same listing.  What the
program prints for a query therefore shows which tokens the query has. -/
theorem listing_unambiguous :
    (∀ tokens : List Token,
        (listing tokens).toList.filter endsLine = List.replicate tokens.length '\n' ∧
          lines (listing tokens).toList = tokens.map fun token => token.display.toList) ∧
      (∀ a b : Token, a.display = b.display ↔ a = b) ∧
      (∀ tokens tokens' : List Token, listing tokens = listing tokens' ↔ tokens = tokens') ∧
      ∀ (process process' : Process) (arguments arguments' : List String)
        (query query' : String),
        process.Tokenizes arguments query → process'.Tokenizes arguments' query' →
        ((process.call arguments).1.output = (process'.call arguments').1.output ↔
          tokenize query = tokenize query') := by
  refine ⟨fun tokens => ⟨filter_endsLine_listing tokens, lines_listing tokens⟩, ?_, ?_, ?_⟩
  · intro a b
    exact ⟨Token.display_injective, congrArg Token.display⟩
  · intro tokens tokens'
    exact ⟨listing_injective, congrArg listing⟩
  · intro process process' arguments arguments' query query' h h'
    rw [h.output_eq, h'.output_eq]
    exact ⟨listing_injective, congrArg listing⟩

/-- A quoted literal that holds both delimiters of quoted text, a line end and what
looks like the end of a line. -/
def forgedQuery : String :=
  "”'\"\n:1)”"

/-- A process with that query in a file, and in standard input with a blank behind it. -/
def forgedProcess : Process :=
  .start ⟨((FileTree.empty .root).add "q" (.file (Utf8.encode forgedQuery.toList))).look,
    Utf8.encode (forgedQuery ++ " ").toList⟩

/-- The two queries are printed alike, since they have the same tokens.  Content that
imitates a listing is not taken for one. -/
theorem listing_unambiguous_forged :
    forgedProcess.Tokenizes ["-v", "tokenize", "q"] forgedQuery ∧
      forgedProcess.Tokenizes ["tokenize", "-"] (forgedQuery ++ " ") ∧
      (forgedProcess.call ["-v", "tokenize", "q"]).1.output =
        (forgedProcess.call ["tokenize", "-"]).1.output ∧
      tokenize forgedQuery = tokenize (forgedQuery ++ " ") ∧
      listing [⟨.key, "a', 0:1)\nToken(KEY, 'b", 0, 1⟩] ≠
        listing [⟨.key, "a", 0, 1⟩, ⟨.key, "b", 0, 1⟩] := by
  have hfile : forgedProcess.Tokenizes ["-v", "tokenize", "q"] forgedQuery := by
    have hlook : forgedProcess.surroundings.files (Path.ofString "q") =
        .content (Utf8.encode forgedQuery.toList) := by
      decide +kernel
    refine ⟨"q", [], _, by decide +kernel, .file (by decide) hlook ?_⟩
    exact ⟨forgedQuery.toList, rfl, linesUnified_iff.mpr (by decide +kernel)⟩
  have hstandard : forgedProcess.Tokenizes ["tokenize", "-"] (forgedQuery ++ " ") := by
    refine ⟨"-", [], _, by decide +kernel, .standard ?_⟩
    exact ⟨(forgedQuery ++ " ").toList, rfl, linesUnified_iff.mpr (by decide +kernel)⟩
  have houtput : (forgedProcess.call ["-v", "tokenize", "q"]).1.output =
      (forgedProcess.call ["tokenize", "-"]).1.output := by
    decide +kernel
  obtain ⟨_, _, hlisting, hcalls⟩ := listing_unambiguous
  refine ⟨hfile, hstandard, houtput, (hcalls _ _ _ _ _ _ hfile hstandard).mp houtput, ?_⟩
  exact mt (hlisting _ _).mp (by decide)

end QueryHighlight
