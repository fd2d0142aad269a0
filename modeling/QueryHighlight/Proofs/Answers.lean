import QueryHighlight.Lexer.Refinement
import QueryHighlight.Proofs.Encoding
import QueryHighlight.Proofs.Files
import QueryHighlight.Proofs.Verbosity

/-!
# What the program answers

The answer of a call is how it ends, and an output.  Both are decided by the
arguments that are no flags and by what is found behind one name.  This module gives
the answers as three relations, one for each sort of end, and proves that every call
has an answer in exactly one of them.

* `Offers` says which query a name leads to, and the title of a page for it;
  `Withholds` what is said about a name that leads to none; `Refuses` that the system
  does not say whether there is such a file.
* `Serves` is the condition for status zero, and `Succeeds` the output that goes
  with it.
* `TurnsDown` is the output that goes with status one: the usage text, or a line
  that says what is wrong.  No query has been read then, so there is nothing of it
  to show.
* `Raises` is the condition for an end without a status.  Nothing is put out then.

`answer_of_succeeds`, `answer_of_turnsDown` and `answer_of_raises` follow the program
through each case, `answer_cases` says that there is no other one, and
`Process.call_answers` is the result.
-/

namespace QueryHighlight

/-! ## Requests -/

namespace Command

theorem ofWord?_eq_some_iff {word : String} {command : Command} :
    ofWord? word = some command ↔ word = command.word := by
  constructor
  · intro h
    have hword : (command.word == word) = true :=
      List.find?_some (p := fun command : Command => command.word == word) h
    exact (beq_iff_eq.mp hword).symm
  · intro h
    subst h
    cases command <;> rfl

theorem ofWord?_eq_none_iff {word : String} :
    ofWord? word = none ↔ ∀ command : Command, word ≠ command.word := by
  constructor
  · intro h command hword
    rw [ofWord?_eq_some_iff.mpr hword] at h
    exact absurd h (by simp)
  · intro h
    cases hfind : ofWord? word with
    | none => rfl
    | some command => exact absurd (ofWord?_eq_some_iff.mp hfind) (h command)

theorem exists_word_iff {word : String} :
    (∃ command : Command, word = command.word) ↔ word ∈ ["tokenize", "highlight", "page"] := by
  constructor
  · intro h
    obtain ⟨command, rfl⟩ := h
    cases command <;> decide
  · intro h
    simp only [List.mem_cons, List.not_mem_nil, or_false] at h
    obtain rfl | rfl | rfl := h
    · exact ⟨.tokenize, rfl⟩
    · exact ⟨.highlight, rfl⟩
    · exact ⟨.page, rfl⟩

end Command

/-- The options that ask for no command. -/
def options : List String :=
  ["--help", "-h", "--version"]

namespace Request

theorem ofArguments_unknown {word : String} (hoption : word ∉ options)
    (hcommand : ∀ command : Command, word ≠ command.word) (rest : List String) :
    ofArguments (word :: rest) = .unknown word := by
  simp only [options, List.mem_cons, List.not_mem_nil, or_false, not_or] at hoption
  obtain ⟨hhelp, hshort, hversion⟩ := hoption
  have hnone := Command.ofWord?_eq_none_iff.mpr hcommand
  simp [ofArguments, hhelp, hshort, hversion, hnone]

theorem ofArguments_withoutInput (command : Command) :
    ofArguments [command.word] = .withoutInput command := by
  cases command <;> rfl

theorem ofArguments_run (command : Command) (name : String) (rest : List String) :
    ofArguments (command.word :: name :: rest) = .run command (Input.ofString name) := by
  cases command <;> rfl

/-- Only the first two arguments count. -/
theorem ofArguments_take (arguments : List String) :
    ofArguments (arguments.take 2) = ofArguments arguments := by
  match arguments with
  | [] | [_] | [_, _] => rfl
  | first :: name :: more :: rest =>
    simp only [List.take_succ_cons, List.take_zero, ofArguments]
    cases Command.ofWord? first <;> rfl

end Request

theorem Renderer.ofWords_default : Renderer.ofWords "span" "token-" = .ok Renderer.default :=
  Renderer.default.ofWords_self

namespace Surroundings

variable {surroundings : Surroundings}

/-! ## Queries by name -/

/-- A name leads to a query: a hyphen to the one that standard input holds, and any
other name to the one that the file holds.  With the query comes the title of a page
that shows it. -/
inductive Offers (surroundings : Surroundings) : (name query title : String) → Prop where
  | standard {query : String} (hholds : Holds surroundings.standardInput query) :
      Offers surroundings "-" query "stdin"
  | file {name query : String} {bytes : List UInt8} (hname : name ≠ "-")
      (hfile : surroundings.files (Path.ofString name) = .content bytes)
      (hholds : Holds bytes query) :
      Offers surroundings name query (Path.ofString name).fileName

/-- A name leads to no query, and this is what is said about it. -/
inductive Withholds (surroundings : Surroundings) : (name why : String) → Prop where
  | missing {name : String} (hname : name ≠ "-")
      (hfile : surroundings.files (Path.ofString name) = .missing) :
      Withholds surroundings name ("file not found: " ++ (Path.ofString name).display)
  | unreadable {name : String} {fault : SystemFault} (hname : name ≠ "-")
      (hfile : surroundings.files (Path.ofString name) = .unreadable fault) :
      Withholds surroundings name
        ("cannot read " ++ (Path.ofString name).display ++ ": " ++
          fault.message (Path.ofString name))
  | notUtf8 {name : String} {bytes : List UInt8} {fault : Utf8.Fault} (hname : name ≠ "-")
      (hfile : surroundings.files (Path.ofString name) = .content bytes)
      (hfault : Utf8.decode bytes = .error fault) :
      Withholds surroundings name
        ("cannot read " ++ (Path.ofString name).display ++ ": " ++ fault.message)
  | standard {fault : Utf8.Fault}
      (hfault : Utf8.decode surroundings.standardInput = .error fault) :
      Withholds surroundings "-" ("cannot read stdin: " ++ fault.message)

/-- A name leads nowhere because the system does not say whether there is such a
file. -/
def Refuses (surroundings : Surroundings) (name : String) (fault : SystemFault) : Prop :=
  name ≠ "-" ∧ surroundings.files (Path.ofString name) = .refused fault

theorem name_cases (surroundings : Surroundings) (name : String) :
    (∃ query title, surroundings.Offers name query title) ∨
      (∃ why, surroundings.Withholds name why) ∨ ∃ fault, surroundings.Refuses name fault := by
  by_cases hname : name = "-"
  · subst hname
    rcases holds_or_fault surroundings.standardInput with ⟨query, hholds⟩ | ⟨fault, hfault⟩
    · exact Or.inl ⟨query, _, .standard hholds⟩
    · exact Or.inr (Or.inl ⟨_, .standard hfault⟩)
  · cases hfile : surroundings.files (Path.ofString name) with
    | missing => exact Or.inr (Or.inl ⟨_, .missing hname hfile⟩)
    | refused fault => exact Or.inr (Or.inr ⟨fault, hname, hfile⟩)
    | unreadable fault => exact Or.inr (Or.inl ⟨_, .unreadable hname hfile⟩)
    | content bytes =>
      rcases holds_or_fault bytes with ⟨query, hholds⟩ | ⟨fault, hfault⟩
      · exact Or.inl ⟨query, _, .file hname hfile hholds⟩
      · exact Or.inr (Or.inl ⟨_, .notUtf8 hname hfile hfault⟩)

theorem readQuery_of_offers {name query title : String}
    (h : surroundings.Offers name query title) :
    readQuery (Input.ofString name) (surroundings.look (Input.ofString name)) = .ok query ∧
      (Input.ofString name).title = title := by
  cases h with
  | standard hholds => exact ⟨decodeQuery_eq_ok_iff.mpr hholds, rfl⟩
  | file hname hfile hholds =>
    rw [Input.ofString, if_neg hname, look, hfile]
    exact ⟨decodeQuery_eq_ok_iff.mpr hholds, rfl⟩

/-- The fault of a name that leads to no query is reported. -/
theorem readQuery_of_withholds {name why : String} (h : surroundings.Withholds name why) :
    ∃ fault,
      readQuery (Input.ofString name) (surroundings.look (Input.ofString name)) = .error fault ∧
      fault.response = refuse why "" := by
  cases h with
  | missing hname hfile =>
    rw [Input.ofString, if_neg hname, look, hfile]
    exact ⟨_, rfl, rfl⟩
  | unreadable hname hfile =>
    rw [Input.ofString, if_neg hname, look, hfile]
    exact ⟨_, rfl, rfl⟩
  | notUtf8 hname hfile hfault =>
    rw [Input.ofString, if_neg hname, look, hfile]
    exact ⟨_, decodeQuery_of_fault hfault, rfl⟩
  | standard hfault => exact ⟨_, decodeQuery_of_fault hfault, rfl⟩

theorem readQuery_of_refuses {name : String} {fault : SystemFault}
    (h : surroundings.Refuses name fault) :
    readQuery (Input.ofString name) (surroundings.look (Input.ofString name)) =
      .error (.refused (Path.ofString name) fault) := by
  obtain ⟨hname, hfile⟩ := h
  rw [Input.ofString, if_neg hname, look, hfile]
  rfl

/-! ## Answers -/

/-- The arguments without flags get status zero: there is one, and it is an option,
or a command whose name leads to a query. -/
def Serves (surroundings : Surroundings) (arguments : List String) : Prop :=
  match arguments with
  | [] => False
  | first :: rest =>
    first ∈ options ∨
      first ∈ ["tokenize", "highlight", "page"] ∧
        ∃ name more query title, rest = name :: more ∧ surroundings.Offers name query title

/-- The output with status zero.  What a command writes comes from a lexer and a
renderer that have not failed. -/
inductive Succeeds (surroundings : Surroundings) : List String → String → Prop where
  | help {option : String} (hoption : option ∈ ["--help", "-h"]) (rest : List String) :
      Succeeds surroundings (option :: rest) (usage ++ "\n")
  | version (rest : List String) :
      Succeeds surroundings ("--version" :: rest) ("queryhl " ++ programVersion ++ "\n")
  | tokenize {name query title : String} {tokens : List Token}
      (hoffers : surroundings.Offers name query title)
      (htokens : (Lexer.ofString query).tokenize.answer = .ok tokens) (rest : List String) :
      Succeeds surroundings ("tokenize" :: name :: rest)
        (String.join (tokens.map fun token => token.display ++ "\n"))
  | highlight {name query title : String} {renderer : Renderer}
      (hoffers : surroundings.Offers name query title)
      (hrenderer : Renderer.ofWords "span" "token-" = .ok renderer) (rest : List String) :
      Succeeds surroundings ("highlight" :: name :: rest) (renderer.highlight query ++ "\n")
  | page {name query title : String} {renderer : Renderer}
      (hoffers : surroundings.Offers name query title)
      (hrenderer : Renderer.ofWords "span" "token-" = .ok renderer) (rest : List String) :
      Succeeds surroundings ("page" :: name :: rest) (renderer.page query title)

/-- The output with status one. -/
inductive TurnsDown (surroundings : Surroundings) : List String → String → Prop where
  | nothing : TurnsDown surroundings [] (usage ++ "\n")
  | unknown {word : String} (hoption : word ∉ options)
      (hcommand : ∀ command : Command, word ≠ command.word) (rest : List String) :
      TurnsDown surroundings (word :: rest)
        ("Error: " ++ ("unknown command '" ++ word ++ "'") ++ "\n" ++ (usage ++ "\n"))
  | withoutInput (command : Command) :
      TurnsDown surroundings [command.word]
        ("Error: " ++ ("command '" ++ command.word ++ "' requires a file argument") ++ "\n")
  | withheld (command : Command) {name why : String}
      (hwithholds : surroundings.Withholds name why) (rest : List String) :
      TurnsDown surroundings (command.word :: name :: rest) ("Error: " ++ why ++ "\n")

/-- There is no status for the arguments without flags: a command is to read a file,
and the system does not say whether there is one at the path. -/
inductive Raises (surroundings : Surroundings) : List String → Path → SystemFault → Prop where
  | refused (command : Command) {name : String} {fault : SystemFault}
      (hrefuses : surroundings.Refuses name fault) (rest : List String) :
      Raises surroundings (command.word :: name :: rest) (Path.ofString name) fault

/-- The answer to arguments without flags. -/
def answer (surroundings : Surroundings) (arguments : List String) : Ending × String :=
  let response := (Request.ofArguments arguments).response surroundings.look
  (response.ending, response.output)

theorem answer_run_ok (command : Command) {name query title : String}
    (h : surroundings.Offers name query title) (rest : List String) :
    surroundings.answer (command.word :: name :: rest) =
      (.status 0, command.output query title) := by
  obtain ⟨hread, htitle⟩ := readQuery_of_offers h
  simp only [answer, Request.ofArguments_run, Request.response, hread, htitle]

theorem answer_run_error (command : Command) {name why : String}
    (h : surroundings.Withholds name why) (rest : List String) :
    surroundings.answer (command.word :: name :: rest) =
      (.status 1, "Error: " ++ why ++ "\n") := by
  obtain ⟨fault, hread, hresponse⟩ := readQuery_of_withholds h
  simp only [answer, Request.ofArguments_run, Request.response, hread, hresponse, refuse,
    String.append_empty]

theorem answer_of_raises {arguments : List String} {path : Path} {fault : SystemFault}
    (h : surroundings.Raises arguments path fault) :
    surroundings.answer arguments = (.raised path fault, "") := by
  cases h with
  | refused command hrefuses rest =>
    simp only [answer, Request.ofArguments_run, Request.response,
      readQuery_of_refuses hrefuses, InputFault.response]

theorem answer_of_succeeds {arguments : List String} {output : String}
    (h : surroundings.Succeeds arguments output) :
    surroundings.answer arguments = (.status 0, output) := by
  cases h with
  | help hoption rest =>
    simp only [List.mem_cons, List.not_mem_nil, or_false] at hoption
    obtain rfl | rfl := hoption <;> rfl
  | version rest => rfl
  | @tokenize name query title tokens hoffers htokens rest =>
    -- The program lists the tokens without asking whether there was a fault.
    have htokenize : QueryHighlight.tokenize query = tokens := by
      have hok := (Lexer.tokenize_ofSource (Source.ofString query)).1
      exact Except.ok.inj (hok.symm.trans htokens)
    refine (answer_run_ok .tokenize hoffers rest).trans ?_
    rw [Command.output, htokenize, listing]
  | @highlight name query title renderer hoffers hrenderer rest =>
    rw [← Except.ok.inj (Renderer.ofWords_default.symm.trans hrenderer)]
    exact answer_run_ok .highlight hoffers rest
  | @page name query title renderer hoffers hrenderer rest =>
    rw [← Except.ok.inj (Renderer.ofWords_default.symm.trans hrenderer)]
    exact answer_run_ok .page hoffers rest

theorem answer_of_turnsDown {arguments : List String} {output : String}
    (h : surroundings.TurnsDown arguments output) :
    surroundings.answer arguments = (.status 1, output) := by
  cases h with
  | nothing => rfl
  | unknown hoption hcommand rest =>
    rw [answer, Request.ofArguments_unknown hoption hcommand]
    rfl
  | withoutInput command =>
    simp only [answer, Request.ofArguments_withoutInput, Request.response, refuse,
      String.append_empty]
  | withheld command hwithholds rest => exact answer_run_error command hwithholds rest

theorem exists_succeeds_option {option : String} (h : option ∈ options) (rest : List String) :
    ∃ output, surroundings.Succeeds (option :: rest) output := by
  by_cases hversion : option = "--version"
  · rw [hversion]
    exact ⟨_, .version rest⟩
  · simp only [options, List.mem_cons, List.not_mem_nil, or_false, hversion] at h
    exact ⟨_, .help (by simpa using h) rest⟩

/-- A query that is there can be tokenized, highlighted and put on a page. -/
theorem exists_succeeds_run (command : Command) {name query title : String}
    (h : surroundings.Offers name query title) (rest : List String) :
    ∃ output, surroundings.Succeeds (command.word :: name :: rest) output := by
  cases command with
  | tokenize =>
    exact ⟨_, .tokenize h (Lexer.tokenize_ofSource (Source.ofString query)).1 rest⟩
  | highlight => exact ⟨_, .highlight h Renderer.ofWords_default rest⟩
  | page => exact ⟨_, .page h Renderer.ofWords_default rest⟩

theorem serves_iff {arguments : List String} :
    surroundings.Serves arguments ↔ ∃ output, surroundings.Succeeds arguments output := by
  constructor
  · intro h
    cases arguments with
    | nil => exact h.elim
    | cons first rest =>
      rcases h with hoption | ⟨hword, name, more, query, title, rfl, hoffers⟩
      · exact exists_succeeds_option hoption rest
      · obtain ⟨command, rfl⟩ := Command.exists_word_iff.mpr hword
        exact exists_succeeds_run command hoffers more
  · intro h
    obtain ⟨output, h⟩ := h
    cases h with
    | help hoption rest =>
      simp only [List.mem_cons, List.not_mem_nil, or_false] at hoption
      exact Or.inl (by obtain rfl | rfl := hoption <;> decide)
    | version rest => exact Or.inl (by decide)
    | tokenize hoffers _ rest => exact Or.inr ⟨by decide, _, rest, _, _, rfl, hoffers⟩
    | highlight hoffers _ rest => exact Or.inr ⟨by decide, _, rest, _, _, rfl, hoffers⟩
    | page hoffers _ rest => exact Or.inr ⟨by decide, _, rest, _, _, rfl, hoffers⟩

/-- There is no other answer. -/
theorem answer_cases (surroundings : Surroundings) (arguments : List String) :
    (∃ output, surroundings.Succeeds arguments output) ∨
      (∃ output, surroundings.TurnsDown arguments output) ∨
      ∃ path fault, surroundings.Raises arguments path fault := by
  cases arguments with
  | nil => exact Or.inr (Or.inl ⟨_, .nothing⟩)
  | cons first rest =>
    by_cases hoption : first ∈ options
    · exact Or.inl (exists_succeeds_option hoption rest)
    · by_cases hcommand : ∃ command : Command, first = command.word
      · obtain ⟨command, rfl⟩ := hcommand
        cases rest with
        | nil => exact Or.inr (Or.inl ⟨_, .withoutInput command⟩)
        | cons name rest =>
          rcases surroundings.name_cases name with
            ⟨_, _, hoffers⟩ | ⟨_, hwithholds⟩ | ⟨_, hrefuses⟩
          · exact Or.inl (exists_succeeds_run command hoffers rest)
          · exact Or.inr (Or.inl ⟨_, .withheld command hwithholds rest⟩)
          · exact Or.inr (Or.inr ⟨_, _, .refused command hrefuses rest⟩)
      · exact Or.inr (Or.inl
          ⟨_, .unknown hoption (fun command h => hcommand ⟨command, h⟩) rest⟩)

theorem answer_eq_zero_iff {arguments : List String} {output : String} :
    surroundings.answer arguments = (.status 0, output) ↔
      surroundings.Succeeds arguments output := by
  refine ⟨fun h => ?_, answer_of_succeeds⟩
  rcases surroundings.answer_cases arguments with ⟨_, h'⟩ | ⟨_, h'⟩ | ⟨_, _, h'⟩
  · rw [answer_of_succeeds h', Prod.mk.injEq] at h
    exact h.2 ▸ h'
  · simp [answer_of_turnsDown h'] at h
  · simp [answer_of_raises h'] at h

theorem answer_eq_one_iff {arguments : List String} {output : String} :
    surroundings.answer arguments = (.status 1, output) ↔
      surroundings.TurnsDown arguments output := by
  refine ⟨fun h => ?_, answer_of_turnsDown⟩
  rcases surroundings.answer_cases arguments with ⟨_, h'⟩ | ⟨_, h'⟩ | ⟨_, _, h'⟩
  · simp [answer_of_succeeds h'] at h
  · rw [answer_of_turnsDown h', Prod.mk.injEq] at h
    exact h.2 ▸ h'
  · simp [answer_of_raises h'] at h

theorem answer_eq_raised_iff {arguments : List String} {path : Path} {fault : SystemFault}
    {output : String} :
    surroundings.answer arguments = (.raised path fault, output) ↔
      surroundings.Raises arguments path fault ∧ output = "" := by
  constructor
  · intro h
    rcases surroundings.answer_cases arguments with ⟨_, h'⟩ | ⟨_, h'⟩ | ⟨_, _, h'⟩
    · simp [answer_of_succeeds h'] at h
    · simp [answer_of_turnsDown h'] at h
    · rw [answer_of_raises h', Prod.mk.injEq, Ending.raised.injEq] at h
      obtain ⟨⟨rfl, rfl⟩, houtput⟩ := h
      exact ⟨h', houtput.symm⟩
  · intro h
    obtain ⟨hraises, rfl⟩ := h
    exact answer_of_raises hraises

theorem TurnsDown.usage_or_error {arguments : List String} {output : String}
    (h : surroundings.TurnsDown arguments output) :
    output = usage ++ "\n" ∨ ∃ why, output = "Error: " ++ why := by
  cases h with
  | nothing => exact Or.inl rfl
  | unknown | withoutInput | withheld =>
    simp only [String.append_assoc]
    exact Or.inr ⟨_, rfl⟩

theorem ends_zero_iff {arguments : List String} :
    (surroundings.answer arguments).1 = .status 0 ↔ surroundings.Serves arguments := by
  rw [serves_iff]
  constructor
  · intro h
    exact ⟨_, answer_eq_zero_iff.mp (Prod.ext h rfl)⟩
  · intro h
    obtain ⟨output, h⟩ := h
    rw [answer_of_succeeds h]

theorem ends_raised_iff {arguments : List String} {path : Path} {fault : SystemFault} :
    (surroundings.answer arguments).1 = .raised path fault ↔
      surroundings.Raises arguments path fault := by
  constructor
  · intro h
    exact (answer_eq_raised_iff.mp (Prod.ext h rfl)).1
  · intro h
    rw [answer_of_raises h]

theorem ends_one_iff {arguments : List String} :
    (surroundings.answer arguments).1 = .status 1 ↔
      ¬surroundings.Serves arguments ∧
        ∀ path fault, ¬surroundings.Raises arguments path fault := by
  rw [← ends_zero_iff]
  simp only [← ends_raised_iff]
  constructor
  · intro h
    simp [h]
  · intro h
    obtain ⟨hzero, hraised⟩ := h
    rcases surroundings.answer_cases arguments with ⟨_, h'⟩ | ⟨_, h'⟩ | ⟨path, fault, h'⟩
    · exact absurd (congrArg Prod.fst (answer_of_succeeds h')) hzero
    · exact congrArg Prod.fst (answer_of_turnsDown h')
    · exact absurd (congrArg Prod.fst (answer_of_raises h')) (hraised path fault)

end Surroundings

namespace Process

theorem answer_call (process : Process) (arguments : List String) :
    (process.call arguments).1.answer =
      process.surroundings.answer (withoutFlags arguments) := rfl

/-- Whatever the arguments are, the files and standard input: the arguments that are no
flags decide how a call ends.  Its status is zero exactly if they are served.  There is
no status exactly if a command is to read a file and the system does not say whether
there is one; the fault is raised then, and nothing is put out.  In all other cases the
status is one.  Either status has its outputs, and with status one there is the usage
text or an error.  Of the arguments that are no flags the first two decide all. -/
theorem call_answers (process : Process) (arguments : List String) :
    let answer := (process.call arguments).1.answer
    let kept := withoutFlags arguments
    (answer.1 = .status 0 ↔ process.surroundings.Serves kept) ∧
      (answer.1 = .status 1 ↔ ¬process.surroundings.Serves kept ∧
        ∀ path fault, ¬process.surroundings.Raises kept path fault) ∧
      (∀ path fault, answer.1 = .raised path fault ↔
        process.surroundings.Raises kept path fault) ∧
      (∀ output, answer = (.status 0, output) ↔ process.surroundings.Succeeds kept output) ∧
      (∀ output, answer = (.status 1, output) ↔ process.surroundings.TurnsDown kept output) ∧
      (∀ output, answer = (.status 1, output) →
        output = usage ++ "\n" ∨ ∃ why, output = "Error: " ++ why) ∧
      (∀ path fault output, answer = (.raised path fault, output) → output = "") ∧
      ∀ others, (withoutFlags others).take 2 = kept.take 2 →
        (process.call others).1.answer = answer := by
  intro answer kept
  refine ⟨Surroundings.ends_zero_iff, Surroundings.ends_one_iff,
    fun _ _ => Surroundings.ends_raised_iff, fun _ => Surroundings.answer_eq_zero_iff,
    fun _ => Surroundings.answer_eq_one_iff, ?_, ?_, ?_⟩
  · intro output houtput
    exact (Surroundings.answer_eq_one_iff.mp houtput).usage_or_error
  · intro path fault output houtput
    exact (Surroundings.answer_eq_raised_iff.mp houtput).2
  · intro others htake
    have hrequest : Request.ofArguments (withoutFlags others) = Request.ofArguments kept := by
      rw [← Request.ofArguments_take, htake, Request.ofArguments_take]
    show process.surroundings.answer (withoutFlags others) = process.surroundings.answer kept
    unfold Surroundings.answer
    rw [hrequest]

/-- A process with a query in a directory, and bytes that hold none behind standard
input. -/
def nestedFileProcess : Process :=
  start ⟨((FileTree.empty ⟨["home"]⟩).add "d/q" (.file [97, 13, 61])).look, [98, 0xFF]⟩

/-- Flags stand everywhere, the name of the file starts at the root and is not in its
written form, and more arguments are given than are read. -/
theorem call_answers_nestedFile :
    let arguments := ["-v", "tokenize", "--verbose", "/home/./d//q", "-", "-v"]
    let fault := "'utf-8' codec can't decode byte 0xff in position 1: invalid start byte"
    let refusal := "Error: cannot read stdin: " ++ fault ++ "\n"
    (nestedFileProcess.call arguments).1.answer =
        (.status 0, "Token(KEY, 'a', 0:1)\nToken(EQUALS, '=', 2:3)\n") ∧
      (withoutFlags ["tokenize", "/home/./d//q"]).take 2 = (withoutFlags arguments).take 2 ∧
      (nestedFileProcess.call ["tokenize", "/home/./d//q"]).1.answer =
        (nestedFileProcess.call arguments).1.answer ∧
      (nestedFileProcess.call ["page", "-"]).1.answer = (.status 1, refusal) ∧
      (refusal = usage ++ "\n" ∨ ∃ why, refusal = "Error: " ++ why) := by
  intro arguments fault refusal
  obtain ⟨_, _, _, hsucceeds, _, _, _, hothers⟩ := nestedFileProcess.call_answers arguments
  obtain ⟨_, _, _, _, _, herror, _⟩ := nestedFileProcess.call_answers ["page", "-"]
  have hkept : withoutFlags arguments = ["tokenize", "/home/./d//q", "-"] := by
    decide +kernel
  have hholds : Holds [97, 13, 61] "a\n=" :=
    decodeQuery_eq_ok_iff.mp (show decodeQuery .standard _ = _ by decide +kernel)
  have hoffers : nestedFileProcess.surroundings.Offers "/home/./d//q" "a\n=" _ :=
    .file (by decide) (by decide +kernel) hholds
  have htokens : (Lexer.ofString "a\n=").tokenize.answer =
      .ok [⟨.key, "a", 0, 1⟩, ⟨.equals, "=", 2, 3⟩] := by
    decide +kernel
  have hlisted := hkept ▸ Surroundings.Succeeds.tokenize hoffers htokens ["-"]
  have hsame : (withoutFlags ["tokenize", "/home/./d//q"]).take 2 =
      (withoutFlags arguments).take 2 := by
    decide +kernel
  have hrefused : (nestedFileProcess.call ["page", "-"]).1.answer = (.status 1, refusal) := by
    decide +kernel
  refine ⟨((hsucceeds _).mpr hlisted).trans ?_, hsame, hothers _ hsame, hrefused,
    herror _ hrefused⟩
  decide +kernel

/-- Whatever files there are, a command for a name that is too long for a file does not
come to a status. -/
theorem call_of_nameLimit_lt (tree : FileTree) (input : List UInt8) (command : Command)
    {name : String} (hslash : '/' ∉ name.toList)
    (hterminator : FileTree.terminator ∉ name.toList)
    (hlimit : FileTree.nameLimit < name.utf8ByteSize) :
    ((start ⟨tree.look, input⟩).call [command.word, name]).1.answer =
      (.raised (Path.ofString name) .nameTooLong, "") := by
  have hshort : ∀ short ∈ "-" :: verbosityFlags,
      short.utf8ByteSize ≤ FileTree.nameLimit := by decide
  have hother : ∀ short ∈ "-" :: verbosityFlags, name ≠ short := by
    intro short hmem heq
    rw [heq] at hlimit
    exact absurd hlimit (Nat.not_lt.mpr (hshort short hmem))
  obtain ⟨hhyphen, hflags⟩ := List.forall_mem_cons.mp hother
  have hword : command.word ∉ verbosityFlags := by cases command <;> decide
  have hkept : withoutFlags [command.word, name] = [command.word, name] := by
    rw [withoutFlags_cons_of_not_mem hword,
      withoutFlags_cons_of_not_mem fun hmem => hflags name hmem rfl]
    rfl
  have hrefuses : (⟨tree.look, input⟩ : Surroundings).Refuses name .nameTooLong :=
    ⟨hhyphen, FileTree.look_eq_refused hslash hterminator hlimit⟩
  rw [answer_call, hkept]
  exact Surroundings.answer_of_raises (.refused command hrefuses [])

/-- A name with one letter more than any file has. -/
def overlongName : String :=
  String.ofList (List.replicate (FileTree.nameLimit + 1) 'a')

/-- The question whether there is a file with such a name gets no answer, and a call
that asks it does not come to a status. -/
theorem call_overlongName_raises :
    let process := start ⟨(FileTree.empty .root).look, []⟩
    let answer := (process.call ["tokenize", overlongName]).1.answer
    answer = (.raised (Path.ofString overlongName) .nameTooLong, "") ∧
      ∀ code, answer.1 ≠ .status code := by
  intro process answer
  have hletters : ∀ c ∈ overlongName.toList, c = 'a' := by
    rw [overlongName, String.toList_ofList]
    exact fun c => List.eq_of_mem_replicate
  have hlimit : FileTree.nameLimit < overlongName.utf8ByteSize := by decide +kernel
  have hanswer := call_of_nameLimit_lt (.empty .root) [] .tokenize
    (fun hmem => absurd (hletters _ hmem) (by decide))
    (fun hmem => absurd (hletters _ hmem) (by decide)) hlimit
  refine ⟨hanswer, ?_⟩
  intro code hstatus
  have hraised := hstatus.symm.trans (congrArg Prod.fst hanswer)
  simp at hraised

end Process
end QueryHighlight
