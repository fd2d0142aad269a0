import QueryHighlight.Proofs.Answers
import QueryHighlight.Proofs.Preview

/-!
# A file and standard input give the same answers

A query can be read from a file or from standard input.  Each way has its own
failures and its own name for the query, and everything behind the reading is
shared.  This module compares the answers of two calls that find the same bytes, one
in a file and one in standard input.

* Bytes that are UTF-8.  Tokens and markup are the same.  Two pages differ in the
  title and agree around it (`Renderer.exists_page_frame`), and the markup shows the
  text of the bytes with its line ends unified (`Renderer.unescape_highlight`).
* Other bytes.  Both calls are refused, in words that differ in the name only.

`Process.call_file_standard` is the result.  It is about names that are neither the
hyphen nor a flag, because those never lead to a file.
-/

namespace QueryHighlight

namespace Renderer

/-- What the tags and the entities of a highlighted text leave is the text. -/
theorem unescape_highlight (renderer : Renderer) (text : String) :
    unescape (Markup.withoutTags (renderer.highlight text).toList) = text.toList := by
  have hplaced := (Source.ofString text).reads_tokens.placed 0 (Nat.le_refl 0)
  rw [highlight, render, unescape_withoutTags_renderSource]
  exact Source.shown_eq_drop hplaced

/-- Pages with the same query differ in nothing but the title. -/
theorem exists_page_frame (renderer : Renderer) (query : String) :
    ∃ before after, ∀ title,
      renderer.page query title =
        before ++ "<title>" ++ escape title ++ "</title>" ++ after := by
  have hclose : "</title>\n" = "</title>" ++ "\n" := rfl
  refine ⟨"<!DOCTYPE html>\n" ++ "<html>\n" ++ "<head>\n" ++ "<meta charset=\"utf-8\">\n",
    "\n" ++ "<style>\n" ++ stylesheet renderer.classPrefix [] ++ "\n</style>\n" ++
    "</head>\n" ++ "<body>\n" ++
    "<div class=\"" ++ previewClass ++ "\">" ++ renderer.highlight query ++ "</div>\n" ++
    "</body>\n" ++ "</html>\n", fun title => ?_⟩
  unfold page
  rw [hclose]
  simp only [String.append_assoc]

end Renderer

namespace Process

theorem answer_call_word (process : Process) (command : Command) {name : String}
    (hname : name ∉ verbosityFlags) :
    (process.call [command.word, name]).1.answer =
      process.surroundings.answer [command.word, name] := by
  have hword : command.word ∉ verbosityFlags := by cases command <;> decide
  rw [answer_call, withoutFlags_cons_of_not_mem hword, withoutFlags_cons_of_not_mem hname]
  rfl

variable {file standard : Process} {name : String} {bytes : List UInt8}

/-- The answers to a command when the bytes hold a query. -/
theorem call_of_holds (hname : name ∉ "-" :: verbosityFlags)
    (hfile : file.surroundings.files (Path.ofString name) = .content bytes)
    (hstandard : standard.surroundings.standardInput = bytes) {query : String}
    (hholds : Holds bytes query) (command : Command) :
    (file.call [command.word, name]).1.answer =
        (.status 0, command.output query (Path.ofString name).fileName) ∧
      (standard.call [command.word, "-"]).1.answer = (.status 0, command.output query "stdin") := by
  obtain ⟨hhyphen, hflags⟩ := not_or.mp (mt List.mem_cons.mpr hname)
  rw [answer_call_word _ _ hflags, answer_call_word _ _ (by decide)]
  refine ⟨Surroundings.answer_run_ok command (.file hhyphen hfile hholds) [], ?_⟩
  exact Surroundings.answer_run_ok command (.standard (hstandard ▸ hholds)) []

theorem refusal_eq (source message : String) :
    "Error: " ++ ("cannot read " ++ source ++ ": " ++ message) ++ "\n" =
      "Error: cannot read " ++ source ++ (": " ++ message ++ "\n") := by
  have hstart : "Error: cannot read " = "Error: " ++ "cannot read " := rfl
  rw [hstart]
  simp only [String.append_assoc]

/-- The answers to a command when the decoder finds a fault in the bytes. -/
theorem call_of_fault (hname : name ∉ "-" :: verbosityFlags)
    (hfile : file.surroundings.files (Path.ofString name) = .content bytes)
    (hstandard : standard.surroundings.standardInput = bytes) {fault : Utf8.Fault}
    (hfault : Utf8.decode bytes = .error fault) (command : Command) :
    (file.call [command.word, name]).1.answer =
        (.status 1, "Error: cannot read " ++ (Path.ofString name).display ++
          (": " ++ fault.message ++ "\n")) ∧
      (standard.call [command.word, "-"]).1.answer =
        (.status 1, "Error: cannot read " ++ "stdin" ++ (": " ++ fault.message ++ "\n")) := by
  obtain ⟨hhyphen, hflags⟩ := not_or.mp (mt List.mem_cons.mpr hname)
  rw [answer_call_word _ _ hflags, answer_call_word _ _ (by decide)]
  constructor
  · rw [← refusal_eq]
    exact Surroundings.answer_run_error command (.notUtf8 hhyphen hfile hfault) []
  · have hstdin : "cannot read stdin: " = "cannot read " ++ "stdin" ++ ": " := rfl
    rw [← refusal_eq, ← hstdin]
    exact Surroundings.answer_run_error command (.standard (hstandard ▸ hfault)) []

/-- The same bytes, once in a file and once in standard input.  If they are UTF-8,
highlighting succeeds for both and shows the text of the bytes with its line ends
unified; the token listings are the same, and the pages differ inside the title only.
Otherwise every command is refused for both, in the same words up to the name. -/
theorem call_file_standard (hname : name ∉ "-" :: verbosityFlags)
    (hfile : file.surroundings.files (Path.ofString name) = .content bytes)
    (hstandard : standard.surroundings.standardInput = bytes) :
    (∀ raw, Utf8.encode raw = bytes →
        ∃ query markup lines before after title title' : String,
          LinesUnified raw query.toList ∧
          unescape (Markup.withoutTags markup.toList) = query.toList ∧
          (file.call ["highlight", name]).1.answer = (.status 0, markup ++ "\n") ∧
          (standard.call ["highlight", "-"]).1.answer = (.status 0, markup ++ "\n") ∧
          (file.call ["tokenize", name]).1.answer = (.status 0, lines) ∧
          (standard.call ["tokenize", "-"]).1.answer = (.status 0, lines) ∧
          (file.call ["page", name]).1.answer =
            (.status 0, before ++ "<title>" ++ title ++ "</title>" ++ after) ∧
          (standard.call ["page", "-"]).1.answer =
            (.status 0, before ++ "<title>" ++ title' ++ "</title>" ++ after) ∧
          '<' ∉ title.toList ∧ '<' ∉ title'.toList) ∧
      ((∀ raw, Utf8.encode raw ≠ bytes) → ∃ why, ∀ command : Command,
        (file.call [command.word, name]).1.answer =
          (.status 1, "Error: cannot read " ++ (Path.ofString name).display ++ why) ∧
        (standard.call [command.word, "-"]).1.answer =
          (.status 1, "Error: cannot read " ++ "stdin" ++ why)) := by
  constructor
  · intro raw hraw
    obtain ⟨query, hlines⟩ := exists_linesUnified raw
    have hanswers := call_of_holds hname hfile hstandard ⟨raw, hraw, hlines⟩
    obtain ⟨hfileLines, hstandardLines⟩ := hanswers .tokenize
    obtain ⟨hfileMarkup, hstandardMarkup⟩ := hanswers .highlight
    obtain ⟨hfilePage, hstandardPage⟩ := hanswers .page
    obtain ⟨before, after, hframe⟩ := Renderer.default.exists_page_frame query
    rw [Command.output, hframe] at hfilePage hstandardPage
    exact ⟨_, _, _, before, after, _, _, hlines, Renderer.default.unescape_highlight _,
      hfileMarkup, hstandardMarkup, hfileLines, hstandardLines, hfilePage, hstandardPage,
      not_mem_escape _, not_mem_escape _⟩
  · intro hnone
    -- Bytes that no text has hold no query, so there is a fault to report.
    rcases holds_or_fault bytes with ⟨_, raw, hraw, _⟩ | ⟨fault, hfault⟩
    · exact absurd hraw (hnone raw)
    · exact ⟨_, call_of_fault hname hfile hstandard hfault⟩

/-- A process that finds the same bytes in a file and in standard input. -/
def sameBytesProcess (name : String) (bytes : List UInt8) : Process :=
  start ⟨((FileTree.empty ⟨["home"]⟩).add name (.file bytes)).look, bytes⟩

/-- A text with both kinds of line end, in a file that is named from the root, and bytes
that are no text. -/
theorem call_file_standard_lineEnds :
    let text := sameBytesProcess "/tmp/q" [97, 13, 10, 60, 13]
    let noText := sameBytesProcess "q" [98, 0xFF]
    Utf8.encode ['a', '\r', '\n', '<', '\r'] = [97, 13, 10, 60, 13] ∧
      (∃ query markup : String, LinesUnified ['a', '\r', '\n', '<', '\r'] query.toList ∧
        unescape (Markup.withoutTags markup.toList) = query.toList ∧
        (text.call ["highlight", "/tmp/q"]).1.answer = (.status 0, markup ++ "\n") ∧
        (text.call ["highlight", "-"]).1.answer = (.status 0, markup ++ "\n")) ∧
      (∀ raw, Utf8.encode raw ≠ [98, 0xFF]) ∧
      ∃ why,
        (noText.call ["page", "q"]).1.answer = (.status 1, "Error: cannot read q" ++ why) ∧
        (noText.call ["page", "-"]).1.answer =
          (.status 1, "Error: cannot read stdin" ++ why) := by
  intro text noText
  have hname : "q" ∉ "-" :: verbosityFlags := by decide
  have htext : text.surroundings.files (Path.ofString "/tmp/q") =
      .content [97, 13, 10, 60, 13] := by
    decide +kernel
  have hnoText : noText.surroundings.files (Path.ofString "q") = .content [98, 0xFF] := by
    decide +kernel
  have hraw : Utf8.encode ['a', '\r', '\n', '<', '\r'] = [97, 13, 10, 60, 13] := by
    decide +kernel
  have hfault : Utf8.decode [98, 0xFF] = .error ⟨1, 0xFF, 0, .invalidStart⟩ := by
    decide +kernel
  have hnone : ∀ raw, Utf8.encode raw ≠ [98, 0xFF] := by
    intro raw h
    rw [← Utf8.decode_eq_ok_iff, hfault] at h
    exact absurd h (by simp)
  obtain ⟨query, markup, _, _, _, _, _, hlines, hshown, hfile, hstandard, _⟩ :=
    (call_file_standard (show "/tmp/q" ∉ "-" :: verbosityFlags by decide) htext
      (show text.surroundings.standardInput = _ from rfl)).1 _ hraw
  obtain ⟨why, hrefused⟩ :=
    (call_file_standard hname hnoText (show noText.surroundings.standardInput = _ from rfl)).2
      hnone
  have hdisplay : "Error: cannot read " ++ (Path.ofString "q").display =
      "Error: cannot read q" := by
    decide +kernel
  have hpage := hrefused .page
  rw [hdisplay] at hpage
  exact ⟨hraw, ⟨query, markup, hlines, hshown, hfile, hstandard⟩, hnone, why, hpage⟩

/-- A name that is a flag leads to no file: it is set aside, and the command has no
input left. -/
theorem call_highlight_flagName :
    let process := sameBytesProcess "-v" [97]
    process.surroundings.files (Path.ofString "-v") = .content [97] ∧
      Utf8.encode ['a'] = [97] ∧
      (process.call ["highlight", "-"]).1.answer.1 = .status 0 ∧
      (process.call ["highlight", "-v"]).1.answer =
        (.status 1, "Error: command 'highlight' requires a file argument\n") := by
  decide +kernel

end Process
end QueryHighlight
