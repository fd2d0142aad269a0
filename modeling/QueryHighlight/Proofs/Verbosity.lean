import Mathlib.Data.List.Forall2
import QueryHighlight.Command.FileTree
import QueryHighlight.Command.Session

/-!
# The log changes no answer

The flags that ask for the log may stand anywhere among the arguments, and the
log that a call sets up is still there when the next call comes.  This module
proves that neither shows in what the program answers, however often it is called.

* Arguments.  `SameButFlags` relates two lists of arguments that differ in flags
  only.  They make the same request.
* The log.  A call that sets it up writes to it exactly if it has a flag, whatever
  the log was before.
* Calls in one process.  Two processes in the same place may have different logs.
  A call gives the same answer in both and leaves them in the same place again
  (`Process.call_congr`), so all later calls do too.

`Process.calls_verbosity` is the result.
-/

namespace QueryHighlight

/-! ## Arguments -/

/-- The two flags that ask for the log. -/
def verbosityFlags : List String :=
  ["-v", "--verbose"]

theorem isVerbosityFlag_iff {argument : String} :
    isVerbosityFlag argument = true ↔ argument ∈ verbosityFlags := by
  simp [isVerbosityFlag, verbosityFlags]

/-- The second list of arguments comes from the first by deleting flags and writing
flags, any number of them and anywhere. -/
inductive SameButFlags : List String → List String → Prop where
  | nil : SameButFlags [] []
  | keep (argument : String) {a b : List String} (h : SameButFlags a b) :
      SameButFlags (argument :: a) (argument :: b)
  | delete {flag : String} (hflag : flag ∈ verbosityFlags) {a b : List String}
      (h : SameButFlags a b) : SameButFlags (flag :: a) b
  | insert {flag : String} (hflag : flag ∈ verbosityFlags) {a b : List String}
      (h : SameButFlags a b) : SameButFlags a (flag :: b)

/-- The arguments that are no flags. -/
def withoutFlags (arguments : List String) : List String :=
  arguments.filter fun argument => !isVerbosityFlag argument

theorem withoutFlags_cons_of_mem {flag : String} (h : flag ∈ verbosityFlags)
    (arguments : List String) : withoutFlags (flag :: arguments) = withoutFlags arguments :=
  List.filter_cons_of_neg (by simpa using isVerbosityFlag_iff.mpr h)

theorem withoutFlags_cons_of_not_mem {argument : String} (h : argument ∉ verbosityFlags)
    (arguments : List String) :
    withoutFlags (argument :: arguments) = argument :: withoutFlags arguments :=
  List.filter_cons_of_pos (by simpa using mt isVerbosityFlag_iff.mp h)

namespace SameButFlags

variable {a b : List String}

theorem withoutFlags_eq (h : SameButFlags a b) : withoutFlags a = withoutFlags b := by
  induction h with
  | nil => rfl
  | keep argument _ ih =>
    by_cases hflag : argument ∈ verbosityFlags
    · rw [withoutFlags_cons_of_mem hflag, withoutFlags_cons_of_mem hflag, ih]
    · rw [withoutFlags_cons_of_not_mem hflag, withoutFlags_cons_of_not_mem hflag, ih]
  | delete hflag _ ih => rw [withoutFlags_cons_of_mem hflag, ih]
  | insert hflag _ ih => rw [withoutFlags_cons_of_mem hflag, ih]

theorem of_withoutFlags_eq (h : withoutFlags a = withoutFlags b) : SameButFlags a b := by
  induction a generalizing b with
  | nil =>
    induction b with
    | nil => exact .nil
    | cons argument b ih =>
      by_cases hflag : argument ∈ verbosityFlags
      · rw [withoutFlags_cons_of_mem hflag] at h
        exact .insert hflag (ih h)
      · rw [withoutFlags_cons_of_not_mem hflag] at h
        exact absurd h.symm (List.cons_ne_nil _ _)
  | cons first a iha =>
    by_cases hfirst : first ∈ verbosityFlags
    · rw [withoutFlags_cons_of_mem hfirst] at h
      exact .delete hfirst (iha h)
    · rw [withoutFlags_cons_of_not_mem hfirst] at h
      -- The next argument of `b` that is no flag is the one that `a` has.
      induction b with
      | nil => exact absurd h (List.cons_ne_nil _ _)
      | cons argument b ihb =>
        by_cases hflag : argument ∈ verbosityFlags
        · rw [withoutFlags_cons_of_mem hflag] at h
          exact .insert hflag (ihb h)
        · rw [withoutFlags_cons_of_not_mem hflag, List.cons.injEq] at h
          rw [h.1]
          exact .keep argument (iha h.2)

instance : Decidable (SameButFlags a b) :=
  decidable_of_iff (withoutFlags a = withoutFlags b) ⟨of_withoutFlags_eq, withoutFlags_eq⟩

theorem request_eq (h : SameButFlags a b) :
    (Invocation.ofArguments a).request = (Invocation.ofArguments b).request :=
  congrArg Request.ofArguments h.withoutFlags_eq

end SameButFlags

theorem verbose_ofArguments {arguments : List String} :
    (Invocation.ofArguments arguments).verbose = true ↔
      ∃ flag ∈ verbosityFlags, flag ∈ arguments := by
  show arguments.any isVerbosityFlag = true ↔ _
  simp only [List.any_eq_true, isVerbosityFlag_iff, and_comm]

/-! ## The log -/

theorem Log.handlers_configure_ne_zero (log : Log) (verbose : Bool) :
    (log.configure verbose).handlers ≠ 0 := by
  show (if log.handlers = 0 then 1 else log.handlers) ≠ 0
  split <;> omega

/-- What is noted when a log has been set up is written to it exactly if that was
asked for. -/
theorem Log.written_configure_eq_empty_iff (log : Log) (verbose : Bool) (note : Note)
    (notes : List Note) :
    (log.configure verbose).written (note :: notes) = "" ↔ verbose = false := by
  cases verbose with
  | false => exact ⟨fun _ => rfl, fun _ => rfl⟩
  | true =>
    obtain ⟨n, hn⟩ := Nat.exists_eq_succ_of_ne_zero (log.handlers_configure_ne_zero true)
    have hwritten : (log.configure true).written (note :: notes) =
        String.join ((note :: notes).flatMap fun note =>
          List.replicate (n + 1) (note.line ++ "\n")) := by
      rw [← Nat.succ_eq_add_one, ← hn]
      rfl
    rw [hwritten, List.flatMap_cons, List.replicate_succ, List.cons_append, String.join_cons]
    simp

/-! ## Calls in one process -/

/-- The part of a reply that is not the log. -/
def Reply.answer (reply : Reply) : Ending × String :=
  (reply.ending, reply.output)

namespace Process

variable {process process' : Process}

/-- Flags change neither the answer of a call nor the place it leaves behind, and
the log as the call finds it does not either. -/
theorem call_congr (hplace : process.surroundings = process'.surroundings)
    {a b : List String} (h : SameButFlags a b) :
    (process.call a).1.answer = (process'.call b).1.answer ∧
      (process.call a).2.surroundings = (process'.call b).2.surroundings := by
  have hrequest := h.request_eq
  simp only [call, Invocation.respond, Reply.answer, hplace, hrequest, and_self]

theorem calls_congr (hplace : process.surroundings = process'.surroundings)
    {calls calls' : List (List String)} (h : List.Forall₂ SameButFlags calls calls') :
    (process.calls calls).map Reply.answer = (process'.calls calls').map Reply.answer := by
  -- Only the places stay equal along the calls; the logs may differ from the first on.
  induction h generalizing process process' with
  | nil => rfl
  | cons hcall _ ih =>
    obtain ⟨hanswer, hafter⟩ := call_congr hplace hcall
    rw [Process.calls, Process.calls, List.map_cons, List.map_cons, hanswer, ih hafter]

theorem call_log_eq_empty_iff (process : Process) (arguments : List String) :
    (process.call arguments).1.log = "" ↔ ∀ flag ∈ verbosityFlags, flag ∉ arguments := by
  have hlog := process.log.written_configure_eq_empty_iff
    (Invocation.ofArguments arguments).verbose .verbose
    ((Invocation.ofArguments arguments).request.response process.surroundings.look).notes
  refine hlog.trans ?_
  rw [← Bool.not_eq_true, verbose_ofArguments]
  simp only [not_exists, not_and]

theorem calls_log (process : Process) (calls : List (List String)) :
    List.Forall₂ (fun arguments reply =>
        reply.log = "" ↔ ∀ flag ∈ verbosityFlags, flag ∉ arguments)
      calls (process.calls calls) := by
  induction calls generalizing process with
  | nil => exact .nil
  | cons arguments calls ih =>
    exact .cons (process.call_log_eq_empty_iff arguments) (ih _)

/-- However often a process calls the program, in whatever place and with whatever
log: flags among the arguments of any of the calls change the end and the output
of none, and a call writes to the log exactly if it has a flag itself. -/
theorem calls_verbosity (process : Process) :
    (∀ calls calls' : List (List String), List.Forall₂ SameButFlags calls calls' →
        (process.calls calls).map Reply.answer = (process.calls calls').map Reply.answer) ∧
      ∀ calls : List (List String),
        List.Forall₂ (fun arguments reply =>
            reply.log = "" ↔ ∀ flag ∈ verbosityFlags, flag ∉ arguments)
          calls (process.calls calls) := by
  refine ⟨?_, process.calls_log⟩
  intro calls calls' hcalls
  exact calls_congr rfl hcalls

/-- A process whose standard input holds an open quote. -/
def openQuoteProcess : Process :=
  start ⟨(FileTree.empty .root).look, [110, 61, 34]⟩

/-- The first of three calls takes all of the input and has flags, and the last has
one in the place of a file name. -/
theorem calls_verbosity_sharedInput :
    let calls := [["tokenize", "-"], ["page", "-"], ["tokenize"]]
    let calls' := [["-v", "tokenize", "--verbose", "-", "-v"], ["page", "-"], ["tokenize", "-v"]]
    List.Forall₂ SameButFlags calls calls' ∧
      (openQuoteProcess.calls calls).map Reply.answer =
        (openQuoteProcess.calls calls').map Reply.answer ∧
      (openQuoteProcess.calls calls').map (fun reply => reply.log == "") =
        [false, true, false] := by
  intro calls calls'
  have hflags : List.Forall₂ SameButFlags calls calls' := by decide +kernel
  refine ⟨hflags, openQuoteProcess.calls_verbosity.1 calls calls' hflags, ?_⟩
  decide +kernel

end Process
end QueryHighlight
