/-!
# Line ends

A query may have been written on any system, so text read from outside may end
its lines with a newline, with a carriage return, or with both.  Inside the
library a line ends with a newline only.  `unifyNewlines` makes it so, and its
equations say how each kind of line end is read.
-/

namespace QueryHighlight

/-- The loop of `unifyNewlines`, with the text already read, last character
first. -/
def unifyNewlinesOnto (done : List Char) : List Char → List Char
  | [] => done.reverse
  | '\r' :: '\n' :: rest => unifyNewlinesOnto ('\n' :: done) rest
  | '\r' :: rest => unifyNewlinesOnto ('\n' :: done) rest
  | c :: rest => unifyNewlinesOnto (c :: done) rest

/-- The text with each carriage return, together with a newline right after
it, replaced by one newline. -/
def unifyNewlines (text : List Char) : List Char :=
  unifyNewlinesOnto [] text

private theorem unifyNewlinesOnto_append (done earlier text : List Char) :
    unifyNewlinesOnto (done ++ earlier) text =
      earlier.reverse ++ unifyNewlinesOnto done text := by
  fun_induction unifyNewlinesOnto done text with
  | case1 done => simp [unifyNewlinesOnto]
  | case2 done rest ih => simpa [unifyNewlinesOnto] using ih
  | case3 done rest hnext ih =>
      rw [unifyNewlinesOnto.eq_3 _ _ hnext]
      exact ih
  | case4 done c rest hpair hreturn ih =>
      rw [unifyNewlinesOnto.eq_4 _ _ _ hpair hreturn]
      exact ih

theorem unifyNewlines_nil : unifyNewlines [] = [] := rfl

/-- A carriage return and a newline are one line end. -/
theorem unifyNewlines_pair (rest : List Char) :
    unifyNewlines ('\r' :: '\n' :: rest) = '\n' :: unifyNewlines rest :=
  unifyNewlinesOnto_append [] ['\n'] rest

/-- A carriage return by itself is a line end. -/
theorem unifyNewlines_return {rest : List Char} (hrest : rest.head? ≠ some '\n') :
    unifyNewlines ('\r' :: rest) = '\n' :: unifyNewlines rest := by
  refine Eq.trans ?_ (unifyNewlinesOnto_append [] ['\n'] rest)
  exact unifyNewlinesOnto.eq_3 _ _ fun tail h => hrest (by simp [h])

/-- Every other character stays. -/
theorem unifyNewlines_cons {c : Char} (hc : c ≠ '\r') (rest : List Char) :
    unifyNewlines (c :: rest) = c :: unifyNewlines rest := by
  refine Eq.trans ?_ (unifyNewlinesOnto_append [] [c] rest)
  exact unifyNewlinesOnto.eq_4 _ _ _ (fun _ h _ => hc h) hc

end QueryHighlight
