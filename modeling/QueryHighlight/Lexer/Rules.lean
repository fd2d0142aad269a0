import QueryHighlight.Lexer.Basic

/-!
# The rules of the lexer

The character under the cursor selects the rule:

1. white space is passed over;
2. a parenthesis is a token, and so is an equals sign;
3. a quote opens a quoted literal;
4. an operator is a token if it stands as a whole word;
5. if an equals sign follows anywhere, all that comes before it is a key;
6. any other run of characters is text.

Each of the rules 3 to 6 is an operation of its own, which can be applied
wherever the cursor is.  Applied by `readNext`, a rule that succeeds moves the
cursor forward (`pos_lt_of_readNext`) and leaves the source alone
(`readNext_source`), so reading token by token comes to an end.

`Rule` names the rules, each with its own test and its own outcome.  Applying
rules means to take the first one whose test holds: `readNext_eq_outcome` is
this case distinction, and `not_fits_of_firstRule?` says which rules have not
been applied.  What all rules have in common is proved for each `Rule.outcome`
and passed on by `readNext_cases`.
-/

namespace QueryHighlight
namespace Lexer

/-- Reads the character under the cursor and stays there. -/
def peek (lexer : Lexer) : Outcome Char :=
  match lexer.source.get? lexer.pos with
  | none => ⟨.error (.ofPosition lexer.pos), lexer⟩
  | some c => ⟨.ok c, lexer⟩

/-- Makes a quoted literal of what follows, whatever character opens it. -/
def readQuote (lexer : Lexer) : Outcome Unit :=
  match lexer.source.get? lexer.pos with
  | none => ⟨.error (.ofPosition lexer.pos), lexer⟩
  | some quote =>
    ⟨.ok (), lexer.take .quote (lexer.source.quoteStop quote lexer.pos)⟩

/-- Makes an operator of the word under the cursor.  The answer says whether
the word is one. -/
def readOperator (lexer : Lexer) : Outcome Bool :=
  match lexer.source.operatorStop? lexer.pos with
  | none => ⟨.ok false, lexer⟩
  | some stop => ⟨.ok true, lexer.take .logicalOperator stop⟩

/-- The part of `readKey` that comes after the search. -/
def readKeyBefore (lexer : Lexer) (equals : Nat) : Outcome Bool :=
  match lexer.source.trimmedStop lexer.pos equals with
  | .error fault => ⟨.error fault, lexer⟩
  | .ok stop =>
    if lexer.pos < stop then ⟨.ok true, lexer.take .key stop⟩
    else ⟨.ok false, lexer⟩

/-- Makes a key of all that comes before the next equals sign, less the white
space at its end.  The answer says whether there is a key. -/
def readKey (lexer : Lexer) : Outcome Bool :=
  match lexer.lookAhead.lookahead.position? with
  | none => ⟨.ok false, lexer.lookAhead⟩
  | some equals => lexer.lookAhead.readKeyBefore equals

/-- Makes text of the run of ordinary characters under the cursor.  If there
is none, the character is passed over. -/
def readText (lexer : Lexer) : Outcome Unit :=
  if lexer.atEnd then ⟨.ok (), lexer.skip⟩
  else
    match lexer.source.get? lexer.pos with
    | none => ⟨.error (.ofPosition lexer.pos), lexer⟩
    | some _ =>
      if lexer.pos < lexer.source.textStop lexer.pos then
        ⟨.ok (), lexer.take .text (lexer.source.textStop lexer.pos)⟩
      else ⟨.ok (), lexer.skip⟩

/-- Reads a word that starts neither with a delimiter nor with white space: an
operator, else a key, else text. -/
def readWord (lexer : Lexer) : Outcome Unit :=
  match lexer.readOperator with
  | ⟨.error fault, lexer⟩ => ⟨.error fault, lexer⟩
  | ⟨.ok true, lexer⟩ => ⟨.ok (), lexer⟩
  | ⟨.ok false, lexer⟩ =>
    match lexer.readKey with
    | ⟨.error fault, lexer⟩ => ⟨.error fault, lexer⟩
    | ⟨.ok true, lexer⟩ => ⟨.ok (), lexer⟩
    | ⟨.ok false, lexer⟩ => lexer.readText

/-- Applies the rule that the character under the cursor selects. -/
def readNext (lexer : Lexer) : Outcome Unit :=
  match lexer.source.get? lexer.pos with
  | none => ⟨.error (.ofPosition lexer.pos), lexer⟩
  | some c =>
    if isSpace c then ⟨.ok (), lexer.skip⟩
    else if c ∈ parentheses then ⟨.ok (), lexer.take .parenthesis (lexer.pos + 1)⟩
    else if c = equalsSign then ⟨.ok (), lexer.take .equals (lexer.pos + 1)⟩
    else if c ∈ quotes then lexer.readQuote
    else lexer.readWord

/-! ## Which rule is applied -/

/-- The rules. -/
inductive Rule where
  /-- White space is passed over. -/
  | blank
  /-- A parenthesis is a token. -/
  | parenthesis
  /-- An equals sign is a token. -/
  | equals
  /-- A quote opens a literal. -/
  | quote
  /-- A word is an operator. -/
  | operator
  /-- A word is the start of a key. -/
  | key
  /-- A word is the start of text. -/
  | text
deriving DecidableEq, Repr

namespace Rule

/-- Every rule, in the order in which they are tried. -/
def all : List Rule :=
  [.blank, .parenthesis, .equals, .quote, .operator, .key, .text]

/-- The test of a rule.  A word that cannot be read for a fault is not left to the
next rule, and anything can be text. -/
def fits (lexer : Lexer) : Rule → Bool
  | .blank => (lexer.source.get? lexer.pos).any isSpace
  | .parenthesis => (lexer.source.get? lexer.pos).any (parentheses.contains ·)
  | .equals => lexer.source.get? lexer.pos == some equalsSign
  | .quote => (lexer.source.get? lexer.pos).any (quotes.contains ·)
  | .operator => !lexer.readOperator.declines
  | .key => !lexer.readKey.declines
  | .text => true

/-- What comes of a rule.  Text is read from the state in which the search for a key
has left the lexer. -/
def outcome (lexer : Lexer) : Rule → Outcome Unit
  | .blank => ⟨.ok (), lexer.skip⟩
  | .parenthesis => ⟨.ok (), lexer.take .parenthesis (lexer.pos + 1)⟩
  | .equals => ⟨.ok (), lexer.take .equals (lexer.pos + 1)⟩
  | .quote => lexer.readQuote
  | .operator => lexer.readOperator.map fun _ => ()
  | .key => lexer.readKey.map fun _ => ()
  | .text => lexer.readKey.lexer.readText

end Rule

/-- The first rule that fits. -/
def firstRule? (lexer : Lexer) : Option Rule :=
  Rule.all.find? (·.fits lexer)

theorem readOperator_cases (lexer : Lexer) :
    lexer.readOperator = ⟨.ok false, lexer⟩ ∨
      ∃ stop, lexer.pos < stop ∧
        lexer.readOperator = ⟨.ok true, lexer.take .logicalOperator stop⟩ := by
  unfold readOperator
  split
  · exact Or.inl rfl
  · next stop hstop => exact Or.inr ⟨stop, Source.lt_of_operatorStop? hstop, rfl⟩

theorem readKey_cases (lexer : Lexer) :
    (∃ fault, lexer.readKey = ⟨.error fault, lexer.lookAhead⟩) ∨
      lexer.readKey = ⟨.ok false, lexer.lookAhead⟩ ∨
      ∃ stop, lexer.pos < stop ∧
        lexer.readKey = ⟨.ok true, lexer.lookAhead.take .key stop⟩ := by
  unfold readKey readKeyBefore
  split
  · exact Or.inr (Or.inl rfl)
  · split
    · next fault _ => exact Or.inl ⟨fault, rfl⟩
    · next stop _ =>
      split
      · next hlt => exact Or.inr (Or.inr ⟨stop, by simpa using hlt, rfl⟩)
      · exact Or.inr (Or.inl rfl)

/-- The case distinction between the rules for words. -/
private theorem readWord_eq_outcome (lexer : Lexer) :
    ∃ rule, [Rule.operator, .key, .text].find? (·.fits lexer) = some rule ∧
      lexer.readWord = rule.outcome lexer := by
  unfold readWord
  rcases readOperator_cases lexer with hnone | ⟨stop, _, hsome⟩
  · have hoperator : Rule.operator.fits lexer = false := by
      rw [Rule.fits, hnone]
      rfl
    rw [hnone, List.find?_cons_of_neg (by simp [hoperator])]
    rcases readKey_cases lexer with ⟨fault, hkey⟩ | hkey | ⟨stop, _, hkey⟩
    · refine ⟨.key, List.find?_cons_of_pos ?_, ?_⟩
      · rw [Rule.fits, hkey]
        rfl
      · simp only [Rule.outcome, hkey]
        rfl
    · have hdeclined : Rule.key.fits lexer = false := by
        rw [Rule.fits, hkey]
        rfl
      rw [List.find?_cons_of_neg (by simp [hdeclined])]
      refine ⟨.text, List.find?_cons_of_pos rfl, ?_⟩
      simp only [Rule.outcome, hkey]
    · refine ⟨.key, List.find?_cons_of_pos ?_, ?_⟩
      · rw [Rule.fits, hkey]
        rfl
      · simp only [Rule.outcome, hkey]
        rfl
  · refine ⟨.operator, List.find?_cons_of_pos ?_, ?_⟩
    · rw [Rule.fits, hsome]
      rfl
    · simp only [Rule.outcome, hsome]
      rfl

/-- Where there is a character under the cursor, the first rule that fits is applied. -/
theorem readNext_eq_outcome {lexer : Lexer} {c : Char}
    (hchar : lexer.source.get? lexer.pos = some c) :
    ∃ rule, lexer.firstRule? = some rule ∧ lexer.readNext = rule.outcome lexer := by
  unfold readNext firstRule? Rule.all
  rw [hchar]
  dsimp only
  by_cases hspace : isSpace c = true
  · exact ⟨.blank, by simp [Rule.fits, hchar, hspace], by rw [if_pos hspace]; rfl⟩
  by_cases hparen : c ∈ parentheses
  · exact ⟨.parenthesis, by simp [Rule.fits, hchar, hspace, hparen],
      by rw [if_neg hspace, if_pos hparen]; rfl⟩
  by_cases hequals : c = equalsSign
  · subst hequals
    exact ⟨.equals, by simp [Rule.fits, hchar, hspace, hparen],
      by rw [if_neg hspace, if_neg hparen, if_pos rfl]; rfl⟩
  by_cases hquote : c ∈ quotes
  · exact ⟨.quote, by simp [Rule.fits, hchar, hspace, hparen, hequals, hquote],
      by rw [if_neg hspace, if_neg hparen, if_neg hequals, if_pos hquote]; rfl⟩
  · rw [if_neg hspace, if_neg hparen, if_neg hequals, if_neg hquote]
    obtain ⟨rule, hfirst, houtcome⟩ := readWord_eq_outcome lexer
    refine ⟨rule, ?_, houtcome⟩
    simpa [Rule.fits, hchar, hspace, hparen, hequals, hquote] using hfirst

/-- Outside of the source there is nothing to read, and inside it a rule that fits is
applied. -/
theorem readNext_cases (lexer : Lexer) :
    lexer.readNext = ⟨.error (.ofPosition lexer.pos), lexer⟩ ∨
      ∃ rule : Rule, rule.fits lexer = true ∧ lexer.readNext = rule.outcome lexer := by
  cases hchar : lexer.source.get? lexer.pos with
  | none =>
    rw [readNext, hchar]
    exact Or.inl rfl
  | some c =>
    obtain ⟨rule, hrule, houtcome⟩ := readNext_eq_outcome hchar
    exact Or.inr ⟨rule, List.find?_some hrule, houtcome⟩

/-- The rules that are tried before the one that is applied do not fit. -/
theorem not_fits_of_firstRule? {lexer : Lexer} {rule : Rule}
    (hrule : lexer.firstRule? = some rule) (front : List Rule) {back : List Rule}
    (hall : Rule.all = front ++ back) (hfront : rule ∉ front) :
    ∀ earlier ∈ front, ¬earlier.fits lexer = true := by
  rw [firstRule?, hall, List.find?_append] at hrule
  cases hfind : front.find? (·.fits lexer) with
  | none => exact List.find?_eq_none.mp hfind
  | some found =>
    rw [hfind, Option.some_or, Option.some.injEq] at hrule
    exact absurd (hrule ▸ List.mem_of_find?_eq_some hfind) hfront

/-! ## Every rule moves forward -/

/-- An outcome whose cursor has moved forward over the same source, unless it
is a fault. -/
def Advances (lexer : Lexer) (outcome : Outcome Unit) : Prop :=
  outcome.lexer.source = lexer.source ∧
    (outcome.answer = .ok () → lexer.pos < outcome.lexer.pos)

private theorem readQuote_advances (lexer : Lexer) :
    lexer.Advances lexer.readQuote := by
  unfold readQuote
  split
  · exact ⟨rfl, by simp⟩
  · next hquote => exact ⟨rfl, fun _ => Source.lt_quoteStop hquote⟩

private theorem readText_advances (lexer : Lexer) :
    lexer.Advances lexer.readText := by
  unfold readText
  split
  · exact ⟨rfl, fun _ => Int.lt_succ _⟩
  · split
    · exact ⟨rfl, by simp⟩
    · split
      · next hlt => exact ⟨rfl, fun _ => hlt⟩
      · exact ⟨rfl, fun _ => Int.lt_succ _⟩

/-- The search for a key does not move back, and leaves the source alone. -/
private theorem readKey_forward (lexer : Lexer) :
    lexer.readKey.lexer.source = lexer.source ∧ lexer.pos ≤ lexer.readKey.lexer.pos := by
  rcases readKey_cases lexer with ⟨fault, h⟩ | h | ⟨stop, hlt, h⟩
  · rw [h, lookAhead_source, lookAhead_pos]
    exact ⟨rfl, Int.le_refl _⟩
  · rw [h, lookAhead_source, lookAhead_pos]
    exact ⟨rfl, Int.le_refl _⟩
  · rw [h, take_source, lookAhead_source, take_pos]
    exact ⟨rfl, Int.le_of_lt hlt⟩

/-- A key or an operator moves the cursor only if there is one, which is what their
tests are about. -/
private theorem Rule.outcome_advances {lexer : Lexer} {rule : Rule}
    (hfits : rule.fits lexer = true) : lexer.Advances (rule.outcome lexer) := by
  cases rule with
  | blank | parenthesis | equals => exact ⟨rfl, fun _ => Int.lt_succ _⟩
  | quote => exact readQuote_advances lexer
  | operator =>
    rcases readOperator_cases lexer with h | ⟨stop, hlt, h⟩
    · rw [fits, h] at hfits
      exact absurd hfits Bool.false_ne_true
    · rw [outcome, h]
      exact ⟨rfl, fun _ => hlt⟩
  | key =>
    rcases readKey_cases lexer with ⟨fault, h⟩ | h | ⟨stop, hlt, h⟩
    · rw [outcome, h]
      exact ⟨lookAhead_source lexer, fun hok => absurd hok (by simp [Outcome.map])⟩
    · rw [fits, h] at hfits
      exact absurd hfits Bool.false_ne_true
    · rw [outcome, h]
      exact ⟨lookAhead_source lexer, fun _ => hlt⟩
  | text =>
    obtain ⟨hsource, hpos⟩ := readKey_forward lexer
    obtain ⟨hsame, hforward⟩ := readText_advances lexer.readKey.lexer
    exact ⟨hsame.trans hsource, fun hok => Int.lt_of_le_of_lt hpos (hforward hok)⟩

theorem readNext_advances (lexer : Lexer) : lexer.Advances lexer.readNext := by
  rcases readNext_cases lexer with herror | ⟨rule, hfits, houtcome⟩
  · rw [herror]
    exact ⟨rfl, by simp⟩
  · rw [houtcome]
    exact Rule.outcome_advances hfits

/-- The rules leave the source alone. -/
theorem readNext_source (lexer : Lexer) :
    lexer.readNext.lexer.source = lexer.source :=
  (readNext_advances lexer).1

/-- A rule that succeeds moves the cursor forward. -/
theorem pos_lt_of_readNext {lexer : Lexer} (h : lexer.readNext.answer = .ok ()) :
    lexer.pos < lexer.readNext.lexer.pos :=
  (readNext_advances lexer).2 h

/-- With every rule that succeeds, less of the source is left. -/
theorem size_sub_pos_lt {lexer after : Lexer} (hend : ¬lexer.atEnd = true)
    (hnext : lexer.readNext = ⟨.ok (), after⟩) :
    (after.source.size - after.pos).toNat < (lexer.source.size - lexer.pos).toNat := by
  have hpos := lexer.pos_lt_of_readNext (by rw [hnext])
  have hsource := lexer.readNext_source
  rw [hnext] at hpos hsource
  dsimp only at hpos hsource
  rw [atEnd, decide_eq_true_eq] at hend
  rw [hsource]
  omega

end Lexer
end QueryHighlight
