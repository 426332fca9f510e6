/-!
# Lexemes of an enum source

A source text falls into string literals, comments and single characters. This one division decides
what a brace, a comma or a quote means wherever the text is looked at: inside a string or a comment
they mean nothing.

* `next` takes at least one character, so a text has finitely many lexemes.
* A string or a comment that is never closed reaches to the end of the text.
-/

namespace ClientRegen.EnumSource

/-- A piece of a source text that is looked at as one. -/
inductive Lexeme where
  /-- A string literal with its quotes. -/
  | literal (text : List Char)
  /-- A comment with its marks; the line end after a line comment is not part of it. -/
  | comment (text : List Char)
  /-- Any other character. -/
  | plain (c : Char)
deriving DecidableEq, Repr

/-- The characters of a lexeme. -/
def Lexeme.text : Lexeme → List Char
  | literal cs => cs
  | comment cs => cs
  | plain c => [c]

/-- The characters that open and close string literals. -/
def isQuote (c : Char) : Bool :=
  c == '\'' || c == '"' || c == Char.ofNat 0x60

/-- Splits behind the closing quote of a literal, from after its opening quote. A backslash takes
the character after it along. -/
def splitLiteral (quote : Char) : List Char → List Char × List Char
  | [] => ([], [])
  | ['\\'] => (['\\'], [])
  | '\\' :: c :: cs =>
    let (t, r) := splitLiteral quote cs
    ('\\' :: c :: t, r)
  | c :: cs =>
    if c = quote then ([c], cs)
    else
      let (t, r) := splitLiteral quote cs
      (c :: t, r)

/-- Splits before the end of the line. -/
def splitLine : List Char → List Char × List Char
  | [] => ([], [])
  | c :: cs =>
    if c = '\n' then ([], c :: cs)
    else
      let (t, r) := splitLine cs
      (c :: t, r)

/-- Splits behind the mark that closes a block comment, from after the mark that opens it. -/
def splitComment : List Char → List Char × List Char
  | [] => ([], [])
  | '*' :: '/' :: cs => (['*', '/'], cs)
  | c :: cs =>
    let (t, r) := splitComment cs
    (c :: t, r)

/-- The first lexeme of a text and what follows it. -/
def next (c : Char) (cs : List Char) : Lexeme × List Char :=
  if isQuote c then
    let (t, r) := splitLiteral c cs
    (.literal (c :: t), r)
  else if c = '/' then
    match cs with
    | '/' :: ds =>
      let (t, r) := splitLine ds
      (.comment ('/' :: '/' :: t), r)
    | '*' :: ds =>
      let (t, r) := splitComment ds
      (.comment ('/' :: '*' :: t), r)
    | _ => (.plain c, cs)
  else (.plain c, cs)

/-- Nothing is lost where a literal is split off. -/
theorem splitLiteral_append (quote : Char) (cs : List Char) :
    (splitLiteral quote cs).1 ++ (splitLiteral quote cs).2 = cs := by
  fun_induction splitLiteral quote cs <;> simp_all

/-- Nothing is lost where a line is split off. -/
theorem splitLine_append (cs : List Char) : (splitLine cs).1 ++ (splitLine cs).2 = cs := by
  fun_induction splitLine cs <;> simp_all

/-- Nothing is lost where a comment is split off. -/
theorem splitComment_append (cs : List Char) :
    (splitComment cs).1 ++ (splitComment cs).2 = cs := by
  fun_induction splitComment cs <;> simp_all

/-- The first lexeme and what follows it make up the text. -/
theorem next_append (c : Char) (cs : List Char) :
    (next c cs).1.text ++ (next c cs).2 = c :: cs := by
  unfold next
  split
  · simp [Lexeme.text, splitLiteral_append]
  · split
    · rename_i h
      subst h
      split
      · simp [Lexeme.text, splitLine_append]
      · simp [Lexeme.text, splitComment_append]
      · simp [Lexeme.text]
    · simp [Lexeme.text]

/-- A lexeme has at least one character. -/
theorem text_next_ne_nil (c : Char) (cs : List Char) : (next c cs).1.text ≠ [] := by
  unfold next
  split
  · simp [Lexeme.text]
  · split
    · split <;> simp [Lexeme.text]
    · simp [Lexeme.text]

/-- What follows the first lexeme is shorter than the text. -/
theorem length_next_lt (c : Char) (cs : List Char) : (next c cs).2.length < (c :: cs).length := by
  have h := congrArg List.length (next_append c cs)
  have hne := List.length_pos_iff.2 (text_next_ne_nil c cs)
  rw [List.length_append] at h
  omega

/-- The lexemes of a text. -/
def lexemes : List Char → List Lexeme
  | [] => []
  | c :: cs => (next c cs).1 :: lexemes (next c cs).2
termination_by cs => cs.length
decreasing_by exact length_next_lt c cs

/-- The text that lexemes make up. -/
def textOf (ls : List Lexeme) : List Char :=
  ls.flatMap Lexeme.text

/-- Lexemes lose nothing of the text. -/
theorem textOf_lexemes (cs : List Char) : textOf (lexemes cs) = cs := by
  fun_induction lexemes cs with
  | case1 => rfl
  | case2 c cs ih =>
    have h : textOf ((next c cs).1 :: lexemes (next c cs).2) =
        (next c cs).1.text ++ textOf (lexemes (next c cs).2) := rfl
    rw [h, ih, next_append]

end ClientRegen.EnumSource
