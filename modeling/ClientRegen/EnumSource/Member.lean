import ClientRegen.EnumSource.Declaration
import ClientRegen.Text.Blank
/-!
# Members of an enum

The body of an enum falls at its commas into members, comments being left out. A member is a key, a
separator and a literal; the value that the literal stands for is the literal without a cast to any
type and without quotes.

* `memberKey` writes a name as a key, and `rawOf` reads it back.
-/

namespace ClientRegen.EnumSource

/-- One member of an enum. -/
structure Member where
  /-- The key as written. -/
  key : List Char
  /-- The equals sign or the colon. -/
  separator : Char
  /-- The value as written. -/
  literal : List Char
  /-- The value that the literal stands for. -/
  raw : List Char
deriving DecidableEq, Repr

/-- The text of the members between commas, comments left out. -/
def memberTexts : List Lexeme → List (List Char)
  | [] => [[]]
  | l :: ls =>
    match l, memberTexts ls with
    | .comment _, ts => ts
    | .plain ',', ts => [] :: ts
    | l, [] => [l.text]
    | l, t :: ts => (l.text ++ t) :: ts

/-- What follows a literal is shorter than the text from its opening quote on. -/
theorem length_splitLiteral_le (quote : Char) (cs : List Char) :
    (splitLiteral quote cs).2.length ≤ cs.length := by
  have h := congrArg List.length (splitLiteral_append quote cs)
  rw [List.length_append] at h
  omega

/-- Splits a member at its first equals sign or colon outside of string literals. -/
def splitSeparator? : List Char → Option (List Char × Char × List Char)
  | [] => none
  | c :: cs =>
    if isQuote c then
      have := length_splitLiteral_le c cs
      (splitSeparator? (splitLiteral c cs).2).map fun r =>
        (c :: (splitLiteral c cs).1 ++ r.1, r.2)
    else if c = '=' ∨ c = ':' then some ([], c, cs)
    else (splitSeparator? cs).map fun r => (c :: r.1, r.2)
termination_by cs => cs.length

/-- The rest after a cast to any type, or the text itself if there is none. -/
def skipCast (cs : List Char) : List Char :=
  match cs with
  | '<' :: rest =>
    match Text.dropStart? ['a', 'n', 'y'] (Text.trimStart rest) with
    | some after =>
      match Text.trimStart after with
      | '>' :: value => Text.trimStart value
      | _ => cs
    | none => cs
  | _ => cs

/-- Undoes the escapes of a string literal: a line feed and a tab have letters of their own, any
other escaped character stands for itself. -/
def unescape : List Char → List Char
  | [] => []
  | ['\\'] => []
  | '\\' :: c :: cs =>
    (if c = 'n' then '\n' else if c = 't' then '\t' else c) :: unescape cs
  | c :: cs => c :: unescape cs

/-- The value that a literal stands for. -/
def rawOf (literal : List Char) : List Char :=
  let value := Text.trim (skipCast literal)
  match value with
  | q :: c :: cs =>
    if isQuote q ∧ (c :: cs).getLast? = some q then unescape (c :: cs).dropLast else value
  | _ => value

/-- Reads a member from its text. -/
def Member.ofText (text : List Char) : Except SourceFault Member :=
  match splitSeparator? text with
  | none => .error (.noValue (String.ofList text))
  | some (before, separator, after) =>
    let key := Text.trim before
    let literal := Text.trim after
    if key = [] ∨ literal = [] then .error (.malformedMember (String.ofList text))
    else .ok ⟨key, separator, literal, rawOf literal⟩

/-- The members of a body. -/
def members (body : List Char) : Except SourceFault (List Member) :=
  (((memberTexts (lexemes body)).map Text.trim).filter (· ≠ [])).mapM Member.ofText

/-- The values of the first enum of a source, in order. -/
def rawValues (source : List Char) : Except SourceFault (List (List Char)) := do
  let d ← findDeclaration source
  let ms ← members d.body
  pure (ms.map (·.raw))

/-- A character inside single quotes. -/
def escapeQuote (c : Char) : List Char :=
  if c = '\\' ∨ c = '\'' then ['\\', c] else [c]

/-- A name as a member's key: as it is if it needs no quotes, otherwise in single quotes. -/
def memberKey (name : List Char) : List Char :=
  if Text.isName name then name else '\'' :: name.flatMap escapeQuote ++ ['\'']

end ClientRegen.EnumSource
