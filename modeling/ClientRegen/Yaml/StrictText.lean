import ClientRegen.Text.Blank
import ClientRegen.Yaml.ScalarText
import ClientRegen.Yaml.Token
/-!
# Pieces of YAML text in the strict reading

How far comments, names and scalars reach by the stricter rules. These rules only tell well-formed
texts from others, so nothing is kept of what a piece says.

* Only line feeds and carriage returns end a line.
* A comment needs a gap before it.
* Tabs do not indent, and a further line of a scalar lies further in than the collection around it.
-/

namespace ClientRegen.Yaml.Strict

/-- Line ends of every spelling as line feeds. -/
def unifyReturns : List Char → List Char
  | [] => []
  | '\r' :: '\n' :: cs => '\n' :: unifyReturns cs
  | c :: cs => (if c = '\r' then '\n' else c) :: unifyReturns cs

/-- Whether a line ends here, or the text does. -/
def lineEndNext : List Char → Bool
  | [] => true
  | c :: _ => c == '\n'

/-- Whether a gap, a line end or the end of the text comes next. -/
def blankNext : List Char → Bool
  | [] => true
  | c :: _ => isGap c || c == '\n'

/-- The marks of collections in brackets. -/
def isBracketMark (c : Char) : Bool :=
  c == ',' || c == '[' || c == ']' || c == '\x7b' || c == '\x7d'

/-- Whether a mark of a collection in brackets comes next. -/
def bracketMarkNext : List Char → Bool
  | [] => false
  | c :: _ => isBracketMark c

/-- Whether a mark that starts or ends a document comes next. -/
def documentMarkNext : List Char → Bool
  | '-' :: '-' :: '-' :: rest => blankNext rest
  | '.' :: '.' :: '.' :: rest => blankNext rest
  | _ => false

/-- Whether the rest of the line holds at most a comment. -/
def blankLine (cs : List Char) : Bool :=
  match cs.dropWhile isGap with
  | [] => true
  | c :: _ => c == '\n' || c == '#'

/-! ### Gaps and comments -/

/-- Skips to the end of the line. -/
def toLineEnd (c : Cursor) : Cursor :=
  c.skipWhile (· != '\n')

/-- Skips gaps, and a comment if there was a gap before it. -/
def skipGaps (c : Cursor) : Option Cursor :=
  let after := c.skipWhile isGap
  match after.rest with
  | '#' :: _ => if after.column = c.column then none else some (toLineEnd after)
  | _ => some after

/-- A cursor, and whether only gaps stand before it on its line. -/
structure Place where
  /-- Whether only gaps stand before the cursor on its line. -/
  fresh : Bool
  /-- The cursor. -/
  cursor : Cursor

/-- Skips blanks and comments up to the next token, and tells whether a key may start there. A tab
before column `indent` must not be followed by anything but a comment on its line. -/
def toToken (inBrackets : Bool) (indent : Int) (keyAllowed fresh inComment : Bool) (p : Position) :
    List Char → Option (Bool × Place)
  | [] => some (keyAllowed, ⟨fresh, ⟨[], p⟩⟩)
  | c :: cs =>
    if c = '\n' then toToken inBrackets indent (keyAllowed || !inBrackets) true false p.down cs
    else if inComment || c == '#' then toToken inBrackets indent keyAllowed fresh true p.right cs
    else if c = '\t' ∧ fresh ∧ (p.column : Int) < indent ∧ !blankLine cs then none
    else if isGap c then toToken inBrackets indent keyAllowed fresh false p.right cs
    else some (keyAllowed, ⟨fresh, ⟨c :: cs, p⟩⟩)

/-- Skips spaces, line ends and comments. -/
def skipSpaces (fresh inComment : Bool) (p : Position) : List Char → Place
  | [] => ⟨fresh, ⟨[], p⟩⟩
  | c :: cs =>
    if c = '\n' then skipSpaces true false p.down cs
    else if inComment || c == '#' then skipSpaces fresh true p.right cs
    else if c = ' ' then skipSpaces fresh false p.right cs
    else ⟨fresh, ⟨c :: cs, p⟩⟩

/-- What follows the question mark before a key: a space or a line end, and no tab before the
key. -/
def skipAfterQuestion (c : Cursor) : Option Place :=
  let next := skipSpaces false false c.position c.rest
  match c.rest.head?, next.cursor.rest.head? with
  | some ' ', some '\t' => none
  | some '\n', some '\t' => none
  | some ' ', _ => some next
  | some '\n', _ => some next
  | _, _ => none

/-- What follows the colon before a value. A tab alone must not be followed by a letter, a digit, a
dash or an underscore. -/
def skipAfterColon (c : Cursor) : Option Cursor :=
  match c.rest with
  | '\t' :: _ => do
    let gap := c.rest.takeWhile isGap
    let after ← skipGaps c
    if !gap.contains ' ' ∧ after.rest.head?.any isNameLetter then none else pure after
  | _ => some c

/-! ### Names, tags and lines before a document -/

/-- The characters of anchor names: all but blanks, the marks of brackets and the byte-order
mark. -/
def isAnchorLetter (c : Char) : Bool :=
  !(isGap c || c == '\n' || isBracketMark c || c.toNat == 0xFEFF)

/-- Reads the name of an anchor or of an alias, from after its mark. -/
def readAnchorName (c : Cursor) : Option (String × Cursor) :=
  let name := c.rest.takeWhile isAnchorLetter
  if name.isEmpty then none else some (String.ofList name, c.skip name.length)

/-- The characters of a tag; the marks of brackets and the exclamation mark only where `wide`. -/
def isTagLetter (wide : Bool) (c : Char) : Bool :=
  isNameLetter c || c == '#' || c == ';' || c == '/' || c == '?' || c == ':' || c == '@' ||
    c == '&' || c == '=' || c == '+' || c == '$' || c == '.' || c == '~' || c == '*' ||
    c == '\'' || c == '(' || c == ')' || c == '%' ||
    (wide && (c == ',' || c == '[' || c == ']' || c == '!'))

/-- Reads an exclamation mark and the letters after it, with a second exclamation mark if one
follows them. -/
def readTagHandle (c : Cursor) : List Char × Cursor :=
  let letters := (c.rest.drop 1).takeWhile isNameLetter
  let after := c.skip (letters.length + 1)
  match after.rest with
  | '!' :: _ => ('!' :: letters ++ ['!'], after.skip 1)
  | _ => ('!' :: letters, after)

/-- Reads a tag as a handle and a suffix. A named handle needs a suffix. -/
def readTagShape (c : Cursor) : Option (Token × Cursor) :=
  match c.rest with
  | '!' :: '<' :: rest =>
    let suffix := rest.takeWhile (isTagLetter true)
    let after := c.skip (suffix.length + 2)
    match after.rest with
    | '>' :: _ => some (.tag "" (String.ofList suffix), after.skip 1)
    | _ => none
  | _ =>
    let (handle, after) := readTagHandle c
    let suffix := after.rest.takeWhile (isTagLetter false)
    let rest := after.skip suffix.length
    if handle.length ≥ 2 ∧ handle.getLast? = some '!' then
      if suffix.isEmpty then none
      else some (.tag (String.ofList handle) (String.ofList suffix), rest)
    else
      match handle.drop 1 ++ suffix with
      | [] => some (.tag "" "!", rest)
      | text => some (.tag "!" (String.ofList text), rest)

/-- Reads a tag; a blank follows it, or in brackets one of their marks. -/
def readTag (inBrackets : Bool) (c : Cursor) : Option (Token × Cursor) := do
  let (token, after) ← readTagShape c
  if blankNext after.rest ∨ (inBrackets ∧ bracketMarkNext after.rest) then pure (token, after)
  else none

/-- Reads a line that starts with a percent sign. -/
def readDirective (c : Cursor) : Option (Token × Cursor) :=
  let line := c.rest.takeWhile (· != '\n')
  let said := line.takeWhile (· != '#')
  if said.length < line.length ∧ !said.getLast?.any isGap then none
  else
    let token : Token :=
      match Text.words said with
      | [_, handle, meaning] => .handle (String.ofList handle) (String.ofList meaning)
      | _ => .version
    some (token, toLineEnd c)

/-! ### Scalars -/

/-- Whether a plain scalar stops before this text: at a colon before a blank and, in brackets, at
their marks. -/
def plainStops (inBrackets : Bool) : List Char → Bool
  | [] => true
  | c :: cs =>
    (c == ':' && (blankNext cs || (inBrackets && bracketMarkNext cs))) ||
      (inBrackets && isBracketMark c)

/-- Whether a word of a plain scalar in brackets is a lone dash before one of their marks, which is
refused. -/
def loneDash (inBrackets : Bool) : List Char → Bool
  | '-' :: cs => inBrackets && bracketMarkNext cs
  | _ => false

/-- Skips the rest of a plain scalar whose further lines start at column `indent` or later. `fresh`
tells whether its line has ended since the last character of it, `word` whether a gap or a line end
came since. -/
def skipPlain (inBrackets : Bool) (indent : Int) (fresh word : Bool) (p : Position) :
    List Char → Option Place
  | [] => some ⟨fresh, ⟨[], p⟩⟩
  | c :: cs =>
    if c = '\n' then skipPlain inBrackets indent true true p.down cs
    else if isGap c then
      if fresh ∧ c = '\t' ∧ (p.column : Int) < indent ∧ !blankLine cs then none
      else skipPlain inBrackets indent fresh true p.right cs
    else if word ∧ ((!inBrackets ∧ (p.column : Int) < indent) ∨ c = '#' ∨
        (fresh ∧ documentMarkNext (c :: cs))) then some ⟨fresh, ⟨c :: cs, p⟩⟩
    else if word ∧ loneDash inBrackets (c :: cs) then none
    else if plainStops inBrackets (c :: cs) then some ⟨fresh, ⟨c :: cs, p⟩⟩
    else skipPlain inBrackets indent false false p.right cs

/-- Whether a plain scalar may start with these characters, at the start of a line or after. -/
def plainStarts (inBrackets fresh : Bool) (cs : List Char) : Bool :=
  !((fresh && documentMarkNext cs) || loneDash inBrackets cs || plainStops inBrackets cs)

/-- Whether a letter after a backslash makes an escape. -/
def isEscape (c : Char) : Bool :=
  (escaped? c).isSome || (escapeDigits? c).isSome

/-- Skips a quoted scalar, from after its opening quote. Outside of brackets a further line of it
lies further in than the column `outer`; a tab before the column `indent` is refused. `fresh` tells
whether its line has ended since the last character of it. -/
def skipQuoted (quote : Char) (inBrackets : Bool) (outer indent : Int) (fresh : Bool)
    (p : Position) : List Char → Option Cursor
  | [] => none
  | c :: cs =>
    if c = '\n' then skipQuoted quote inBrackets outer indent true p.down cs
    else if isGap c then
      if fresh ∧ c = '\t' ∧ (p.column : Int) < indent then none
      else skipQuoted quote inBrackets outer indent fresh p.right cs
    else if fresh ∧ !inBrackets ∧ c ≠ quote ∧ (p.column : Int) ≤ outer then none
    else if c = quote then
      match cs with
      | d :: ds =>
        if c = '\'' ∧ d = '\'' then
          skipQuoted quote inBrackets outer indent false p.right.right ds
        else some ⟨d :: ds, p.right⟩
      | [] => some ⟨[], p.right⟩
    else if quote = '"' ∧ c = '\\' then
      match cs with
      | d :: ds =>
        if d = '\n' then skipQuoted quote inBrackets outer indent true p.right.down ds
        else if isEscape d then skipQuoted quote inBrackets outer indent false p.right.right ds
        else none
      | [] => none
    else skipQuoted quote inBrackets outer indent false p.right cs

/-- Checks what follows a quoted scalar that starts in a line: in brackets one of their marks or a
colon, elsewhere a colon in the same line; or else the line ends. -/
def checkAfterQuote (inBrackets : Bool) (line : Nat) (c : Cursor) : Option Cursor := do
  let after ← skipGaps c
  match after.rest with
  | [] => pure after
  | d :: _ =>
    let fits : Bool :=
      d == '\n' ||
        (if inBrackets then d == ',' || d == ']' || d == '\x7d' || d == ':'
        else d == ':' && after.position.line == line)
    if fits then pure after else none

/-- Skips blank lines and the spaces of an indentation, up to its column if that is known. Gives
the greatest column reached, too. -/
def skipIndent (indent : Option Nat) (widest : Nat) (p : Position) : List Char → Nat × Cursor
  | [] => (max widest p.column, ⟨[], p⟩)
  | c :: cs =>
    if c = ' ' ∧ indent.all (p.column < ·) then skipIndent indent widest p.right cs
    else if c = '\n' then skipIndent indent (max widest p.column) p.down cs
    else (max widest p.column, ⟨c :: cs, p⟩)

/-- Skips one line end, if one comes next. -/
def skipLineEnd (c : Cursor) : Cursor :=
  match c.rest with
  | '\n' :: cs => ⟨cs, c.position.down⟩
  | _ => c

/-- Skips the lines of a block scalar as long as they start at its indentation. -/
def skipBlockLines (indent : Nat) (c : Cursor) : Cursor :=
  if c.rest ≠ [] ∧ c.column = indent then
    let next := skipLineEnd (toLineEnd c)
    let following := (skipIndent (some indent) 0 next.position next.rest).2
    if following.rest.length < c.rest.length then skipBlockLines indent following else following
  else c
termination_by c.rest.length

/-- Skips a block scalar, from after the mark that opens it. `outer` is the indentation of the
collection around it, -1 at the top. Its first line must not start with a tab, nor lie between
that indentation and its own. -/
def skipBlock (outer : Int) (c : Cursor) : Option Cursor := do
  let (header, c) ← readHeaderMarks c
  let c ← skipGaps c
  if !lineEndNext c.rest then none
  else
    let c := skipLineEnd c
    if c.rest.head? = some '\t' then none
    else
      let given : Option Nat := header.increment.map fun n => (max outer 0).toNat + n
      let (widest, c) := skipIndent given 0 c.position c.rest
      let indent := given.getD (max widest (outer + 1).toNat)
      if c.rest ≠ [] ∧ c.column < indent ∧ outer < (c.column : Int) then none
      else pure (skipBlockLines indent c)

end ClientRegen.Yaml.Strict
