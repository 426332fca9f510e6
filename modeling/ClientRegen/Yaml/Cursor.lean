/-!
# Places in YAML text

The characters of a YAML stream, the classes that its syntax tells apart, and a cursor: the text
that is still to be read together with its line and column.

Before reading, the three ways to end a line that mean the same (a carriage return with or without
a line feed, and NEL) become line feeds, so that every line end is one character. A byte-order mark
at the start is no part of the stream.
-/

namespace ClientRegen.Yaml

/-- The characters that a stream may hold. -/
def isAllowed (c : Char) : Bool :=
  let n := c.toNat
  n == 0x09 || n == 0x0A || n == 0x0D || (0x20 ≤ n && n ≤ 0x7E) || n == 0x85 ||
    (0xA0 ≤ n && n ≤ 0xFFFD) || 0x10000 ≤ n

/-- Line ends of every spelling as line feeds. -/
def unifyLineEnds : List Char → List Char
  | [] => []
  | '\r' :: '\n' :: cs => '\n' :: unifyLineEnds cs
  | c :: cs => (if c = '\r' ∨ c.toNat = 0x85 then '\n' else c) :: unifyLineEnds cs

/-- The characters after a byte-order mark at the start. -/
def afterMark : List Char → List Char
  | [] => []
  | c :: cs => if c.toNat = 0xFEFF then cs else c :: cs

/-- The characters of a stream, with line ends unified; one that is not allowed anywhere makes it
unreadable. -/
def streamChars? (cs : List Char) : Option (List Char) :=
  if cs.all isAllowed then some (unifyLineEnds cs) else none

/-- A space or a tab. -/
def isGap (c : Char) : Bool :=
  c == ' ' || c == '\t'

/-- A line end: a line feed, a line separator or a paragraph separator. -/
def isLineEnd (c : Char) : Bool :=
  c == '\n' || c.toNat == 0x2028 || c.toNat == 0x2029

/-- Whether a gap, a line end or the end of the text comes next. -/
def gapNext : List Char → Bool
  | [] => true
  | c :: _ => isGap c || isLineEnd c

/-- Whether a mark that starts or ends a document comes next; it stands at the start of a line. -/
def documentMarkNext : List Char → Bool
  | '-' :: '-' :: '-' :: rest => gapNext rest
  | '.' :: '.' :: '.' :: rest => gapNext rest
  | _ => false

/-- The characters of anchor names and tag handles. -/
def isNameLetter (c : Char) : Bool :=
  c.isAlphanum || c == '-' || c == '_'

/-- A line and a column, both counted from zero, and the number of characters before them. -/
structure Position where
  /-- Characters before this place. -/
  index : Nat
  /-- Line ends before this place. -/
  line : Nat
  /-- Characters before this place on its line. -/
  column : Nat

/-- The place after one more character of the same line. -/
def Position.right (p : Position) : Position :=
  ⟨p.index + 1, p.line, p.column + 1⟩

/-- The place after a line end. -/
def Position.down (p : Position) : Position :=
  ⟨p.index + 1, p.line + 1, 0⟩

/-- The text that is still to be read, and the place where it starts. -/
structure Cursor where
  /-- What is still to be read. -/
  rest : List Char
  /-- Where that starts. -/
  position : Position

/-- The column of a cursor. -/
def Cursor.column (c : Cursor) : Nat :=
  c.position.column

/-- The cursor after a number of characters of the same line. -/
def Cursor.skip (c : Cursor) (n : Nat) : Cursor :=
  ⟨c.rest.drop n, ⟨c.position.index + n, c.position.line, c.position.column + n⟩⟩

/-- The cursor after the characters at its start that belong to a class without line ends. -/
def Cursor.skipWhile (c : Cursor) (p : Char → Bool) : Cursor :=
  c.skip (c.rest.takeWhile p).length

/-- Skips to the end of the line. -/
def Cursor.toLineEnd (c : Cursor) : Cursor :=
  c.skipWhile fun d => !isLineEnd d

/-- Skips one line end, if one comes next. -/
def Cursor.skipLineEnd (c : Cursor) : Cursor :=
  match c.rest with
  | d :: ds => if isLineEnd d then ⟨ds, c.position.down⟩ else c
  | [] => c

/-- Skips blanks and comments up to the next token. Spaces are always skipped; a tab is skipped
unless it may be indentation, that is, unless `tabs` is false. A line end allows a key to follow
and makes tabs indentation, except inside brackets. -/
def toToken (inBrackets keyAllowed inComment : Bool) (p : Position) :
    List Char → Bool × Cursor
  | [] => (keyAllowed, ⟨[], p⟩)
  | c :: cs =>
    if isLineEnd c then toToken inBrackets (keyAllowed || !inBrackets) false p.down cs
    else if inComment || c == '#' then toToken inBrackets keyAllowed true p.right cs
    else if c = ' ' ∨ (c = '\t' ∧ (inBrackets ∨ !keyAllowed)) then
      toToken inBrackets keyAllowed false p.right cs
    else (keyAllowed, ⟨c :: cs, p⟩)

end ClientRegen.Yaml
