import ClientRegen.Yaml.Cursor
/-!
# Scalars in YAML text

The text of a scalar in each of its spellings: plain, in quotes, or as an indented block. Lines
are folded: a single line end between two pieces of text counts as a space, and of several the
first is dropped.
-/

namespace ClientRegen.Yaml

/-- A scalar that is being read: its text so far, and the gaps and line ends since the last
character of it, which count only if more text follows. -/
structure Fold where
  /-- The text so far, latest character first. -/
  text : List Char
  /-- Gaps since the last character, latest first, on the same line. -/
  gaps : List Char
  /-- The first line end since the last character. -/
  firstEnd : Option Char
  /-- Further line ends, latest first. -/
  furtherEnds : List Char
  /-- Whether a line end came since the last character. -/
  newLine : Bool
  /-- Whether the last character was a gap or a line end. -/
  afterGap : Bool

/-- Nothing read yet. -/
def Fold.start : Fold :=
  ⟨[], [], none, [], false, false⟩

/-- A gap: it counts unless it begins a line. -/
def Fold.gap (f : Fold) (c : Char) : Fold :=
  if f.newLine then { f with afterGap := true }
  else { f with gaps := c :: f.gaps, afterGap := true }

/-- A line end: gaps before the first one are dropped. -/
def Fold.lineEnd (f : Fold) (c : Char) : Fold :=
  if f.newLine then { f with furtherEnds := c :: f.furtherEnds, afterGap := true }
  else { f with gaps := [], firstEnd := some c, newLine := true, afterGap := true }

/-- A line end that an escape takes out of the text; gaps at the start of the next line go with
it. -/
def Fold.escapedLineEnd (f : Fold) : Fold :=
  { f with newLine := true, afterGap := true }

/-- Settles what lies between two pieces of text: a line feed alone becomes a space, a line feed
before further line ends is dropped, other line ends stay. -/
def Fold.join (f : Fold) : Fold :=
  let between :=
    if f.newLine then
      if f.firstEnd = some '\n' then
        if f.furtherEnds = [] then [' '] else f.furtherEnds
      else f.furtherEnds ++ f.firstEnd.toList
    else f.gaps
  ⟨between ++ f.text, [], none, [], false, false⟩

/-- A character of the text. -/
def Fold.push (f : Fold) (c : Char) : Fold :=
  let g := f.join
  { g with text := c :: g.text }

/-- The text read. -/
def Fold.result (f : Fold) : String :=
  String.ofList f.text.reverse

/-! ### Plain scalars -/

/-- Whether a plain scalar stops before this text. In brackets the brackets and the comma stop it,
elsewhere only a colon before a gap does. -/
def plainStops (inBrackets : Bool) : List Char → Bool
  | [] => true
  | c :: cs =>
    (c == ':' && gapNext cs) ||
      (inBrackets && (c == ',' || c == '[' || c == ']' || c == '\x7b' || c == '\x7d'))

/-- In brackets a colon must not touch a bracket, a comma or a question mark. -/
def plainFaulty (inBrackets : Bool) : List Char → Bool
  | ':' :: d :: _ =>
    inBrackets && (d == ',' || d == '?' || d == '[' || d == ']' || d == '\x7b' || d == '\x7d')
  | _ => false

/-- Reads a plain scalar whose further lines start at column `indent` or later. -/
def readPlain (inBrackets : Bool) (indent : Int) (f : Fold) (p : Position) :
    List Char → Option (Fold × Cursor)
  | [] => some (f, ⟨[], p⟩)
  | c :: cs =>
    if isGap c then
      if f.newLine ∧ (p.column : Int) < indent ∧ c = '\t' then none
      else readPlain inBrackets indent (f.gap c) p.right cs
    else if isLineEnd c then readPlain inBrackets indent (f.lineEnd c) p.down cs
    else if f.afterGap ∧
        ((!inBrackets ∧ (p.column : Int) < indent) ∨ c = '#' ∨
          (p.column = 0 ∧ documentMarkNext (c :: cs))) then some (f, ⟨c :: cs, p⟩)
    else if plainFaulty inBrackets (c :: cs) then none
    else if plainStops inBrackets (c :: cs) then some (f, ⟨c :: cs, p⟩)
    else readPlain inBrackets indent (f.push c) p.right cs

/-! ### Quoted scalars -/

/-- A quoted scalar in double quotes may be inside an escape: the digits of a character's number
that are still to come, and the number so far. -/
structure Pending where
  /-- Digits to come. -/
  digits : Nat
  /-- The number so far. -/
  code : Nat

/-- The value of a hexadecimal digit. -/
def hexValue? (c : Char) : Option Nat :=
  if c.isDigit then some (c.toNat - '0'.toNat)
  else if 'a' ≤ c ∧ c ≤ 'f' then some (c.toNat - 'a'.toNat + 10)
  else if 'A' ≤ c ∧ c ≤ 'F' then some (c.toNat - 'A'.toNat + 10)
  else none

/-- The characters with an escape of one letter. -/
def escaped? (c : Char) : Option Char :=
  match c with
  | '0' => some (Char.ofNat 0)
  | 'a' => some (Char.ofNat 7)
  | 'b' => some (Char.ofNat 8)
  | 't' => some '\t'
  | '\t' => some '\t'
  | 'n' => some '\n'
  | 'v' => some (Char.ofNat 0x0B)
  | 'f' => some (Char.ofNat 0x0C)
  | 'r' => some '\r'
  | 'e' => some (Char.ofNat 0x1B)
  | ' ' => some ' '
  | '"' => some '"'
  | '/' => some '/'
  | '\\' => some '\\'
  | 'N' => some (Char.ofNat 0x85)
  | '_' => some (Char.ofNat 0xA0)
  | 'L' => some (Char.ofNat 0x2028)
  | 'P' => some (Char.ofNat 0x2029)
  | _ => none

/-- How many hexadecimal digits follow an escape letter. -/
def escapeDigits? (c : Char) : Option Nat :=
  match c with
  | 'x' => some 2
  | 'u' => some 4
  | 'U' => some 8
  | _ => none

/-- The character with a number, unless it is a surrogate or beyond the last. -/
def charOfCode? (n : Nat) : Option Char :=
  if (0xD800 ≤ n ∧ n ≤ 0xDFFF) ∨ n > 0x10FFFF then none else some (Char.ofNat n)

/-- Reads a scalar in double quotes, from after its opening quote. -/
def readDouble (f : Fold) (pending : Option Pending) (p : Position) :
    List Char → Option (Fold × Cursor)
  | [] => none
  | c :: cs =>
    match pending with
    | some ⟨k, code⟩ =>
      match hexValue? c with
      | none => none
      | some d =>
        let code := code * 16 + d
        if k ≤ 1 then
          match charOfCode? code with
          | none => none
          | some e => readDouble { f with text := e :: f.text } none p.right cs
        else readDouble f (some ⟨k - 1, code⟩) p.right cs
    | none =>
      if isGap c then readDouble (f.gap c) none p.right cs
      else if isLineEnd c then readDouble (f.lineEnd c) none p.down cs
      else if f.afterGap ∧ p.column = 0 ∧ documentMarkNext (c :: cs) then none
      else
        let g := f.join
        if c = '"' then some (g, ⟨cs, p.right⟩)
        else if c = '\\' then
          match cs with
          | [] => none
          | e :: es =>
            if isLineEnd e then readDouble g.escapedLineEnd none p.right.down es
            else
              match escaped? e, escapeDigits? e with
              | some d, _ => readDouble { g with text := d :: g.text } none p.right.right es
              | none, some k => readDouble g (some ⟨k, 0⟩) p.right.right es
              | none, none => none
        else readDouble { g with text := c :: g.text } none p.right cs

/-- Reads a scalar in single quotes, from after its opening quote; a quote inside is written
twice. -/
def readSingle (f : Fold) (p : Position) : List Char → Option (Fold × Cursor)
  | [] => none
  | '\'' :: '\'' :: cs => readSingle (f.push '\'') p.right.right cs
  | c :: cs =>
    if isGap c then readSingle (f.gap c) p.right cs
    else if isLineEnd c then readSingle (f.lineEnd c) p.down cs
    else if f.afterGap ∧ p.column = 0 ∧ documentMarkNext (c :: cs) then none
    else if c = '\'' then some (f.join, ⟨cs, p.right⟩)
    else readSingle (f.push c) p.right cs

/-! ### Block scalars -/

/-- What a block scalar keeps of the line ends at its end. -/
inductive Chomping where
  /-- None of them. -/
  | strip
  /-- The one that ends the last line. -/
  | clip
  /-- All of them. -/
  | keep
deriving DecidableEq

/-- What stands after the mark that opens a block scalar, in either order. -/
structure BlockHeader where
  /-- What is kept of the line ends at the end. -/
  chomping : Chomping
  /-- How far the text is indented, if that is written. -/
  increment : Option Nat

/-- The chomping that a mark asks for. -/
def chomping? (c : Char) : Option Chomping :=
  if c = '+' then some .keep else if c = '-' then some .strip else none

/-- Reads the two optional marks of a header; an indentation of zero is refused. -/
def readHeaderMarks (c : Cursor) : Option (BlockHeader × Cursor) :=
  let width? (d : Char) : Option Nat := if d.isDigit then some (d.toNat - '0'.toNat) else none
  match c.rest with
  | d :: ds =>
    match chomping? d, width? d with
    | some m, _ =>
      match ds with
      | e :: _ =>
        match width? e with
        | some 0 => none
        | some n => some (⟨m, some n⟩, c.skip 2)
        | none => some (⟨m, none⟩, c.skip 1)
      | [] => some (⟨m, none⟩, c.skip 1)
    | none, some 0 => none
    | none, some n =>
      match ds with
      | e :: _ =>
        match chomping? e with
        | some m => some (⟨m, some n⟩, c.skip 2)
        | none => some (⟨.clip, some n⟩, c.skip 1)
      | [] => some (⟨.clip, some n⟩, c.skip 1)
    | none, none => some (⟨.clip, none⟩, c)
  | [] => some (⟨.clip, none⟩, c)

/-- Reads a header to the end of its line: after the marks only gaps and a comment. -/
def readHeader (c : Cursor) : Option (BlockHeader × Cursor) := do
  let (header, c) ← readHeaderMarks c
  let c := c.skipWhile isGap
  let c :=
    match c.rest with
    | '#' :: _ => c.toLineEnd
    | _ => c
  match c.rest with
  | [] => pure (header, c)
  | d :: _ => if isLineEnd d then pure (header, c.skipLineEnd) else none

/-- The blank lines before a line of text. -/
structure BlankLines where
  /-- Their line ends, latest first. -/
  ends : List Char
  /-- The greatest column that spaces reached. -/
  widest : Nat

/-- Skips indentation and blank lines. While the indentation is not known every space counts as
indentation; a tab in its place is refused. -/
def readBlankLines (indent : Option Nat) (b : BlankLines) (p : Position) :
    List Char → Option (BlankLines × Cursor)
  | [] => some (⟨b.ends, max b.widest p.column⟩, ⟨[], p⟩)
  | c :: cs =>
    let inIndent : Bool :=
      match indent with
      | none => true
      | some n => decide (p.column < n)
    if inIndent ∧ c = ' ' then readBlankLines indent b p.right cs
    else if inIndent ∧ c = '\t' then none
    else if isLineEnd c then
      readBlankLines indent ⟨c :: b.ends, max b.widest p.column⟩ p.down cs
    else some (⟨b.ends, max b.widest p.column⟩, ⟨c :: cs, p⟩)

/-- A block scalar that is being read. -/
structure BlockText where
  /-- The text so far, latest character first. -/
  text : List Char
  /-- The line end of the last line of text. -/
  lastEnd : Option Char
  /-- The line ends of blank lines since, latest first. -/
  blankEnds : List Char
  /-- Whether the last line of text starts with a gap. -/
  indented : Bool

/-- Puts a further line of text after what was read. When lines are folded, a line end between two
lines that do not start with a gap becomes a space, or is dropped before blank lines. -/
def BlockText.addLine (t : BlockText) (folded : Bool) (line : List Char)
    (lineEnd : Option Char) : BlockText :=
  let gapFirst :=
    match line with
    | c :: _ => isGap c
    | [] => false
  let between :=
    if folded ∧ t.lastEnd = some '\n' ∧ !t.indented ∧ !gapFirst then
      if t.blankEnds = [] then [' '] else []
    else t.lastEnd.toList
  ⟨line.reverse ++ (t.blankEnds ++ (between ++ t.text)), lineEnd, [], gapFirst⟩

/-- Reads the lines of a block scalar as long as they start at its indentation. -/
def readBlockLines (folded : Bool) (indent : Nat) (t : BlockText) (c : Cursor) :
    Option (BlockText × Cursor) :=
  if c.rest ≠ [] ∧ c.column = indent then
    let after := c.toLineEnd
    let line := c.rest.take (c.rest.length - after.rest.length)
    let lineEnd := after.rest.head?
    let next := after.skipLineEnd
    match readBlankLines (some indent) ⟨[], 0⟩ next.position next.rest with
    | none => none
    | some (blank, following) =>
      let t := { t.addLine folded line lineEnd with blankEnds := blank.ends }
      if following.rest.length < c.rest.length then readBlockLines folded indent t following
      else some (t, following)
  else some (t, c)
termination_by c.rest.length

/-- Reads a block scalar, from after the mark that opens it. `outer` is the indentation of the
collection around it, -1 at the top. -/
def readBlock (folded : Bool) (outer : Int) (c : Cursor) : Option (String × Cursor) := do
  let (header, c) ← readHeader c
  let given : Option Nat := header.increment.map fun n => (max outer 0).toNat + n
  let (blank, c) ← readBlankLines given ⟨[], 0⟩ c.position c.rest
  let indent := given.getD (max blank.widest (max (outer + 1).toNat 1))
  let (t, c) ← readBlockLines folded indent ⟨[], none, blank.ends, false⟩ c
  let kept :=
    match header.chomping with
    | .strip => []
    | .clip => t.lastEnd.toList
    | .keep => t.blankEnds ++ t.lastEnd.toList
  pure (String.ofList (kept ++ t.text).reverse, c)

end ClientRegen.Yaml
