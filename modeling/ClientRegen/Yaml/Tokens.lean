import ClientRegen.Yaml.ScalarText
import ClientRegen.Yaml.Scanner
/-!
# YAML tokens in the lenient reading

A text as its tokens by the older rules, which say what it means. Besides the line feed, two more
characters end a line; a comment may touch what stands before it; brackets hide indentation.

A mark that ends a document ends the reading: nothing that follows it is looked at.
-/

namespace ClientRegen.Yaml

/-! ### Names and tags -/

/-- Reads the name of an anchor or of an alias, from after its mark. -/
def readAnchorName (c : Cursor) : Option (String × Cursor) :=
  let name := c.rest.takeWhile isNameLetter
  let after := c.skip name.length
  let ends : Bool :=
    match after.rest with
    | [] => true
    | d :: _ =>
      isGap d || isLineEnd d || d == '?' || d == ':' || d == ',' || d == ']' || d == '\x7d' ||
        d == '%' || d == '@' || d == Char.ofNat 0x60
  if name ≠ [] ∧ ends then some (String.ofList name, after) else none

/-- The characters of a tag besides percent escapes; brackets and commas only where `wide`. -/
def isTagChar (wide : Bool) (c : Char) : Bool :=
  isNameLetter c || c == ';' || c == '/' || c == '?' || c == ':' || c == '@' || c == '&' ||
    c == '=' || c == '+' || c == '$' || c == '.' || c == '!' || c == '~' || c == '*' ||
    c == '\'' || c == '(' || c == ')' || (wide && (c == ',' || c == '[' || c == ']'))

/-- The bytes that percent escapes at the start of a text write, with the number of characters
read. -/
def escapedBytes : List Char → List UInt8 × Nat
  | '%' :: a :: b :: rest =>
    match hexValue? a, hexValue? b with
    | some a, some b =>
      let (bs, n) := escapedBytes rest
      (UInt8.ofNat (a * 16 + b) :: bs, n + 3)
    | _, _ => ([], 0)
  | _ => ([], 0)

/-- Reads the characters of a tag with percent escapes undone. `fuel` bounds their number, and the
length of the text is enough; `text` holds those already read, latest first. -/
def readTagText (wide : Bool) (fuel : Nat) (text : List Char) (c : Cursor) :
    Option (List Char × Cursor) :=
  match fuel with
  | 0 => some (text.reverse, c)
  | fuel + 1 =>
    match c.rest with
    | '%' :: _ =>
      let (bs, n) := escapedBytes c.rest
      match n, String.fromUTF8? (ByteArray.mk bs.toArray) with
      | 0, _ => none
      | _, none => none
      | n, some s => readTagText wide fuel (s.toList.reverse ++ text) (c.skip n)
    | d :: _ =>
      if isTagChar wide d then readTagText wide fuel (d :: text) (c.skip 1)
      else some (text.reverse, c)
    | [] => some (text.reverse, c)

/-- Reads the characters of a tag; at least one must have been read, here or before. -/
def readTagChars (wide : Bool) (before : List Char) (c : Cursor) : Option (List Char × Cursor) := do
  let (text, after) ← readTagText wide c.rest.length [] c
  if before.isEmpty ∧ text.isEmpty then none else pure (before.drop 1 ++ text, after)

/-- Reads an exclamation mark and the letters after it, with a second exclamation mark if one
follows them. -/
def readTagHandle (c : Cursor) : Option (List Char × Cursor) :=
  match c.rest with
  | '!' :: rest =>
    let name := rest.takeWhile isNameLetter
    let after := c.skip (name.length + 1)
    match after.rest with
    | '!' :: _ => some ('!' :: name ++ ['!'], after.skip 1)
    | _ => some ('!' :: name, after)
  | _ => none

/-- Reads a tag as a handle and a suffix: in angle brackets, with a named handle, or on its own. -/
def readTag (inBrackets : Bool) (c : Cursor) : Option (Token × Cursor) := do
  let (token, c) ←
    match c.rest with
    | '!' :: '<' :: _ => do
      let (suffix, c) ← readTagChars true [] (c.skip 2)
      match c.rest with
      | '>' :: _ => pure (Token.tag "" (String.ofList suffix), c.skip 1)
      | _ => none
    | _ => do
      let (handle, after) ← readTagHandle c
      if handle.length ≥ 2 ∧ handle.getLast? = some '!' then
        let (suffix, after) ← readTagChars false [] after
        pure (Token.tag (String.ofList handle) (String.ofList suffix), after)
      else
        let (suffix, after) ← readTagChars false handle after
        match suffix with
        | [] => pure (Token.tag "" "!", after)
        | _ => pure (Token.tag "!" (String.ofList suffix), after)
  match c.rest with
  | [] => pure (token, c)
  | d :: _ =>
    if (inBrackets ∧ d = ',') ∨ isGap d ∨ isLineEnd d then pure (token, c) else none

/-! ### Lines before a document -/

/-- Reads a number of one to nine digits. -/
def readVersionNumber (c : Cursor) : Option (Nat × Cursor) :=
  let ds := c.rest.takeWhile Char.isDigit
  if ds.isEmpty ∨ ds.length > 9 then none
  else some (ds.foldl (fun n d => n * 10 + (d.toNat - '0'.toNat)) 0, c.skip ds.length)

/-- Reads a version, which must be one that is understood. -/
def readVersion (c : Cursor) : Option (Token × Cursor) := do
  let (major, c) ← readVersionNumber (c.skipWhile isGap)
  match c.rest with
  | '.' :: _ =>
    let (minor, c) ← readVersionNumber (c.skip 1)
    if major = 1 ∧ (minor = 1 ∨ minor = 2) then pure (.version, c) else none
  | _ => none

/-- Whether a cursor stands at a gap. -/
def atGap (c : Cursor) : Bool :=
  match c.rest with
  | d :: _ => isGap d
  | [] => false

/-- Reads the handle and the meaning of a tag line. -/
def readHandle (c : Cursor) : Option (Token × Cursor) := do
  let (name, c) ← readTagHandle (c.skipWhile isGap)
  if name ≠ ['!'] ∧ name.getLast? ≠ some '!' then none
  else if !atGap c then none
  else
    let (meaning, c) ← readTagChars true [] (c.skipWhile isGap)
    if gapNext c.rest then pure (.handle (String.ofList name) (String.ofList meaning), c) else none

/-- Reads a line that starts with a percent sign: a version or a tag handle. -/
def readDirective (c : Cursor) : Option (Token × Cursor) := do
  let name := (c.rest.drop 1).takeWhile isNameLetter
  let after := c.skip (name.length + 1)
  if !gapNext after.rest then none
  else
    let (token, c) ←
      match name with
      | ['Y', 'A', 'M', 'L'] => readVersion after
      | ['T', 'A', 'G'] => readHandle after
      | _ => none
    let c := c.skipWhile isGap
    let c :=
      match c.rest with
      | '#' :: _ => c.toLineEnd
      | _ => c
    match c.rest with
    | [] => pure (token, c)
    | d :: _ => if isLineEnd d then pure (token, c.skipLineEnd) else none

/-! ### Tokens -/

/-- A token that may be a key, with the cursor after it. -/
def Scanner.scalar (s : Scanner) (p : Position) (r : Option (Token × Cursor)) :
    Option (Scanner × Cursor) := do
  let s ← s.noteCandidate p
  let (t, c) ← r
  pure ((s.allowKey false).emit t, c)

/-- Whether a plain scalar may start with these characters: not with an indicator, except that a
dash, a question mark or a colon may start one when no gap follows. -/
def plainStarts (inBrackets : Bool) : List Char → Bool
  | [] => false
  | c :: cs =>
    let blankNext :=
      match cs with
      | d :: _ => isGap d
      | [] => false
    if c = '-' then !blankNext
    else if c = '?' ∨ c = ':' then !inBrackets && !gapNext cs
    else
      !(isGap c || isLineEnd c || c == ',' || c == '[' || c == ']' || c == '\x7b' || c == '\x7d' ||
        c == '#' || c == '&' || c == '*' || c == '!' || c == '|' || c == '>' || c == '\'' ||
        c == '"' || c == '%' || c == '@' || c == Char.ofNat 0x60)

/-- A plain scalar. After one that ends with its line, a key may start. -/
def Scanner.plain (s : Scanner) (c : Cursor) : Option (Scanner × Cursor) := do
  let s ← s.noteCandidate c.position
  let (f, after) ← readPlain s.inBrackets (s.indent + 1) Fold.start c.position c.rest
  pure ((s.allowKey f.newLine).emit (.scalar f.result true), after)

/-- A block scalar. -/
def Scanner.block (s : Scanner) (folded : Bool) (c : Cursor) : Option (Scanner × Cursor) := do
  let s ← s.dropCandidate
  let (text, after) ← readBlock folded s.indent (c.skip 1)
  pure ((s.allowKey true).emit (.scalar text false), after)

/-- A token of one character that leaves the cursor after it. -/
def Scanner.mark (s : Option Scanner) (c : Cursor) : Option (Scanner × Cursor) :=
  s.map fun s => (s, c.skip 1)

/-- Scans one token that is not the end of the stream, from where it starts. -/
def Scanner.token (s : Scanner) (c : Cursor) (first : Char) (others : List Char) :
    Option (Scanner × Cursor) :=
  let p := c.position
  if p.column = 0 ∧ first = '%' then do
    let s ← s.topLevel
    let (t, c) ← readDirective c
    pure (s.emit t, c)
  else if p.column = 0 ∧ documentMarkNext (first :: others) then
    s.topLevel.map fun s =>
      (s.emit (if first = '-' then .documentStart else .documentEnd), c.skip 3)
  else if first = '[' then mark ((s.noteCandidate p).map (·.enter .flowSequenceStart)) c
  else if first = '\x7b' then mark ((s.noteCandidate p).map (·.enter .flowMappingStart)) c
  else if first = ']' then mark (s.leave .flowSequenceEnd) c
  else if first = '\x7d' then mark (s.leave .flowMappingEnd) c
  else if first = ',' then mark s.comma c
  else if first = '-' ∧ gapNext others then mark (s.blockEntry p.column) c
  else if first = '?' ∧ (s.inBrackets ∨ gapNext others) then mark (s.explicitKey p.column) c
  else if first = ':' ∧ (s.inBrackets ∨ gapNext others) then mark (s.valueMark p.column) c
  else if first = '*' then
    s.scalar p ((readAnchorName (c.skip 1)).map fun r => (.alias r.1, r.2))
  else if first = '&' then
    s.scalar p ((readAnchorName (c.skip 1)).map fun r => (.anchor r.1, r.2))
  else if first = '!' then s.scalar p (readTag s.inBrackets c)
  else if first = '|' ∧ !s.inBrackets then s.block false c
  else if first = '>' ∧ !s.inBrackets then s.block true c
  else if first = '\'' then
    s.scalar p ((readSingle Fold.start p.right others).map fun r =>
      (.scalar r.1.result false, r.2))
  else if first = '"' then
    s.scalar p ((readDouble Fold.start none p.right others).map fun r =>
      (.scalar r.1.result false, r.2))
  else if plainStarts s.inBrackets (first :: others) then s.plain c
  else none

/-- Drops the candidates that can no longer become keys, at every level of brackets. -/
def Scanner.expireAll (s : Scanner) (p : Position) : Option Scanner := do
  let candidate ← expire? p s.candidate
  let enclosing ← s.enclosing.mapM (expire? p)
  pure { s with candidate, enclosing }

/-- Scans a text from a cursor on. Each token takes at least one character. -/
def scan (s : Scanner) (c : Cursor) : Option (List Token) :=
  let (keyAllowed, at_) := toToken s.inBrackets s.keyAllowed false c.position c.rest
  match ({ s with keyAllowed }).expireAll at_.position with
  | none => none
  | some s =>
    let s := s.unroll at_.column
    match at_.rest with
    | [] => s.finish
    | first :: others =>
      match s.token at_ first others with
      | none => none
      | some (s, after) =>
        if s.documentEnded then some s.tokens.reverse
        else if after.rest.length < c.rest.length then scan s after
        else none
termination_by c.rest.length

/-- The tokens of a text. -/
def tokens? (cs : List Char) : Option (List Token) :=
  (streamChars? cs).bind fun cs => scan .start ⟨cs, ⟨0, 0, 0⟩⟩

end ClientRegen.Yaml
