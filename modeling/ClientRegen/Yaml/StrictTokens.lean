import ClientRegen.Yaml.Scanner
import ClientRegen.Yaml.StrictText
/-!
# YAML tokens in the strict reading

A text as its tokens by the stricter rules. The tokens are those of the lenient reading, except
that scalars say nothing; what matters is whether there are any and whether they make a document.

* What stands in brackets lies further in than the collection around them; closing brackets and
  commas need not.
* The value of a key, and what follows a dash on a further line or in brackets, lies further in
  than the key or the dash.
-/

namespace ClientRegen.Yaml.Strict

/-- How far a strict reading has come. -/
structure Reading where
  /-- The state of scanning. -/
  scanner : Scanner
  /-- Where it has come to. -/
  place : Place
  /-- Whether a colon may come next that touches its value: after a quoted scalar or a closing
  bracket inside of brackets. -/
  colonTouches : Bool

namespace Reading

/-- Nothing read yet. -/
def start (cs : List Char) : Reading :=
  ⟨.start, ⟨true, ⟨cs, ⟨0, 0, 0⟩⟩⟩, false⟩

/-- Goes on after a token in the middle of a line. -/
def after (s : Scanner) (c : Cursor) : Reading :=
  ⟨s, ⟨false, c⟩, false⟩

/-- A token that may be a key, with the cursor after it. -/
def named (s : Scanner) (p : Position) (r : Option (Token × Cursor)) : Option Reading := do
  let s ← s.noteCandidate p
  let (t, c) ← r
  pure (after ((s.allowKey false).emit t) c)

/-- A line that starts with a percent sign. -/
def directive (s : Scanner) (c : Cursor) : Option Reading := do
  let s ← s.topLevel
  let (t, c) ← readDirective c
  pure (after (s.emit t) c)

/-- A mark that starts or ends a document. Only a comment may stand in the line of one that ends
it. -/
def documentMark (s : Scanner) (c : Cursor) (ends : Bool) : Option Reading := do
  let s ← s.topLevel
  let c := c.skip 3
  if ends then
    let c ← skipGaps c
    if lineEndNext c.rest then pure (after (s.emit .documentEnd) c) else none
  else pure (after (s.emit .documentStart) c)

/-- An opening bracket. -/
def openBracket (s : Scanner) (c : Cursor) (t : Token) : Option Reading := do
  let s ← s.noteCandidate c.position
  pure (after (s.loosen.enter t) (← skipGaps (c.skip 1)))

/-- A closing bracket. -/
def closeBracket (s : Scanner) (c : Cursor) (t : Token) : Option Reading := do
  let s ← s.leave t
  pure { after s (← skipGaps (c.skip 1)) with colonTouches := s.inBrackets }

/-- The comma between items in brackets. -/
def comma (s : Scanner) (c : Cursor) : Option Reading := do
  pure (after (← s.comma) (← skipGaps (c.skip 1)))

/-- The dash before an item. -/
def blockEntry (s : Scanner) (c : Cursor) : Option Reading := do
  let s ← s.blockEntry c.column
  let next ← skipGaps (c.skip 1)
  let loose : Bool := next.rest.head? == some '\n' || bracketMarkNext next.rest
  pure (after (if loose then s.loosen else s) next)

/-- The question mark before a key. -/
def explicitKey (s : Scanner) (c : Cursor) : Option Reading := do
  let s ← s.explicitKey c.column
  pure ⟨s, ← skipAfterQuestion (c.skip 1), false⟩

/-- The colon before a value. -/
def valueMark (s : Scanner) (c : Cursor) : Option Reading := do
  let next ← skipAfterColon (c.skip 1)
  let s ← s.valueMark c.column
  pure (after s.loosen next)

/-- A block scalar. It may be taken for a key, and since it ends its line it never is one. -/
def block (s : Scanner) (c : Cursor) : Option Reading := do
  let s ← s.noteCandidate c.position
  let s := s.tighten
  let next ← skipBlock s.indent (c.skip 1)
  pure ⟨(s.allowKey true).emit (.scalar "" false), ⟨true, next⟩, false⟩

/-- A quoted scalar. -/
def quotedScalar (s : Scanner) (c : Cursor) (quote : Char) : Option Reading := do
  let s ← s.noteCandidate c.position
  let p := c.position
  let next ← skipQuoted quote s.inBrackets s.tighten.indent s.indent false p.right (c.rest.drop 1)
  let next ← checkAfterQuote s.inBrackets p.line next
  pure { after ((s.allowKey false).emit (.scalar "" false)) next with colonTouches := true }

/-- A plain scalar. After one that ends with its line, a key may start. -/
def plainScalar (s : Scanner) (place : Place) : Option Reading := do
  let c := place.cursor
  let s ← s.noteCandidate c.position
  let s := s.tighten
  let shallow := s.inBrackets ∧ (c.column : Int) ≤ s.indent
  if shallow ∨ !plainStarts s.inBrackets place.fresh c.rest then
    none
  else
    let next ← skipPlain s.inBrackets (s.indent + 1) false false c.position.right (c.rest.drop 1)
    pure ⟨(s.allowKey next.fresh).emit (.scalar "" true), next, false⟩

/-- Whether a colon comes next that stands before a value, and not inside a plain scalar. -/
def colonNext (r : Reading) (others : List Char) : Bool :=
  blankNext others ||
    (r.scanner.inBrackets && (bracketMarkNext others || r.colonTouches))

/-- Whether a colon comes next that touches an opening bracket and must not. -/
def colonFaulty (r : Reading) (others : List Char) : Bool :=
  !r.colonTouches && (others.head? == some '[' || others.head? == some '\x7b')

/-- Reads one token that is not the end of the text, from where it starts. -/
def token (r : Reading) (first : Char) (others : List Char) : Option Reading :=
  let s := r.scanner
  let c := r.place.cursor
  let inBrackets := s.inBrackets
  if c.column = 0 ∧ first = '%' then directive s c
  else if c.column = 0 ∧ documentMarkNext (first :: others) then documentMark s c (first == '.')
  else if inBrackets ∧ (c.column : Int) < s.indent ∧ first ≠ ']' ∧ first ≠ '\x7d' ∧ first ≠ ',' then
    none
  else if first = '[' then openBracket s c .flowSequenceStart
  else if first = '\x7b' then openBracket s c .flowMappingStart
  else if first = ']' then closeBracket s c .flowSequenceEnd
  else if first = '\x7d' then closeBracket s c .flowMappingEnd
  else if first = ',' then comma s c
  else if first = '-' ∧ blankNext others then blockEntry s c
  else if first = '?' ∧ blankNext others then explicitKey s c
  else if first = ':' ∧ r.colonNext others then
    if inBrackets ∧ r.colonFaulty others then none else valueMark s c
  else if first = '*' then
    named s c.position ((readAnchorName (c.skip 1)).map fun r => (.alias r.1, r.2))
  else if first = '&' then
    named s c.position ((readAnchorName (c.skip 1)).map fun r => (.anchor r.1, r.2))
  else if first = '!' then named s c.position (readTag inBrackets c)
  else if (first = '|' ∨ first = '>') ∧ !inBrackets then block s c
  else if first = '\'' ∨ first = '"' then quotedScalar s c first
  else if first = '%' ∨ first = '@' ∨ first = Char.ofNat 0x60 then none
  else plainScalar s r.place

end Reading

/-- Drops the candidate that can no longer become a key; inside brackets every candidate still
can. -/
def expire (s : Scanner) (p : Position) : Option Scanner :=
  if s.inBrackets then some s
  else (Scanner.expire? p s.candidate).map fun candidate => { s with candidate }

/-- Reads a text from where a reading has come to. Each token takes at least one character. -/
def scan (r : Reading) : Option (List Token) :=
  let s := r.scanner
  let c := r.place.cursor
  match toToken s.inBrackets s.indent s.keyAllowed r.place.fresh false c.position c.rest with
  | none => none
  | some (keyAllowed, place) =>
    match expire { s with keyAllowed } place.cursor.position with
    | none => none
    | some s =>
      let s := s.unroll place.cursor.column
      match place.cursor.rest with
      | [] => s.finish
      | first :: others =>
        match (Reading.mk s place r.colonTouches).token first others with
        | none => none
        | some next =>
          if next.scanner.documentEnded then some next.scanner.tokens.reverse
          else if next.place.cursor.rest.length < c.rest.length then scan next
          else none
termination_by r.place.cursor.rest.length

/-- The tokens of a text. -/
def tokens? (cs : List Char) : Option (List Token) :=
  scan (.start (unifyReturns cs))

end ClientRegen.Yaml.Strict
