import ClientRegen.Yaml.Cursor
import ClientRegen.Yaml.Token
/-!
# The state of scanning

What has to be remembered while a text is cut into tokens. Two things are known only after the
fact: that a piece of text was a key, which the colon after it shows, and that a collection by
indentation has ended, which the column of the next token shows. For the first a candidate is
remembered for each level of brackets and the key token is put in afterwards; for the second the
open indentations are kept on a stack.

* `Scanner.unroll` ends collections, `Scanner.roll` begins one.
* `Scanner.loosen` opens an indentation that no collection has: what comes next must lie further in
  than the collection around it, and may become a collection of its own.
-/

namespace ClientRegen.Yaml

/-- A place where a key may have started. -/
structure Candidate where
  /-- Whether the text there must turn out to be a key. -/
  required : Bool
  /-- How many tokens came before it. -/
  before : Nat
  /-- Where it is in the text. -/
  position : Position

/-- An open indentation. -/
structure Indentation where
  /-- The first column that belongs to it. -/
  column : Nat
  /-- Whether a collection has it, which ends with it. -/
  collection : Bool
deriving DecidableEq

/-- The state of scanning. -/
structure Scanner where
  /-- The tokens so far, latest first. -/
  tokens : List Token
  /-- How many they are. -/
  count : Nat
  /-- The open indentations, innermost first. -/
  indents : List Indentation
  /-- The place where a key may have started, at the present level of brackets. -/
  candidate : Option Candidate
  /-- The same for the levels around it, innermost first; one for each open bracket. -/
  enclosing : List (Option Candidate)
  /-- Whether a key may start next. -/
  keyAllowed : Bool

namespace Scanner

/-- Nothing scanned yet. -/
def start : Scanner :=
  ⟨[], 0, [], none, [], true⟩

/-- Whether a bracket is open. -/
def inBrackets (s : Scanner) : Bool :=
  !s.enclosing.isEmpty

/-- The column of the innermost indentation, -1 outside of any. -/
def indent (s : Scanner) : Int :=
  match s.indents with
  | i :: _ => i.column
  | [] => -1

/-- One more token. -/
def emit (s : Scanner) (t : Token) : Scanner :=
  { s with tokens := t :: s.tokens, count := s.count + 1 }

/-- Tokens put in after the first `before` ones. -/
def insert (s : Scanner) (before : Nat) (ts : List Token) : Scanner :=
  let later := s.count - before
  { s with
    tokens := s.tokens.take later ++ ts.reverse ++ s.tokens.drop later
    count := s.count + ts.length }

/-! ### Indentation -/

/-- Opens the indentation of a collection. -/
def openBlock (s : Scanner) (column : Nat) : Scanner :=
  { s with indents := ⟨column, true⟩ :: s.indents }

/-- Opens an indentation one column further in than a collection, unless brackets hide it. -/
def loosen (s : Scanner) : Scanner :=
  match s.indents with
  | ⟨column, true⟩ :: _ =>
    if s.inBrackets then s else { s with indents := ⟨column + 1, false⟩ :: s.indents }
  | _ => s

/-- Forgets the innermost indentation if no collection has it. -/
def tighten (s : Scanner) : Scanner :=
  match s.indents with
  | ⟨_, false⟩ :: is => { s with indents := is }
  | _ => s

/-- Makes room for a collection that starts at a column: an indentation without a collection gives
way to it. -/
def settle (s : Scanner) (column : Nat) : Scanner :=
  if s.inBrackets ∨ s.indent > column then s else s.tighten

/-- Whether a collection that starts at this column is further in than the innermost one. -/
def startsBlock (s : Scanner) (column : Nat) : Bool :=
  !s.inBrackets && s.indent < (column : Int)

/-- Opens a collection by indentation before the next token, if its column asks for one. -/
def roll (s : Scanner) (column : Nat) (t : Token) : Scanner :=
  let s := s.settle column
  if s.startsBlock column then (s.emit t).openBlock column else s

/-- Ends the indentations that lie further in than a column, innermost first. -/
def unrollTo (column : Int) : List Indentation → Scanner → Scanner
  | [], s => s
  | i :: is, s =>
    if (i.column : Int) > column then
      let s := if i.collection then s.emit .blockEnd else s
      unrollTo column is { s with indents := is }
    else s

/-- Ends the indentations that a token in this column is not part of; brackets hide
indentation. -/
def unroll (s : Scanner) (column : Int) : Scanner :=
  if s.inBrackets then s else unrollTo column s.indents s

/-! ### Keys -/

/-- Drops a candidate that can no longer become a key, because its line has ended or it is too far
back; it must not have been required. -/
def expire? (p : Position) : Option Candidate → Option (Option Candidate)
  | none => some none
  | some k =>
    if k.position.line < p.line ∨ k.position.index + 1024 < p.index then
      if k.required then none else some none
    else some (some k)

/-- Gives up the candidate of the present level; it must not be required. -/
def dropCandidate (s : Scanner) : Option Scanner :=
  match s.candidate with
  | some k => if k.required then none else some { s with candidate := none }
  | none => some s

/-- Remembers that a key may start here. It is required where the column is that of the collection
around it. -/
def noteCandidate (s : Scanner) (p : Position) : Option Scanner :=
  if s.keyAllowed then do
    let s ← s.dropCandidate
    let required := !s.inBrackets && s.indents.head? == some ⟨p.column, true⟩
    pure { s with candidate := some ⟨required, s.count, p⟩ }
  else some s

/-- Whether a key may start next from now on. -/
def allowKey (s : Scanner) (b : Bool) : Scanner :=
  { s with keyAllowed := b }

/-! ### Tokens -/

/-- An opening bracket, at which a key may have started. -/
def enter (s : Scanner) (t : Token) : Scanner :=
  ({ s with candidate := none, enclosing := s.candidate :: s.enclosing }.allowKey true).emit t

/-- A closing bracket. -/
def leave (s : Scanner) (t : Token) : Option Scanner := do
  let s ← s.dropCandidate
  let s :=
    match s.enclosing with
    | [] => s
    | k :: ks => { s with candidate := k, enclosing := ks }
  pure ((s.allowKey false).emit t)

/-- The comma between items in brackets. -/
def comma (s : Scanner) : Option Scanner :=
  s.dropCandidate.map fun s => (s.allowKey true).emit .flowEntry

/-- The dash before an item. -/
def blockEntry (s : Scanner) (column : Nat) : Option Scanner := do
  if !s.inBrackets ∧ !s.keyAllowed then none
  else
    let s ← (s.roll column .blockSequenceStart).dropCandidate
    pure ((s.allowKey true).emit .blockEntry)

/-- The question mark before a key. -/
def explicitKey (s : Scanner) (column : Nat) : Option Scanner := do
  if !s.inBrackets ∧ !s.keyAllowed then none
  else
    let s ← (s.roll column .blockMappingStart).dropCandidate
    pure ((s.allowKey (!s.inBrackets)).emit .key)

/-- The colon before a value: what the candidate marks was a key. -/
def valueMark (s : Scanner) (column : Nat) : Option Scanner :=
  match s.candidate with
  | some k =>
    let s := { s with candidate := none }.settle k.position.column
    let s :=
      if s.startsBlock k.position.column then
        (s.insert k.before [.blockMappingStart, .key]).openBlock k.position.column
      else s.insert k.before [.key]
    some ((s.allowKey false).emit .value)
  | none =>
    if !s.inBrackets ∧ !s.keyAllowed then none
    else
      let s := s.roll column .blockMappingStart
      some ((s.allowKey (!s.inBrackets)).emit .value)

/-- A mark in the first column ends every collection by indentation. -/
def topLevel (s : Scanner) : Option Scanner := do
  let s ← (s.unroll (-1)).dropCandidate
  pure (s.allowKey false)

/-- The tokens in order, when the text has come to its end. -/
def finish (s : Scanner) : Option (List Token) :=
  s.topLevel.map fun s => (s.emit .streamEnd).tokens.reverse

/-- Whether the document has come to a mark that ends it. -/
def documentEnded (s : Scanner) : Bool :=
  s.tokens.head? == some .documentEnd

end Scanner
end ClientRegen.Yaml
