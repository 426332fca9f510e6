import ClientRegen.Document.JsonReader
import ClientRegen.Failure
import ClientRegen.FileTree.World
import ClientRegen.Yaml.Meaning
/-!
# Documents of a specification

A specification is a root document and the documents that its references lead to. Each document is
read once and kept, so that what was read stays as it was even when its file changes.

* `Loading` keeps what was read also when it fails.
* `fetch` answers a kept document and otherwise what `readDocument` answers.
* `resolve` follows a fixed number of references and no more.
-/

namespace ClientRegen

/-- The documents that were read, by path. -/
abbrev Documents := List (Path × Value)

/-- Work on documents that may read more of them and may fail. -/
abbrev Loading := EStateM Failure Documents

/-- Whether a path names a JSON document, by its extension in any mix of cases. -/
def isJsonPath (p : Path) : Bool :=
  match p.extension? with
  | some e => e.toList.map Char.toLower == ['j', 's', 'o', 'n']
  | none => false

/-- The document in a file: JSON or YAML, by the file's name. -/
def readDocument (w : World) (p : Path) : Except Failure Value :=
  match w.readText p with
  | .error f => .error (.file p f)
  | .ok text =>
    match if isJsonPath p then Json.parse? text else Yaml.parse? text with
    | some v => .ok v
    | none => .error (.specification p .malformed)

/-- A document, read if it was not read before. -/
def fetch (w : World) (p : Path) : Loading Value := fun docs =>
  match docs.lookup p with
  | some v => .ok v docs
  | none =>
    match readDocument w p with
    | .ok v => .ok v ((p, v) :: docs)
    | .error f => .error f docs

/-- A reference: the file it leads to, none for the document it stands in, and a pointer into the
document. -/
structure Reference where
  /-- The file, relative to the document's directory; empty for the document itself. -/
  file : String
  /-- The pointer into the document; empty for the whole. -/
  pointer : String
deriving DecidableEq, Repr

/-- A reference from its text: the first hash sign parts the file from the pointer. -/
def Reference.ofText (text : String) : Reference :=
  let cs := text.toList
  ⟨String.ofList (cs.takeWhile (· ≠ '#')), String.ofList ((cs.dropWhile (· ≠ '#')).drop 1)⟩

/-- The document that a reference in another document leads to. -/
def Reference.document (r : Reference) (base : Path) : Path :=
  if r.file = "" then base else (base.directory.join ⟨r.file⟩).normalize

/-- The text of the reference that a value is, if it is one. -/
def referenceIn? (v : Value) : Option String :=
  (v.field? "$ref").bind Value.string?

/-- One step along a reference from a document: the document it leads to and the value there. -/
def follow (w : World) (document : Path) (text : String) : Loading (Path × Value) := do
  let r := Reference.ofText text
  let target := r.document document
  let root ← fetch w target
  match root.at? r.pointer with
  | some v => pure (target, v)
  | none => throw (.specification target (.unresolved text))

/-- Follows references from a value in a document, up to a number of steps. -/
def resolveWithin (w : World) (start : Path) : Nat → Path → Value → Loading Value
  | 0, _, _ => throw (.specification start .tooDeep)
  | steps + 1, document, v =>
    match referenceIn? v with
    | none => pure v
    | some text => do
      let (document, v) ← follow w document text
      resolveWithin w start steps document v

/-- The value that a value in a document stands for: what its chain of references ends in. -/
def resolve (w : World) (document : Path) (v : Value) : Loading Value :=
  resolveWithin w document referenceLimit document v

end ClientRegen
