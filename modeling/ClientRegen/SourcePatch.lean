import ClientRegen.Failure
import ClientRegen.FileTree.Action
import ClientRegen.Text.Replace
/-!
# Source patches

A source patch replaces one text by another everywhere in one generated file. The text has to be
there: if it is not, the generated code is not what the patch was written for, and the run stops.

* `applyPatches` applies patches in order and answers each patched file once, however its path is
  spelled.
-/

namespace ClientRegen

/-- A replacement in one generated file. -/
structure SourcePatch where
  /-- The file, relative to the output directory. -/
  file : String
  /-- The text that is replaced. -/
  search : String
  /-- What it is replaced by. -/
  replace : String
deriving DecidableEq, Repr, Inhabited

namespace SourcePatch

/-- Whether a path has steps that may lead out of the directory it is taken from. -/
def escapes (p : Path) : Bool :=
  p.components.any fun c =>
    match c with
    | .name _ => false
    | .current => false
    | .root => true
    | .parent => true

/-- The file that a patch changes. -/
def target (output : Path) (patch : SourcePatch) : Except Failure Path :=
  if isBlankText patch.file || escapes ⟨patch.file⟩ then
    .error (.configuration (.escapingPatch patch.file))
  else .ok (output.join ⟨patch.file⟩)

/-- A text with the replacement made everywhere. -/
def changed (patch : SourcePatch) (text : String) : String :=
  String.ofList (Text.replaceAll patch.search.toList patch.replace.toList text.toList)

/-- The text of a file after a patch; the file has to hold what the patch searches for. -/
def patchedText (w : World) (path : Path) (patch : SourcePatch) : Except Failure String :=
  if patch.search = "" then .error (.configuration (.emptySearch patch.file))
  else
    match w.readText path with
    | .error f => .error (.file path f)
    | .ok text =>
      if Text.occursIn patch.search.toList text.toList then .ok (patch.changed text)
      else .error (.mismatch path (.searchMissing patch.search))

/-- Applies a patch, and answers the file it changed. -/
def apply (output : Path) (patch : SourcePatch) : Action Path := do
  let path ← Action.look fun _ => patch.target output
  let text ← Action.look fun w => patch.patchedText w path
  Action.writeText path text
  pure path

end SourcePatch

/-- Paths with one more, unless it is among them in another spelling. -/
def addPath (paths : List Path) (p : Path) : List Path :=
  if paths.any (·.components == p.components) then paths else paths ++ [p]

/-- Applies patches in order, and answers the files they changed. -/
def applyPatches (output : Path) (patches : List SourcePatch) : Action (List Path) := do
  let changed ← patches.mapM (SourcePatch.apply output)
  pure (changed.foldl addPath [])

end ClientRegen
