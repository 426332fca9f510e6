import ClientRegen.Failure
import ClientRegen.FileTree.World
/-!
# Clearing a directory

A directory is emptied except for the entries on a list, which stay with everything beneath them.
Directories that are empty in the end go too; links are removed, never followed.

* `clearEntries` removes by recursion on the tree; a kept entry is not looked into.
* Only the tree below the directory changes.
* The path of the directory is resolved once, and every removal below it succeeds. The program
  resolves the path of each entry anew: a path that leads through an entry that goes, such as
  `out/x/..`, or one that grows beyond the limit of the system stops it midway.
-/

namespace ClientRegen

/-- What was removed and what was kept. -/
structure ClearReport where
  /-- How many files and links were removed. -/
  filesRemoved : Nat
  /-- How many directories were removed. -/
  dirsRemoved : Nat
  /-- The entries on the list, by their paths from the cleared directory. -/
  kept : List String
deriving DecidableEq, Repr, Inhabited

namespace ClearReport

/-- Nothing was there. -/
def empty : ClearReport :=
  ⟨0, 0, []⟩

/-- What two parts of the work did together. -/
def append (a b : ClearReport) : ClearReport :=
  ⟨a.filesRemoved + b.filesRemoved, a.dirsRemoved + b.dirsRemoved, a.kept ++ b.kept⟩

end ClearReport

/-- Whether a path from the cleared directory is on the list of what is kept. -/
def isIgnored (relative : String) (ignored : List String) : Bool :=
  ignored.contains relative

/-- The path of an entry from the cleared directory, from the path of the directory it is in. -/
def relativePath (directory name : String) : String :=
  if directory = "" then name else directory ++ "/" ++ name

mutual

/-- What is left of an entry, and what was done. -/
def clearEntry (ignored : List String) (relative : String) :
    Entry → Option Entry × ClearReport
  | .file content executable =>
    if isIgnored relative ignored then (some (.file content executable), ⟨0, 0, [relative]⟩)
    else (none, ⟨1, 0, []⟩)
  | .link target =>
    if isIgnored relative ignored then (some (.link target), ⟨0, 0, [relative]⟩)
    else (none, ⟨1, 0, []⟩)
  | .dir entries =>
    if isIgnored relative ignored then (some (.dir entries), ⟨0, 0, [relative]⟩)
    else
      match clearEntries ignored relative entries with
      | ([], report) => (none, { report with dirsRemoved := report.dirsRemoved + 1 })
      | (left, report) => (some (.dir left), report)

/-- What is left of the entries of a directory, and what was done. -/
def clearEntries (ignored : List String) (directory : String) :
    List (String × Entry) → List (String × Entry) × ClearReport
  | [] => ([], .empty)
  | (name, e) :: es =>
    let (left, report) := clearEntry ignored (relativePath directory name) e
    let (others, further) := clearEntries ignored directory es
    ((left.map (name, ·)).toList ++ others, report.append further)

end

/-- Clears the directory that a path leads to. A path that leads nowhere is clear already. -/
def clear (w : World) (p : Path) (ignored : List String) : Except Failure (ClearReport × World) :=
  match w.directory? p with
  | some (location, entries) =>
    let (left, report) := clearEntries ignored "" entries
    .ok (report, w.withRoot (w.root.put location (.dir left)))
  | none =>
    if w.exists? p then .error (.configuration (.outputNotDirectory p)) else .ok (.empty, w)

end ClientRegen
