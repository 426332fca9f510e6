import ClientRegen.EnumSource.Patch
import ClientRegen.FileTree.Action
import ClientRegen.Spec.Search
import ClientRegen.Text.TypeName
/-!
# Enum files

The generated files that declare one enum each, known by their names, and the labels that the
specification has for them.

* A walk takes the regular files of a tree depth first, by the order of names; it follows no link
  but the one that its start may be.
* `patchedTexts` makes every new text before any file is written, so a mismatch leaves all files as
  they were generated.
-/

namespace ClientRegen

/-- A regular file that a walk met. -/
structure FoundFile where
  /-- The path on which the walk met it. -/
  path : Path
  /-- Where it is. -/
  location : Location
  /-- Its name. -/
  name : String
  /-- What it holds. -/
  content : ByteArray

mutual

/-- The regular files of an entry and below it. -/
def filesOf (path : Path) (location : Location) (name : String) : Entry → List FoundFile
  | .file content _ => [⟨path, location, name, content⟩]
  | .link _ => []
  | .dir entries => filesBelow path location entries

/-- The regular files below a directory. -/
def filesBelow (path : Path) (location : Location) : List (String × Entry) → List FoundFile
  | [] => []
  | (name, e) :: es =>
    filesOf (path.join ⟨name⟩) (location ++ [name]) name e ++ filesBelow path location es

end

/-- The regular files that a walk from a path meets. -/
def walkFiles (w : World) (p : Path) : Except FileFault (List FoundFile) :=
  match w.locate p false with
  | .error f => .error f
  | .ok (.vacant _ _) => .error .notFound
  | .ok (.present _ (.link _)) =>
    match w.locate p true with
    | .error f => .error f
    | .ok (.vacant _ _) => .error .notFound
    | .ok (.present location e) => .ok (filesBelow p location e.entries)
  | .ok (.present location e) => .ok (filesOf p location (p.fileName?.getD p.text) e)

/-- A file that declares an enum. -/
structure EnumFile where
  /-- Its path. -/
  path : Path
  /-- Where it is. -/
  location : Location
  /-- The name of the enum. -/
  typeName : String
  /-- Its text. -/
  content : String

/-- A file as an enum file, if it is named as one; its bytes have to be a text. -/
def FoundFile.enumFile? (f : FoundFile) : Option (Except Failure EnumFile) :=
  (enumTypeName? f.name).map fun typeName =>
    match World.textOf f.content with
    | .ok content => .ok ⟨f.path, f.location, typeName, content⟩
    | .error fault => .error (.file f.path fault)

/-- The enum files in a directory. -/
def enumFiles (w : World) (output : Path) : Except Failure (List EnumFile) :=
  match walkFiles w output with
  | .error f => .error (.filesystem output (.walking output f))
  | .ok files => (files.filterMap (·.enumFile?)).mapM id

namespace EnumFile

/-- The names under which a schema may stand. -/
def candidates (f : EnumFile) : List String :=
  [f.typeName, f.typeName ++ "Enum"]

/-- The text of a file with the labels that a lookup found for it. -/
def labelled (f : EnumFile) (root : Path) : EnumLookup → Except Failure String
  | .missing => .error (.mismatch f.path (.noSchema f.typeName root))
  | .notEnum fault => .error (.mismatch f.path (.notEnum fault))
  | .found m =>
    match patchEnumSource f.content m with
    | .ok text => .ok text
    | .error fault => .error (.mismatch f.path (.source fault))

/-- The new texts of files, in order; documents that were read for one serve the next. -/
def newTexts (w : World) (spec : Specification) :
    List EnumFile → Except Failure (List (EnumFile × String))
  | [] => .ok []
  | f :: fs =>
    match spec.findEnum w f.candidates with
    | (.error fault, _) => .error fault
    | (.ok found, spec) =>
      match f.labelled spec.root found with
      | .error fault => .error fault
      | .ok text => (newTexts w spec fs).map ((f, text) :: ·)

end EnumFile

/-- The enum files in a directory whose texts the specification changes, with their new texts. -/
def patchedTexts (w : World) (output spec : Path) : Except Failure (List (EnumFile × String)) :=
  match enumFiles w output with
  | .error f => .error f
  | .ok [] => .ok []
  | .ok files =>
    match Specification.openAt w spec with
    | .error f => .error f
    | .ok opened =>
      (EnumFile.newTexts w opened files).map (·.filter fun r => r.2 != r.1.content)

/-- A world in which the file at a location holds a text. -/
def World.putTextAt (w : World) (location : Location) (text : String) : World :=
  w.withRoot (w.root.update (fun e =>
    match e with
    | some (.file _ executable) => some (.file text.toUTF8 executable)
    | e => e) location)

/-- Labels the enums in a directory, and answers the files that changed. -/
def patchEnums (output spec : Path) : Action (List Path) := do
  let patched ← Action.look fun w => patchedTexts w output spec
  modify fun w => patched.foldl (fun w r => w.putTextAt r.1.location r.2) w
  pure (patched.map (·.1.path))

end ClientRegen
