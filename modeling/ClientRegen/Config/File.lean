import ClientRegen.Client
import ClientRegen.FileTree.World
import ClientRegen.Failure
import ClientRegen.SourcePatch
import ClientRegen.Yaml.Merge
/-!
# Configuration files

What a configuration file says, before defaults and overrides are applied. The file is YAML; each
setting stands under its own key, and no other key is permitted.

* A setting that is a text keeps the text of its scalar, whatever it looks like.
* A setting that is null counts as not given.
-/

namespace ClientRegen

/-- The settings of one client package. -/
structure ClientSection where
  /-- The name of the generator. -/
  generator : Option String
  /-- Parameters of the generator, in order. -/
  params : List (String × Value)
  /-- The directory of the generator's templates. -/
  templateDir : Option Path
  /-- Paths in the output directory that are kept when it is cleared. -/
  filesForIgnore : List String
  /-- Replacements in the generated code. -/
  sourcePatches : List SourcePatch
deriving Inhabited

/-- The contents of a configuration file. -/
structure ConfigFile where
  /-- The directory of the specification. -/
  apidocDir : Option Path
  /-- The root document of the specification, in its directory. -/
  specFile : Option String
  /-- The directory inside which every output directory has to lie. -/
  outputRoot : Option Path
  /-- The output directory, without the ending of a client. -/
  outputDirTemplate : Option Path
  /-- The owner of the package's repository. -/
  gitUser : Option String
  /-- The name of the package's repository, without the ending of a client. -/
  gitRepoTemplate : Option String
  /-- The host of the package's repository. -/
  gitHost : Option String
  /-- The generator's command. -/
  generatorBin : Option String
  /-- The licence that is put into a package without one. -/
  licenseTemplate : Option Path
  /-- The settings of the PHP package. -/
  phpArgs : ClientSection
  /-- The settings of the JavaScript package. -/
  jsArgs : ClientSection
  /-- The settings of the NodeJS package. -/
  nodejsArgs : ClientSection
deriving Inhabited

namespace Config

open Yaml

/-- The text that a node gives, or nothing if it is null. A tag that asks for null permits no
other plain scalar. -/
def optionalText? : Node → Option (Option String)
  | .scalar tag plain text =>
    let nothing := plain && isNull text
    match tag with
    | none => some (if nothing then none else some text)
    | some tag =>
      if plain ∧ tag = commonTag "null" then if nothing then some none else none
      else some (some text)
  | _ => none

/-- The text under a key, if it is given. -/
def textField? (fields : Fields) (key : String) : Option (Option String) :=
  match fields.lookup key with
  | none => some none
  | some n => optionalText? n

/-- Whether a node stands for a collection without saying anything: a plain null, whatever its
tag. -/
def isAbsent : Node → Bool
  | .scalar _ plain text => plain && isNull text
  | _ => false

/-- The path under a key, if it is given. -/
def pathField? (fields : Fields) (key : String) : Option (Option Path) :=
  (textField? fields key).map (·.map Path.mk)

/-- What a key holds, read by `read?`, or a default if it is not given. -/
def fieldOr? {α : Type} (default : α) (read? : Node → Option α) (fields : Fields) (key : String) :
    Option α :=
  match fields.lookup key with
  | none => some default
  | some n => if isAbsent n then some default else read? n

/-- Whether two entries of a mapping have the same key. -/
def repeatsAnyKey : Node → Bool
  | .mapping _ entries => repeatsKey (entries.map fun e => (⟨e.1.text, true⟩, e.2))
  | _ => false

/-- The fields of a mapping that has no keys but these, each of them once. -/
def fieldsAmong? (keys : List String) (n : Node) : Option Fields := do
  let fields ← n.fields?
  if fields.all (keys.contains ·.1) ∧ !repeatsAnyKey n then some fields else none

/-- A list of texts. -/
def texts? : Node → Option (List String)
  | .sequence _ items => items.mapM Node.text?
  | _ => none

/-- Values under their keys. -/
def params? (n : Node) : Option (List (String × Value)) := do
  let fields ← n.fields?
  fields.mapM fun f => f.2.value?.map (f.1, ·)

/-- A source patch; all of its fields have to be there. -/
def sourcePatch? (n : Node) : Option SourcePatch := do
  let fields ← fieldsAmong? ["file", "search", "replace"] n
  let text? (key : String) : Option String := (fields.lookup key).bind Node.text?
  return ⟨← text? "file", ← text? "search", ← text? "replace"⟩

/-- A list of source patches. -/
def sourcePatches? : Node → Option (List SourcePatch)
  | .sequence _ items => items.mapM sourcePatch?
  | _ => none

/-- The keys of a client's section. -/
def sectionKeys : List String :=
  ["generator", "params", "template_dir", "files_for_ignore", "source_patches"]

/-- A client's section. -/
def section? (n : Node) : Option ClientSection := do
  let fields ← fieldsAmong? sectionKeys n
  return {
    generator := ← textField? fields "generator"
    params := ← fieldOr? [] params? fields "params"
    templateDir := ← pathField? fields "template_dir"
    filesForIgnore := ← fieldOr? [] texts? fields "files_for_ignore"
    sourcePatches := ← fieldOr? [] sourcePatches? fields "source_patches" }

end Config

/-- A section that says nothing. -/
def ClientSection.empty : ClientSection :=
  ⟨none, [], none, [], []⟩

namespace ConfigFile

open Config Yaml

/-- A file that says nothing. -/
def empty : ConfigFile :=
  ⟨none, none, none, none, none, none, none, none, none, .empty, .empty, .empty⟩

/-- The name of the configuration file that is used unless another is asked for. -/
def defaultName : String := "openapi-client-generator.yaml"

/-- The keys of a configuration file. -/
def keys : List String :=
  ["apidoc_dir", "spec_file", "output_root", "output_dir_template", "git_user",
    "git_repo_template", "git_host", "generator_bin", "license_template", "php_args", "js_args",
    "nodejs_args"]

/-- The contents that a node stands for. -/
def ofNode? (n : Node) : Option ConfigFile := do
  let fields ← fieldsAmong? keys n
  return {
    apidocDir := ← pathField? fields "apidoc_dir"
    specFile := ← textField? fields "spec_file"
    outputRoot := ← pathField? fields "output_root"
    outputDirTemplate := ← pathField? fields "output_dir_template"
    gitUser := ← textField? fields "git_user"
    gitRepoTemplate := ← textField? fields "git_repo_template"
    gitHost := ← textField? fields "git_host"
    generatorBin := ← textField? fields "generator_bin"
    licenseTemplate := ← pathField? fields "license_template"
    phpArgs := ← fieldOr? .empty section? fields "php_args"
    jsArgs := ← fieldOr? .empty section? fields "js_args"
    nodejsArgs := ← fieldOr? .empty section? fields "nodejs_args" }

/-- The contents of a text; a blank one says nothing. -/
def parse? (text : String) : Option ConfigFile :=
  if isBlankText text then some empty
  else (Node.parse? text).bind fun n => if isAbsent n then some empty else ofNode? n

/-- The section of a client. -/
def sectionOf (file : ConfigFile) : Client → ClientSection
  | .php => file.phpArgs
  | .js => file.jsArgs
  | .nodejs => file.nodejsArgs

/-- Reads the file at a path; relative paths in it are taken from its directory. -/
def read (w : World) (p : Path) : Except Failure (ConfigFile × Path) :=
  match w.readText p with
  | .error f => .error (.file p f)
  | .ok text =>
    match parse? text with
    | none => .error (.configuration (.unreadable p))
    | some file => .ok (file, p.directory.absolutize w.cwdPath)

/-- Loads the configuration. A file that is asked for has to be there; otherwise the one of the
default name in the working directory is read, if it is there. -/
def load (w : World) (asked : Option Path) : Except Failure (ConfigFile × Path) :=
  match asked with
  | some p => if w.isFile p then read w p else .error (.configuration (.missingFile p))
  | none =>
    let p := w.cwdPath.join ⟨defaultName⟩
    if w.isFile p then read w p else .ok (empty, w.cwdPath)

end ConfigFile
end ClientRegen
