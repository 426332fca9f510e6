import ClientRegen.Config.File
/-!
# Settings of a run

Everything that one run needs, made from defaults, the configuration file and what was given on the
command line. Paths of the file are taken from the file's directory.

* `resolve` answers only settings that `validate` accepts.
* `validate` refuses an output directory that is not strictly inside the output root, because the
  output directory is cleared.
-/

namespace ClientRegen

/-- What is given on the command line; it wins over the file. -/
structure Overrides where
  /-- The directory of the specification. -/
  apidocDir : Option Path
  /-- The output directory. -/
  outputDir : Option Path
  /-- The generator's command. -/
  generatorBin : Option String
deriving Inhabited

/-- What a run needs. -/
structure Settings where
  /-- The kind of package. -/
  client : Client
  /-- The root document of the specification. -/
  specPath : Path
  /-- The directory of the package. -/
  outputDir : Path
  /-- The directory inside which the package has to lie. -/
  outputRoot : Path
  /-- The name of the generator. -/
  generatorName : String
  /-- The generator's command, if it is configured. -/
  generatorBin : Option String
  /-- The directory of the generator's templates. -/
  templateDir : Option Path
  /-- Parameters of the generator, in order. -/
  params : List (String × String)
  /-- The owner of the package's repository. -/
  gitUser : Option String
  /-- The name of the package's repository. -/
  gitRepo : Option String
  /-- The host of the package's repository. -/
  gitHost : Option String
  /-- Paths in the output directory that are kept when it is cleared, in order. -/
  ignored : List String
  /-- The licence that is put into a package without one. -/
  licenseTemplate : Option Path
  /-- Replacements in the generated code. -/
  sourcePatches : List SourcePatch
deriving Inhabited

namespace Settings

/-- The directory of the specification. -/
def specDir (s : Settings) : Path :=
  s.specPath.directory

/-- Refuses settings without a generator, and an output directory that is not strictly inside the
output root. -/
def validate (s : Settings) : Except Failure Unit :=
  let output := s.outputDir.normalize
  let root := s.outputRoot.normalize
  if isBlankText s.generatorName then .error (.configuration .emptyGenerator)
  else if !output.isAbsolute then .error (.configuration (.relativeOutput s.outputDir))
  else if output.components = root.components ∨ !output.startsWith root then
    .error (.configuration (.outsideRoot output root))
  else .ok ()

end Settings

namespace Config

/-- The directory of the specification, unless it is configured. -/
def defaultApidocDir : Path := ⟨"api-docs"⟩

/-- The root document of the specification, unless it is configured. -/
def defaultSpecFile : String := "index.yaml"

/-- The template of the output directory, unless it is configured. -/
def defaultOutputTemplate : Path := ⟨"../openapi-client"⟩

/-- A path whose last name has an ending added after a hyphen. -/
def withEnding (p : Path) (ending : String) : Except Failure Path :=
  match p.fileName? with
  | some name => .ok (p.withFileName (name ++ "-" ++ ending))
  | none => .error (.configuration (.noFinalName p))

/-- The text of a parameter; null is the empty text. -/
def paramText (name : String) : Value → Except Failure String
  | .null => .ok ""
  | v =>
    match v.scalarText? with
    | some text => .ok text
    | none => .error (.configuration (.compositeParameter name))

/-- The texts of parameters, in order. -/
def paramTexts (params : List (String × Value)) : Except Failure (List (String × String)) :=
  params.mapM fun p => (paramText p.1 p.2).map (p.1, ·)

/-- A text put into a list that is in order and holds no text twice. -/
def insertText (text : String) : List String → List String
  | [] => [text]
  | t :: ts =>
    if text = t then t :: ts
    else if text < t then text :: t :: ts
    else t :: insertText text ts

/-- Texts in order, each once. -/
def textSet (texts : List String) : List String :=
  texts.foldl (fun set t => insertText t set) []

/-- The paths that are kept, as they are compared. -/
def ignoredPaths (files : List String) : List String :=
  textSet ((files.map plainRelative).filter (· ≠ ""))

end Config

namespace ConfigFile

open Config

/-- The template of the output directory. -/
def outputTemplate (file : ConfigFile) : Path :=
  file.outputDirTemplate.getD defaultOutputTemplate

/-- The root document of the specification. -/
def specPath (file : ConfigFile) (base : Path) (apidocDir : Option Path) : Path :=
  (((apidocDir.or file.apidocDir).getD defaultApidocDir).absolutize base).join
    ⟨(meaningful? file.specFile).getD defaultSpecFile⟩

/-- The output directory: one that is given is taken from the working directory, the template from
the file's. -/
def outputDir (file : ConfigFile) (cwd base : Path) (client : Client) :
    Option Path → Except Failure Path
  | some given => .ok (given.absolutize cwd)
  | none => (withEnding file.outputTemplate client.suffix).map (·.absolutize base)

/-- The output root: unless it is configured, the directory that the template lies in. An output
directory given on the command line does not move it. -/
def rootDir (file : ConfigFile) (base : Path) : Except Failure Path :=
  match file.outputRoot with
  | some root => .ok (root.absolutize base)
  | none =>
    match (file.outputTemplate.absolutize base).parent? with
    | some parent => .ok parent
    | none => .error (.configuration .noParent)

/-- The settings for a client. -/
def resolve (file : ConfigFile) (w : World) (base : Path) (client : Client) (given : Overrides) :
    Except Failure Settings := do
  let part := file.sectionOf client
  let specPath := file.specPath base given.apidocDir
  if !w.isFile specPath then
    throw (.configuration (.missingSpecification specPath))
  let outputDir ← file.outputDir w.cwdPath base client given.outputDir
  let outputRoot ← file.rootDir base
  let params ← paramTexts part.params
  let settings : Settings := {
    client, specPath, outputDir, outputRoot, params
    generatorName := (meaningful? part.generator).getD client.defaultGenerator
    generatorBin := given.generatorBin.or file.generatorBin
    templateDir := part.templateDir.map (·.absolutize base)
    gitUser := file.gitUser
    gitRepo := (meaningful? file.gitRepoTemplate).map (· ++ "-" ++ client.suffix)
    gitHost := file.gitHost
    ignored := ignoredPaths part.filesForIgnore
    licenseTemplate := file.licenseTemplate.map (·.absolutize base)
    sourcePatches := part.sourcePatches }
  settings.validate
  return settings

end ConfigFile
end ClientRegen
