import ClientRegen.Clear
import ClientRegen.EnumFiles
import ClientRegen.Generator.Launch
import ClientRegen.License
/-!
# A run

The output directory is cleared, the generator run, its code patched and a licence seeded, strictly
in this order. A step that fails ends the run, and nothing is taken back.

* The generator is looked for before anything is removed.
* `plan` answers the line that launches the generator in a run, and changes nothing.
-/

namespace ClientRegen

/-- What a run did. -/
structure Report where
  /-- The kind of package. -/
  client : Client
  /-- The directory of the package. -/
  outputDir : Path
  /-- What was removed and what was kept. -/
  cleared : ClearReport
  /-- What the generator did. -/
  generator : GeneratorOutput
  /-- The files that were patched. -/
  patched : List Path
  /-- Whether a licence was put in. -/
  licenseSeeded : Bool

namespace Settings

/-- Patches the generated code as its client asks: enums are labelled in NodeJS packages, source
patches are applied in the others. -/
def patchOutput (s : Settings) : Action (List Path) :=
  match s.client with
  | .nodejs => patchEnums s.outputDir s.specPath
  | .php => applyPatches s.outputDir s.sourcePatches
  | .js => applyPatches s.outputDir s.sourcePatches

/-- The command that settings lead to, once they are accepted. -/
def command (s : Settings) (w : World) : Except Failure GeneratorCommand := do
  s.validate
  GeneratorCommand.resolve w s.generatorBin

/-- Clears the output directory, or makes it. -/
def prepareOutput (s : Settings) : Action ClearReport := do
  let cleared ← Action.change (clear · s.outputDir s.ignored)
  Action.makeDirAll s.outputDir
  return cleared

/-- A run with a launcher. -/
def run (launch : Launcher) (s : Settings) : Action Report := do
  let command ← Action.look s.command
  let cleared ← s.prepareOutput
  let generator ← Generator.invoke launch command s
  let patched ← s.patchOutput
  let licenseSeeded ← seedLicense s.outputDir s.licenseTemplate
  return {
    client := s.client, outputDir := s.outputDir, cleared, generator, patched, licenseSeeded }

/-- The line that launches the generator in a run. -/
def plan (s : Settings) (w : World) : Except Failure String :=
  (s.command w).map (·.line s.arguments)

end Settings
end ClientRegen
