import ClientRegen.Failure
import ClientRegen.FileTree.World
import ClientRegen.Shell.Word
/-!
# The generator's command

The program that generates code and the words that go before its arguments, found from what is
configured.

* A command that names a file as a whole is that file, even if blanks stand in its name.
* `findProgram?` looks for a program the way a shell does: a plain name in each directory of the
  search path, any other path from the working directory.
* A directory of the search path is taken as it is written. The program's lookup puts the home
  directory for a tilde at its start; here the tilde is a name like any other.
-/

namespace ClientRegen

namespace World

/-- The text of a step of a path. -/
def stepText : Component → String
  | .root => "/"
  | .current => "."
  | .parent => ".."
  | .name n => n

/-- A path taken from the working directory step by step, without single dots at its start. -/
def fromCwd (w : World) (p : Path) : Path :=
  if p.isAbsolute then p
  else (p.components.dropWhile (· == .current)).foldl (fun q c => q.join ⟨stepText c⟩) w.cwdPath

/-- Whether a path leads to a program. -/
def isProgram (w : World) (p : Path) : Bool :=
  match w.entry? p with
  | .ok e => e.isProgram
  | .error _ => false

/-- The directories in which programs are looked for. -/
def searchPath (w : World) : List Path :=
  match w.lookUp? "PATH" with
  | some text => (Text.splitAt ':' text.toList).map fun d => ⟨String.ofList d⟩
  | none => []

/-- Where a program is. -/
def findProgram? (w : World) (p : Path) : Option Path :=
  if 1 < p.components.length then
    let q := w.fromCwd p
    if w.isProgram q then some q else none
  else (w.searchPath.map (·.join p)).find? w.isProgram

end World

/-- A program and the words that go before its arguments. -/
structure GeneratorCommand where
  /-- The program. -/
  program : Path
  /-- The words. -/
  leadingArgs : List String
deriving DecidableEq, Repr, Inhabited

namespace GeneratorCommand

/-- The program that is looked for if no command is configured. -/
def default : GeneratorCommand :=
  ⟨⟨"openapi-generator-cli"⟩, []⟩

/-- The command that a text gives: the file that it names as a whole, or else its words. -/
def parse? (w : World) (text : String) : Option GeneratorCommand :=
  let whole := trimText text
  if whole ≠ "" ∧ w.isFile ⟨whole⟩ then some ⟨⟨whole⟩, []⟩
  else
    match Text.words text.toList with
    | [] => none
    | program :: args => some ⟨⟨String.ofList program⟩, args.map String.ofList⟩

/-- The command that is configured: explicitly, in the environment, or not at all. -/
def configured (w : World) (explicit : Option String) : GeneratorCommand :=
  ((explicit.bind (parse? w)).or ((w.lookUp? generatorVariable).bind (parse? w))).getD default

/-- The configured command, with the place where its program was found. -/
def resolve (w : World) (explicit : Option String) : Except Failure GeneratorCommand :=
  let command := configured w explicit
  match w.findProgram? command.program with
  | some program => .ok { command with program }
  | none => .error (.generator (.missingProgram command.program) "")

/-- The words that launch the command with some arguments. -/
def words (command : GeneratorCommand) (args : List String) : List String :=
  command.program.text :: command.leadingArgs ++ args

/-- The line that launches the command with some arguments. -/
def line (command : GeneratorCommand) (args : List String) : String :=
  Shell.commandLine (command.words args)

end GeneratorCommand
end ClientRegen
