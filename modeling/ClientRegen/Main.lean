import ClientRegen.CommandLine.Program
import ClientRegen.FileTree.Change
import ClientRegen.Shell.Launch
/-!
# The program on the command line

Reads the directory around the working directory into a world, does there what the command line
asks for, and makes the same changes to the directory. Everything else is decided elsewhere.
-/

namespace ClientRegen.Main

/-- The variables of the environment that matter. -/
def variableNames : List String :=
  ["PATH", "HOME", generatorVariable, CommandLine.configVariable]

/-- Whether a file may be run: it starts as scripts do. -/
def startsAsScript (content : ByteArray) : Bool :=
  content.data.toList.take 2 == [35, 33]

/-- A file of the operating system. -/
def fileAt (location : Location) : String :=
  "/" ++ String.intercalate "/" location

/-- Reads an entry and everything below it. -/
partial def readEntry (location : Location) : IO Entry := do
  let place := System.mkFilePath [fileAt location]
  match (← place.symlinkMetadata).type with
  | .dir =>
    let names := (← place.readDir).toList.map (·.fileName)
    let entries ← (Config.textSet names).mapM fun name => do
      return (name, ← readEntry (location ++ [name]))
    return .dir entries
  | .symlink => return .link (← IO.FS.realPath place).toString
  | _ =>
    let content ← IO.FS.readBinFile place
    return .file content (startsAsScript content)

/-- Makes a change. -/
def apply : Change → IO Unit
  | .removeLeaf location => IO.FS.removeFile (fileAt location)
  | .removeDir location => IO.FS.removeDir (fileAt location)
  | .makeDir location => IO.FS.createDir (fileAt location)
  | .writeFile location content _ => IO.FS.writeBinFile (fileAt location) content
  | .makeLink location _ => throw (IO.userError (fileAt location ++ ": no links can be made here"))

/-- The names on a path of the operating system. -/
def locationOf (path : String) : Location :=
  ((Text.splitAt '/' path.toList).filter (· ≠ [])).map String.ofList

/-- The value of a variable, under its name. -/
def variableNamed (name : String) : IO (List (String × String)) := do
  return (← IO.getEnv name).toList.map (name, ·)

/-- Does what a command line asks for, in the directory around the working directory. -/
def execute (i : World → Except CommandLine.UsageFault CommandLine.Invocation) : IO UInt32 := do
  let cwd := locationOf (← IO.currentDir).toString
  let around := cwd.dropLast
  let env := (← variableNames.mapM variableNamed).flatten
  let empty : World := ⟨.dir [], cwd, env⟩
  match i empty with
  | .error f =>
    IO.eprintln f.name
    return if f = .displayHelp then 0 else 2
  | .ok invocation =>
    let before ← readEntry around
    let root := around.foldr (fun name e => Entry.dir [(name, e)]) before
    let (result, after) :=
      CommandLine.execute Shell.launch invocation { empty with root }
    (changes around ((after.root.at? around).getD before) before).forM apply
    match result with
    | .ok text =>
      IO.print text
      return 0
    | .error causes =>
      IO.eprintln (CommandLine.chainText causes)
      return 1

end ClientRegen.Main

/-- Runs the program. -/
def main (args : List String) : IO UInt32 :=
  ClientRegen.Main.execute (ClientRegen.CommandLine.parseIn · args)
