import ClientRegen.FileTree.Action
import ClientRegen.Generator.Arguments
import ClientRegen.Generator.Command
import ClientRegen.Text.Utf8
/-!
# Launching a generator

A launcher runs a program to its end. It may change the file tree in any way, and neither the
working directory nor the environment of the run; what follows is the same for all launchers.

* A program that ends unsuccessfully leaves the tree as it made it, and the end of what it wrote
  about its failure goes into the report.
-/

namespace ClientRegen

/-- What a program that ended leaves: its output, and how it ended. -/
structure Finished where
  /-- What it wrote to standard output. -/
  stdout : List UInt8
  /-- What it wrote to standard error. -/
  stderr : List UInt8
  /-- How it ended. -/
  status : ExitStatus

/-- A way to run a program with arguments to its end: what it leaves, and the file tree after it. -/
abbrev Launcher := Path → List String → World → Except FileFault (Finished × Entry)

/-- What is reported of a generator that did its work. -/
structure GeneratorOutput where
  /-- The line that launches it. -/
  commandLine : String
  /-- What it wrote to standard output. -/
  stdout : String
  /-- What it wrote to standard error. -/
  stderr : String
  /-- The code that it ended with, unless a signal ended it. -/
  exitCode : Option Nat
deriving DecidableEq, Repr, Inhabited

/-- Whether a program ended successfully. -/
def ExitStatus.isSuccess (s : ExitStatus) : Bool :=
  s == .code 0

/-- The code that a program ended with. -/
def ExitStatus.code? : ExitStatus → Option Nat
  | code n => some n
  | signal _ => none

namespace Generator

/-- How many lines of what a program wrote about its failure are kept. -/
def tailLength : Nat := 20

/-- The last lines of a text; a text of no more lines loses only the blanks at its end. -/
def tailLines (text : String) (count : Nat) : String :=
  let lines := Text.lines text.toList
  if lines.length ≤ count then trimTextEnd text
  else String.intercalate "\n" ((lines.drop (lines.length - count)).map String.ofList)

/-- The text of output; bytes that are not UTF-8 show as replacement characters. -/
def outputText (bytes : List UInt8) : String :=
  String.ofList (Text.Utf8.decode bytes)

/-- What is reported of a program that ended. -/
def outcome (line : String) (f : Finished) : Except Failure GeneratorOutput :=
  let stderr := outputText f.stderr
  if f.status.isSuccess then .ok ⟨line, outputText f.stdout, stderr, f.status.code?⟩
  else .error (.generator (.failed line f.status) (tailLines stderr tailLength))

/-- Runs a command with the arguments of a run. -/
def invoke (launch : Launcher) (command : GeneratorCommand) (s : Settings) :
    Action GeneratorOutput := fun w =>
  match launch command.program (command.leadingArgs ++ s.arguments) w with
  | .error f => .error (.generator (.unlaunched command.program f) "") w
  | .ok (finished, root) =>
    match outcome (command.line s.arguments) finished with
    | .ok output => .ok output (w.withRoot root)
    | .error f => .error f (w.withRoot root)

end Generator
end ClientRegen
