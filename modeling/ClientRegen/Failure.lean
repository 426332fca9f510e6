import ClientRegen.EnumSource.Fault
import ClientRegen.FileTree.Fault
import ClientRegen.Path
import ClientRegen.Spec.Schema
/-!
# Failures of a run

Why a run stops. A failure carries its cause and the place it concerns; its text is made from them
in one place.
-/

namespace ClientRegen

/-- What is wrong with a configuration. -/
inductive ConfigFault where
  /-- The file that was asked for is not there. -/
  | missingFile (path : Path)
  /-- The file is no configuration. -/
  | unreadable (path : Path)
  /-- The specification is not there. -/
  | missingSpecification (path : Path)
  /-- The template of the output directory has no last name. -/
  | noFinalName (path : Path)
  /-- The template of the output directory lies in no directory. -/
  | noParent
  /-- A parameter is a list or an object. -/
  | compositeParameter (name : String)
  /-- No generator is named. -/
  | emptyGenerator
  /-- The output directory is relative. -/
  | relativeOutput (path : Path)
  /-- The output directory does not lie inside the output root. -/
  | outsideRoot (output root : Path)
  /-- The output path leads to something that is no directory. -/
  | outputNotDirectory (path : Path)
  /-- A source patch names no file inside the output directory. -/
  | escapingPatch (file : String)
  /-- A source patch searches for nothing. -/
  | emptySearch (file : String)
deriving DecidableEq, Repr

/-- The text of a fault. -/
def ConfigFault.message : ConfigFault → String
  | missingFile path => "config file does not exist: " ++ path.text
  | unreadable path => path.text ++ ": <parser>"
  | missingSpecification path => "specification document not found: " ++ path.text
  | noFinalName path => "output_dir_template has no final component: " ++ path.text
  | noParent => "output_dir_template has no parent"
  | compositeParameter name => "generator parameter " ++ name ++ " must be a scalar"
  | emptyGenerator => "generator name is empty"
  | relativeOutput path => "output directory must be absolute: " ++ path.text
  | outsideRoot output root =>
    "output directory " ++ output.text ++ " is not inside output root " ++ root.text
  | outputNotDirectory path => "output path is not a directory: " ++ path.text
  | escapingPatch file =>
    "source patch file must be a relative path inside the output directory: " ++ file
  | emptySearch file => "source patch for " ++ file ++ " has an empty search string"

/-- How a process ends. -/
inductive ExitStatus where
  /-- It ends by itself, with a code. -/
  | code (value : Nat)
  /-- A signal ends it. -/
  | signal (number : Nat)
deriving DecidableEq, Repr

/-- The names of the signals. -/
def signalNames : List (Nat × String) := [
  (1, "SIGHUP"), (2, "SIGINT"), (3, "SIGQUIT"), (4, "SIGILL"), (5, "SIGTRAP"), (6, "SIGABRT"),
  (7, "SIGBUS"), (8, "SIGFPE"), (9, "SIGKILL"), (10, "SIGUSR1"), (11, "SIGSEGV"), (12, "SIGUSR2"),
  (13, "SIGPIPE"), (14, "SIGALRM"), (15, "SIGTERM"), (16, "SIGSTKFLT"), (17, "SIGCHLD"),
  (18, "SIGCONT"), (19, "SIGSTOP"), (20, "SIGTSTP"), (21, "SIGTTIN"), (22, "SIGTTOU"),
  (23, "SIGURG"), (24, "SIGXCPU"), (25, "SIGXFSZ"), (26, "SIGVTALRM"), (27, "SIGPROF"),
  (28, "SIGWINCH"), (29, "SIGIO"), (30, "SIGPWR"), (31, "SIGSYS")]

/-- The text of an exit status. -/
def ExitStatus.message : ExitStatus → String
  | code n => "exit status: " ++ toString n
  | signal n =>
    "signal: " ++ toString n ++
      match signalNames.lookup n with
      | some name => " (" ++ name ++ ")"
      | none => ""

/-- Why the generator did not do its work. -/
inductive GeneratorFault where
  /-- The program is not there. -/
  | missingProgram (program : Path)
  /-- The program cannot be launched. -/
  | unlaunched (program : Path) (cause : FileFault)
  /-- The program ended unsuccessfully. -/
  | failed (commandLine : String) (status : ExitStatus)
deriving DecidableEq, Repr

/-- The variable of the environment that may hold the generator's command. -/
def generatorVariable : String := "OPENAPI_GENERATOR_BIN"

/-- The text of a fault. -/
def GeneratorFault.message : GeneratorFault → String
  | missingProgram program =>
    "generator " ++ program.text ++ " not found (cannot find binary path); set generator_bin or " ++
      generatorVariable
  | unlaunched program cause => "failed to spawn " ++ program.text ++ ": " ++ cause.message
  | failed commandLine status => commandLine ++ " exited with " ++ status.message

/-- Why generated code and what is known about it do not match. -/
inductive Mismatch where
  /-- The enum source is refused. -/
  | source (fault : SourceFault)
  /-- The schema is no enum. -/
  | notEnum (fault : SchemaFault)
  /-- The specification has no schema of the type's name. -/
  | noSchema (typeName : String) (root : Path)
  /-- The text that a source patch searches for is not there. -/
  | searchMissing (search : String)
deriving DecidableEq, Repr

/-- The text of a mismatch. -/
def Mismatch.message : Mismatch → String
  | source fault => fault.message
  | notEnum fault => fault.message
  | noSchema typeName root => "no schema named " ++ typeName ++ " in " ++ root.text
  | searchMissing search => "search text not found: " ++ Text.quoted search

/-- How many references are followed from one value. -/
def referenceLimit : Nat := 32

/-- What is wrong with a specification. -/
inductive SpecFault where
  /-- A document cannot be read as what its name says it is. -/
  | malformed
  /-- A reference names nothing. -/
  | unresolved (reference : String)
  /-- References lead on and on. -/
  | tooDeep
deriving DecidableEq, Repr

/-- The text of a fault. -/
def SpecFault.message : SpecFault → String
  | malformed => "<parser>"
  | unresolved reference => "unresolved reference " ++ reference
  | tooDeep => "reference chain deeper than " ++ toString referenceLimit

/-- Why an operation on the file system fails, and whether a walk through a directory met it. -/
inductive FilesystemFault where
  /-- The operation on the path itself fails. -/
  | plain (fault : FileFault)
  /-- Walking through the path fails. -/
  | walking (path : Path) (fault : FileFault)
deriving DecidableEq, Repr

/-- The text of a fault. -/
def FilesystemFault.message : FilesystemFault → String
  | plain fault => fault.message
  | walking path fault => "IO error for operation on " ++ path.text ++ ": " ++ fault.message

/-- Why a run stops. -/
inductive Failure where
  /-- The configuration is wrong. -/
  | configuration (fault : ConfigFault)
  /-- The file system refuses an operation. -/
  | filesystem (path : Path) (fault : FilesystemFault)
  /-- The generator did not do its work; with the end of what it wrote about that. -/
  | generator (fault : GeneratorFault) (stderr : String)
  /-- Generated code does not match. -/
  | mismatch (path : Path) (cause : Mismatch)
  /-- The specification is wrong. -/
  | specification (path : Path) (fault : SpecFault)
deriving DecidableEq, Repr

namespace Failure

/-- A failed operation on a path. -/
def file (path : Path) (fault : FileFault) : Failure :=
  filesystem path (.plain fault)

/-- What a generator wrote about its failure, on lines of its own. -/
def stderrText (stderr : String) : String :=
  if isBlankText stderr then "" else "\n" ++ trimTextEnd stderr

/-- The text of a failure. -/
def message : Failure → String
  | configuration fault => "configuration error: " ++ fault.message
  | filesystem path fault => "filesystem error at " ++ path.text ++ ": " ++ fault.message
  | generator fault stderr => "generator failed: " ++ fault.message ++ stderrText stderr
  | mismatch path cause => "enum patch failed for " ++ path.text ++ ": " ++ cause.message
  | specification path fault =>
    "invalid specification document " ++ path.text ++ ": " ++ fault.message

/-- What lies beneath a failure, each cause in a text of its own, the nearest first. -/
def causes : Failure → List String
  | filesystem _ (.plain fault) => [fault.message]
  | filesystem _ (.walking path fault) =>
    [FilesystemFault.message (.walking path fault), fault.message]
  | _ => []

end Failure
end ClientRegen
