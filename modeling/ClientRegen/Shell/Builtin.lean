import ClientRegen.Shell.Printed
import ClientRegen.Shell.Process
/-!
# Commands of the shell itself

The commands that work on the shell's own state, and the conditions that scripts test.

* Each answers a process with the status that the command ends with.
-/

namespace ClientRegen.Shell.Process

/-- A status from an answer. -/
def answer (p : Process) (b : Bool) : Process :=
  p.withStatus (if b then 0 else 1)

/-- Whether a path names a link. -/
def isLink (p : Process) (path : String) : Bool :=
  match p.world.find ⟨path⟩ false with
  | .ok (.link _) => true
  | _ => false

/-- Whether a test of one operand holds. -/
def test1 (p : Process) (op operand : String) : Option Bool :=
  let path : Path := ⟨operand⟩
  match op with
  | "-n" => some (operand ≠ "")
  | "-z" => some (operand == "")
  | "-d" => some (p.world.isDir path)
  | "-f" => some (p.world.isFile path)
  | "-e" => some (p.world.exists? path)
  | "-r" => some (p.world.exists? path)
  | "-w" => some (p.world.exists? path)
  | "-x" =>
    some (match p.world.entry? path with
      | .ok e => e.isDir || e.isProgram
      | .error _ => false)
  | "-s" =>
    some (match p.world.entry? path with
      | .ok (.file content _) => content.size != 0
      | .ok _ => true
      | .error _ => false)
  | "-L" => some (p.isLink operand)
  | "-h" => some (p.isLink operand)
  | _ => none

/-- Whether a test of two operands holds; numbers have to be numbers. -/
def test2 (left op right : String) : Option Bool :=
  let compare (holds : Int → Int → Bool) : Option Bool := do
    return holds (← left.toInt?) (← right.toInt?)
  match op with
  | "=" => some (left == right)
  | "==" => some (left == right)
  | "!=" => some (left != right)
  | "-eq" => compare (· == ·)
  | "-ne" => compare (· != ·)
  | "-lt" => compare (· < ·)
  | "-le" => compare (· ≤ ·)
  | "-gt" => compare (· > ·)
  | "-ge" => compare (· ≥ ·)
  | _ => none

/-- Whether a condition holds, by the number of its words. -/
def condition? (p : Process) : List String → Option Bool
  | [] => some false
  | [a] => some (a ≠ "")
  | ["!", a] => some (a == "")
  | [op, a] => p.test1 op a
  | ["!", op, a] => (p.test1 op a).map not
  | [a, op, b] => test2 a op b
  | ["!", a, op, b] => (test2 a op b).map not
  | _ => none

/-- Ends with the answer to a condition. -/
def test (p : Process) (words : List String) : Process :=
  match p.condition? words with
  | some b => p.answer b
  | none => p.complainAtLine 2 "[: unexpected operator"

/-- The number of a signal from its number or name. -/
def signalNumber? (text : String) : Option Nat :=
  match text.toNat? with
  | some n => some n
  | none => (signalNames.find? fun s => s.2 == text || s.2 == "SIG" ++ text).map (·.1)

/-- Sends a signal; the script itself is the only process that there is. -/
def kill (p : Process) : List String → Process
  | ["-s", name, target] => signal name target
  | [option, target] => signal (String.ofList (option.toList.drop 1)) target
  | [target] => signal "TERM" target
  | _ => p.complainAtLine 2 "kill: bad arguments"
where
  /-- Sends a signal by its number or name. -/
  signal (name target : String) : Process :=
    match signalNumber? name with
    | none => p.complainAtLine 2 ("kill: invalid signal number or name: " ++ name)
    | some n =>
      if target ≠ number then p.complain 1 (p.script ++ ": kill: No such process")
      else if n = 0 then p.withStatus 0
      else p.finish (.signal n)

/-- Drops arguments from the front; there have to be as many. -/
def shift (p : Process) (count : Nat) : Process :=
  if count ≤ p.args.length then { p with args := p.args.drop count, status := 0 }
  else (p.complainAtLine 2 "shift: can't shift that many").finish (.code 2)

/-- Changes the working directory. -/
def changeDirectory (p : Process) (path : String) : Process :=
  match p.world.directory? ⟨path⟩ with
  | some (location, _) =>
    let p := { p with world := { p.world with cwd := location } }
    (p.assign "PWD" p.world.cwdPath.text).withStatus 0
  | none => p.complainAtLine 2 ("cd: can't cd to " ++ path)

/-- Assigns what words of the form `name=value` say. -/
def assignWords (p : Process) (words : List String) : Process :=
  words.foldl (fun p word =>
    let name := word.toList.takeWhile (· ≠ '=')
    match word.toList.drop name.length with
    | _ :: value => p.assign (String.ofList name) (String.ofList value)
    | [] => p) p

/-- What a command of the shell itself does. -/
def builtin? (p : Process) (name : String) (args : List String) : Option Process :=
  match name with
  | ":" => some (p.withStatus 0)
  | "true" => some (p.withStatus 0)
  | "false" => some (p.withStatus 1)
  | "echo" => some ((p.write (echoed args)).withStatus 0)
  | "printf" =>
    match args with
    | [] => some (p.complainAtLine 2 "printf: usage: printf format [arg ...]")
    | "--" :: format :: args => some ((p.write (printed format args)).withStatus 0)
    | format :: args => some ((p.write (printed format args)).withStatus 0)
  | "test" => some (p.test args)
  | "[" =>
    if args.getLast? = some "]" then some (p.test args.dropLast)
    else some (p.complainAtLine 2 "[: missing ]")
  | "shift" => some (p.shift ((args.head?.bind String.toNat?).getD 1))
  | "exit" => some (p.finish (.code (((args.head?.bind String.toNat?).getD p.status) % 256)))
  | "kill" => some (p.kill args)
  | "cd" => some (p.changeDirectory ((args.head?).getD (p.text "HOME")))
  | "pwd" => some ((p.say (p.world.cwdPath.text ++ "\n")).withStatus 0)
  | "export" => some ((p.assignWords args).withStatus 0)
  | "set" => some (p.withStatus 0)
  | "umask" => some (p.withStatus 0)
  | "unset" => some { p with bindings := p.bindings.filter (!args.contains ·.1), status := 0 }
  | _ => none

end ClientRegen.Shell.Process
