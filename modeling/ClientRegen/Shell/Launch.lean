import ClientRegen.Shell.Builtin
import ClientRegen.Shell.Utility
/-!
# Launching scripts

A launcher for generators that are shell scripts. The first line of a script names its interpreter;
a program without such a line, or with an interpreter that is not there, cannot be launched.

* `execute` runs a command within a bound on how deep its steps lie in one another; a script that
  would go on beyond the bound is killed.
-/

namespace ClientRegen.Shell

namespace Process

/-- Runs the command of a name with arguments: one of the shell's own, or a utility. -/
def perform (p : Process) (name : String) (args : List String) : Process :=
  match (p.builtin? name args).or (p.utility? name args) with
  | some p => p
  | none => p.complainAtLine 127 (name ++ ": not found")

/-- Makes assignments. -/
def assignAll (p : Process) (assignments : List (String × Template)) : Process :=
  assignments.foldl (fun p a => p.assign a.1 (p.joined a.2)) p

/-- Runs a simple command. Assignments without a command stay; before a command they hold for it
alone. -/
def simple (p : Process) (c : SimpleCommand) : Process :=
  let p := { p with line := c.line }
  match c.words.flatMap p.fields with
  | [] => p.withRedirects c.redirects fun p => (p.assignAll c.assignments).withStatus 0
  | name :: args =>
    let after := p.withRedirects c.redirects fun p => (p.assignAll c.assignments).perform name args
    if c.assignments.isEmpty then after else { after with bindings := p.bindings }

/-- Runs a body for each of some words, unless the script has ended. -/
def forWords (name : String) (body : Process → Process) (p : Process) (words : List String) :
    Process :=
  words.foldl (fun p word => if p.ended.isSome then p else body (p.assign name word)) p

/-- Runs a command. `fuel` bounds how deep steps lie in one another. -/
def execute : Nat → Command → Process → Process
  | 0, _, p => p.finish (.signal 9)
  | fuel + 1, c, p =>
    if p.ended.isSome then p
    else
      match c with
      | .nothing => p
      | .simple c => p.simple c
      | .sequence first second => execute fuel second (execute fuel first p)
      | .conditional successfully first second =>
        let p := execute fuel first p
        if (p.status == 0) = successfully then execute fuel second p else p
      | .negation body =>
        let p := execute fuel body p
        p.withStatus (if p.status = 0 then 1 else 0)
      | .loop successfully condition body =>
        let tested := execute fuel condition p
        if tested.ended.isSome then tested
        else if (tested.status == 0) = successfully then
          execute fuel (.loop successfully condition body) (execute fuel body tested)
        else tested.withStatus 0
      | .each name words body =>
        let words := match words with
          | some ts => ts.flatMap p.fields
          | none => p.args
        forWords name (execute fuel body) (p.withStatus 0) words
      | .choice condition yes no =>
        let tested := execute fuel condition p
        if tested.status = 0 then execute fuel yes tested
        else execute fuel no (tested.withStatus 0)
      | .cases subject branches =>
        let text := p.joined subject
        match branches.find? fun b => b.1.any (p.matchesPattern · text) with
        | some (_, body) => execute fuel body (p.withStatus 0)
        | none => p.withStatus 0
      | .redirected body redirects => p.withRedirects redirects (execute fuel body)

/-- How deep the steps of a script may lie in one another. -/
def stepLimit : Nat := 1000000

/-- A script that is about to run. -/
def begin (w : World) (script : String) (args : List String) : Process where
  world := w
  script := script
  args := args
  bindings := ("PWD", w.cwdPath.text) :: w.env.filter (·.1 ≠ "PWD")
  stdout := []
  stderr := []
  one := .stdout
  two := .stderr
  input := []
  line := 0
  status := 0
  ended := none

/-- What a script that ran leaves. -/
def result (p : Process) : Finished × Entry :=
  (⟨p.stdout, p.stderr, p.ended.getD (.code p.status)⟩, p.world.root)

/-- Runs the text of a script. -/
def runText (p : Process) (text : List Char) : Process :=
  match script? text with
  | some c => execute stepLimit c p
  | none => p.complainAtLine 2 "Syntax error"

end Process

/-- The paths of the shell. -/
def interpreters : List String :=
  ["/bin/sh", "/usr/bin/sh", "/bin/dash", "/usr/bin/dash"]

/-- The interpreter that the first line of a program names, if the program starts as scripts do. -/
def interpreter? : List Char → Option String
  | '#' :: '!' :: cs =>
    let line := cs.takeWhile (· ≠ '\n')
    let isGap (c : Char) : Bool := c == ' ' || c == '\t'
    let name := (line.dropWhile isGap).takeWhile (!isGap ·)
    if name = [] then none else some (String.ofList name)
  | _ => none

/-- Runs a program that is a shell script. -/
def launch : Launcher := fun program args w =>
  if args.any (·.toList.any fun c => c.toNat == 0) then .error .nulInArgument
  else
    match w.readBytes program with
    | .error f => .error f
    | .ok bytes =>
      let text := Text.Utf8.decode bytes.toList
      match interpreter? text with
      | none => .error .notRunnable
      | some name =>
        if interpreters.contains name then
          .ok ((Process.begin w program.text args).runText text).result
        else if w.exists? ⟨name⟩ then .error .permissionDenied
        else .error .notFound

end ClientRegen.Shell
