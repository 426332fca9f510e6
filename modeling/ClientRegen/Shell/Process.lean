import ClientRegen.FileTree.World
import ClientRegen.Generator.Launch
import ClientRegen.Shell.Script
/-!
# Shell processes

The state of a running script, what its words expand to, and where its output goes.

* A quoted piece of a word stays in one field; the value of a variable outside quotes is parted at
  blanks. Every argument of `"$@"` is a field of its own.
* Output goes to what a descriptor leads to: one of the two streams, or the end of a file.
-/

namespace ClientRegen.Shell

/-- Where output goes. -/
inductive Sink where
  /-- Standard output. -/
  | stdout
  /-- Standard error. -/
  | stderr
  /-- The end of the file at a location. -/
  | file (location : Location)

/-- The state of a running script. -/
structure Process where
  /-- The world around it. -/
  world : World
  /-- The path of the script. -/
  script : String
  /-- Its arguments. -/
  args : List String
  /-- Its variables and their values. -/
  bindings : List (String × String)
  /-- What was written to standard output. -/
  stdout : List UInt8
  /-- What was written to standard error. -/
  stderr : List UInt8
  /-- Where output to standard output goes. -/
  one : Sink
  /-- Where output to standard error goes. -/
  two : Sink
  /-- What can still be read from standard input. -/
  input : List UInt8
  /-- The line of the command that is running. -/
  line : Nat
  /-- How the latest command ended. -/
  status : Nat
  /-- How the script ended, once it has. -/
  ended : Option ExitStatus

namespace Process

/-- The number by which a script knows itself. -/
def number : String := "2"

/-- A process with another status. -/
def withStatus (p : Process) (status : Nat) : Process :=
  { p with status }

/-- A process that has ended. -/
def finish (p : Process) (status : ExitStatus) : Process :=
  { p with ended := some status }

/-- Output to what a descriptor leads to. -/
def emit (p : Process) (sink : Sink) (bytes : List UInt8) : Process :=
  match sink with
  | .stdout => { p with stdout := p.stdout ++ bytes }
  | .stderr => { p with stderr := p.stderr ++ bytes }
  | .file location =>
    { p with world := p.world.withRoot (p.world.root.update (fun e =>
        match e with
        | some (.file content x) => some (.file (content ++ ByteArray.mk bytes.toArray) x)
        | e => e) location) }

/-- The bytes of a text. -/
def bytesOf (text : String) : List UInt8 :=
  text.toUTF8.toList

/-- Output of bytes. -/
def write (p : Process) (bytes : List UInt8) : Process :=
  p.emit p.one bytes

/-- Output of a text. -/
def say (p : Process) (text : String) : Process :=
  p.write (bytesOf text)

/-- A complaint of a program, which fails with a status. -/
def complain (p : Process) (status : Nat) (text : String) : Process :=
  (p.emit p.two (bytesOf (text ++ "\n"))).withStatus status

/-- A complaint of the shell itself. -/
def complainAtLine (p : Process) (status : Nat) (text : String) : Process :=
  p.complain status (p.script ++ ": " ++ toString p.line ++ ": " ++ text)

/-- The value of a variable. -/
def value? (p : Process) (name : String) : Option String :=
  match name.toList with
  | ['#'] => some (toString p.args.length)
  | ['*'] => some (String.intercalate " " p.args)
  | ['@'] => some (String.intercalate " " p.args)
  | ['?'] => some (toString p.status)
  | ['$'] => some number
  | ['0'] => some p.script
  | [c] => if c.isDigit then p.args[c.toNat - '1'.toNat]? else p.bindings.lookup name
  | _ => p.bindings.lookup name

/-- The text of a variable; one that is not set is empty. -/
def text (p : Process) (name : String) : String :=
  (p.value? name).getD ""

/-- A process in which a variable has a value. -/
def assign (p : Process) (name value : String) : Process :=
  { p with bindings := (name, value) :: p.bindings.filter (·.1 ≠ name) }

/-- Fields that are being put together: complete ones, latest first, and one that goes on. -/
structure Fields where
  /-- The complete fields. -/
  complete : List (List Char)
  /-- The field that goes on, if there is one. -/
  current : Option (List Char)

namespace Fields

/-- Adds text to the field that goes on. -/
def add (f : Fields) (chars : List Char) : Fields :=
  { f with current := some (f.current.getD [] ++ chars) }

/-- Ends the field that goes on. -/
def close (f : Fields) : Fields :=
  ⟨f.current.toList ++ f.complete, none⟩

/-- Adds a value outside quotes, which is parted at blanks. -/
def addParted (f : Fields) (chars : List Char) : Fields :=
  chars.foldl (fun f c => if c = ' ' ∨ c = '\t' ∨ c = '\n' then f.close else f.add [c]) f

/-- Adds texts, each but the first in a field of its own. -/
def addEach (add : Fields → List Char → Fields) (f : Fields) : List String → Fields
  | [] => f
  | [a] => add f a.toList
  | a :: b :: rest => addEach add (add f a.toList).close (b :: rest)

/-- Adds a piece of a word. -/
def addPiece (p : Process) (f : Fields) : Piece → Fields
  | .text chars _ => f.add chars
  | .variable name true =>
    if name = "@" then addEach add f p.args else f.add (p.text name).toList
  | .variable name false =>
    if name = "@" ∨ name = "*" then addEach addParted f p.args
    else f.addParted (p.text name).toList

end Fields

/-- The fields that a word expands to. A word of nothing but `"$@"` in quotes is no field if there
are no arguments. -/
def fields (p : Process) (t : Template) : List String :=
  let t := if t.contains (.variable "@" true) then t.filter (· ≠ .text [] true) else t
  ((t.foldl (Fields.addPiece p) ⟨[], none⟩).close.complete.reverse).map String.ofList

/-- The text that a word expands to where it is not parted. -/
def joined (p : Process) (t : Template) : String :=
  String.join (t.map fun piece =>
    match piece with
    | .text chars _ => String.ofList chars
    | .variable name _ => p.text name)

/-- The characters of a pattern, and which of them stand for themselves whatever they are. -/
def patternChars (p : Process) (t : Template) : List (Char × Bool) :=
  t.flatMap fun piece =>
    match piece with
    | .text chars quoted => chars.map (·, quoted)
    | .variable name quoted => (p.text name).toList.map (·, quoted)

end Process

/-- Whether a set in brackets, up to its end, holds a character, and what follows the set. -/
def bracketSet? (c : Char) (found : Bool) : List (Char × Bool) → Option (Bool × List (Char × Bool))
  | [] => none
  | (a, quoted) :: rest =>
    if a = ']' ∧ !quoted then some (found, rest)
    else
      match rest with
      | ('-', false) :: (b, q) :: rest =>
        if b = ']' ∧ !q then bracketSet? c (found || a == c) (('-', false) :: (b, q) :: rest)
        else bracketSet? c (found || (a ≤ c && c ≤ b)) rest
      | rest => bracketSet? c (found || a == c) rest
termination_by cs => cs.length

/-- Whether a pattern fits a text. `fuel` is as great as both lengths together. -/
def fits : Nat → List (Char × Bool) → List Char → Bool
  | 0, _, _ => false
  | _ + 1, [], cs => cs.isEmpty
  | fuel + 1, ('*', false) :: ps, cs =>
    fits fuel ps cs ||
      match cs with
      | [] => false
      | _ :: cs => fits fuel (('*', false) :: ps) cs
  | fuel + 1, ('?', false) :: ps, _ :: cs => fits fuel ps cs
  | _ + 1, _, [] => false
  | fuel + 1, ('[', false) :: ps, c :: cs =>
    let (negative, set) :=
      match ps with
      | ('!', false) :: set => (true, set)
      | set => (false, set)
    match bracketSet? c false set with
    | some (found, ps) => found != negative && fits fuel ps cs
    | none => c == '[' && fits fuel ps cs
  | fuel + 1, (a, _) :: ps, c :: cs => a == c && fits fuel ps cs

namespace Process

/-- Whether a pattern fits a text. -/
def matchesPattern (p : Process) (pattern : Template) (text : String) : Bool :=
  let chars := p.patternChars pattern
  fits (chars.length + text.length + 1) chars text.toList

/-- The words for a file that cannot be made or opened. -/
def openReason (making : Bool) (f : FileFault) : String :=
  match f with
  | .notFound => if making then "Directory nonexistent" else "No such file"
  | .notDirectory => if making then "Directory nonexistent" else "No such file"
  | f => f.reason

/-- Opens a file for output. -/
def openOutput (p : Process) (path : String) (append : Bool) : Except FileFault (Process × Sink) :=
  let opened :=
    if append then
      match p.world.readBytes ⟨path⟩ with
      | .ok _ => .ok p.world
      | .error .notFound => p.world.writeText ⟨path⟩ ""
      | .error f => .error f
    else p.world.writeText ⟨path⟩ ""
  match opened with
  | .error f => .error f
  | .ok world =>
    match world.locate ⟨path⟩ true with
    | .ok (.present location _) => .ok ({ p with world }, .file location)
    | .ok (.vacant _ _) => .error .notFound
    | .error f => .error f

/-- Points a descriptor elsewhere. -/
def point (p : Process) (descriptor : Nat) (sink : Sink) : Process :=
  if descriptor = 1 then { p with one := sink }
  else if descriptor = 2 then { p with two := sink }
  else p

/-- Applies a redirection, or complains. -/
def redirect (p : Process) (r : Redirect) : Except Process Process :=
  let target := p.joined r.target
  match r.mode with
  | .write =>
    match p.openOutput target false with
    | .ok (p, sink) => .ok (p.point r.descriptor sink)
    | .error f =>
      .error (p.complainAtLine 2 ("cannot create " ++ target ++ ": " ++ openReason true f))
  | .append =>
    match p.openOutput target true with
    | .ok (p, sink) => .ok (p.point r.descriptor sink)
    | .error f =>
      .error (p.complainAtLine 2 ("cannot create " ++ target ++ ": " ++ openReason true f))
  | .read =>
    match p.world.readBytes ⟨target⟩ with
    | .ok bytes => .ok { p with input := bytes.toList }
    | .error f =>
      .error (p.complainAtLine 2 ("cannot open " ++ target ++ ": " ++ openReason false f))
  | .duplicate =>
    if target = "1" then .ok (p.point r.descriptor p.one)
    else if target = "2" then .ok (p.point r.descriptor p.two)
    else .ok p

/-- Does some work with redirections; afterwards the descriptors lead where they led before. -/
def withRedirects (p : Process) (redirects : List Redirect) (work : Process → Process) : Process :=
  let after :=
    match redirects.foldlM redirect p with
    | .ok p => work p
    | .error p => p
  let input := if redirects.any (·.mode == .read) then p.input else after.input
  { after with one := p.one, two := p.two, input }

end Process
end ClientRegen.Shell
