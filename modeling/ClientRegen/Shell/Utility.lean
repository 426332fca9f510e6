import ClientRegen.Shell.Process
/-!
# File utilities

The programs that scripts use to work on files. They change the world of the process that runs
them; what they cannot do they complain about, and go on with their next operand.

* `copyEntry` copies by recursion on what is copied, so a tree that is copied into itself is copied
  as it was before.
-/

namespace ClientRegen.Shell.Process

/-- The letters of the options in front, and the operands. A double hyphen ends the options. -/
def options : List String → List Char × List String
  | [] => ([], [])
  | a :: as =>
    if a = "--" then ([], as)
    else
      match a.toList with
      | '-' :: c :: cs => let r := options as; (c :: cs ++ r.1, r.2)
      | _ => ([], a :: as)

/-- The last name of a path as utilities see it: slashes at the end do not count, and dots are
names. -/
def baseName (path : String) : String :=
  let pieces := (Text.splitAt '/' path.toList).filter (· ≠ [])
  match pieces.getLast? with
  | some piece => String.ofList piece
  | none => "/"

/-- The complaint of a utility about an operand. -/
def complainOf (p : Process) (utility trouble operand : String) (f : FileFault) : Process :=
  p.complain 1 (utility ++ ": " ++ trouble ++ " '" ++ operand ++ "': " ++ f.reason)

/-- Changes the world, or complains. -/
def attempt (p : Process) (result : Except FileFault World) (complaint : FileFault → Process) :
    Process :=
  match result with
  | .ok world => { p with world }
  | .error f => complaint f

/-- Does some work for each operand; the status is that of the worst. -/
def forEach (p : Process) (operands : List String) (work : Process → String → Process) : Process :=
  operands.foldl (fun p operand =>
    let after := work (p.withStatus 0) operand
    after.withStatus (max p.status after.status)) (p.withStatus 0)

/-- Makes directories. -/
def mkdir (p : Process) (args : List String) : Process :=
  let (letters, operands) := options args
  p.forEach operands fun p operand =>
    p.attempt
      (if letters.contains 'p' then p.world.makeDirAll ⟨operand⟩ else p.world.makeDir ⟨operand⟩)
      (p.complainOf "mkdir" "cannot create directory" operand)

/-- Removes files, or trees if that is asked for. -/
def rm (p : Process) (args : List String) : Process :=
  let (letters, operands) := options args
  let force := letters.contains 'f'
  let trees := letters.contains 'r' || letters.contains 'R'
  p.forEach operands fun p operand =>
    match p.world.locate ⟨operand⟩ false with
    | .ok (.present _ (.dir _)) =>
      if trees then
        p.attempt (p.world.removeAll ⟨operand⟩) (p.complainOf "rm" "cannot remove" operand)
      else p.complainOf "rm" "cannot remove" operand .isDirectory
    | .ok (.present _ _) =>
      p.attempt (p.world.removeAll ⟨operand⟩) (p.complainOf "rm" "cannot remove" operand)
    | .ok (.vacant _ _) => if force then p else p.complainOf "rm" "cannot remove" operand .notFound
    | .error f =>
      if force ∧ (f = .notFound ∨ f = .notDirectory) then p
      else p.complainOf "rm" "cannot remove" operand f

/-- Removes empty directories. -/
def rmdir (p : Process) (args : List String) : Process :=
  p.forEach (options args).2 fun p operand =>
    match p.world.locate ⟨operand⟩ false with
    | .ok (.present _ (.dir [])) =>
      p.attempt (p.world.removeAll ⟨operand⟩) (p.complainOf "rmdir" "failed to remove" operand)
    | .ok (.present _ (.dir _)) => p.complainOf "rmdir" "failed to remove" operand .notEmpty
    | .ok (.present _ _) => p.complainOf "rmdir" "failed to remove" operand .notDirectory
    | .ok (.vacant _ _) => p.complainOf "rmdir" "failed to remove" operand .notFound
    | .error f => p.complainOf "rmdir" "failed to remove" operand f

/-- Makes files that are not there. -/
def touch (p : Process) (args : List String) : Process :=
  p.forEach (options args).2 fun p operand =>
    if p.world.exists? ⟨operand⟩ then p
    else p.attempt (p.world.writeText ⟨operand⟩ "") (p.complainOf "touch" "cannot touch" operand)

/-- Writes files out one after another, or what can be read. -/
def cat (p : Process) (args : List String) : Process :=
  let operands := (options args).2
  let operands := if operands = [] then ["-"] else operands
  p.forEach operands fun p operand =>
    if operand = "-" then { p.write p.input with input := [] }
    else
      match p.world.readBytes ⟨operand⟩ with
      | .ok bytes => p.write bytes.toList
      | .error f => p.complain 1 ("cat: " ++ operand ++ ": " ++ f.reason)

/-- Makes an entry in place of a file or a link. -/
def makeAnew (w : World) (p : Path) (e : Entry) : Except FileFault World :=
  match w.find p false with
  | .ok (.dir _) => .error .isDirectory
  | _ => (w.discard p).bind (·.make p e)

mutual

/-- Copies an entry to a path. -/
def copyEntry (source target : Path) (p : Process) : Entry → Process
  | .file content executable =>
    if p.world.isDir target then
      p.complain 1 ("cp: cannot overwrite directory '" ++ target.text ++ "' with non-directory '" ++
        source.text ++ "'")
    else
      p.attempt (p.world.writeBytes target content executable)
        (p.complainOf "cp" "cannot create regular file" target.text)
  | .link held =>
    p.attempt (makeAnew p.world target (.link held))
      (p.complainOf "cp" "cannot create symbolic link" target.text)
  | .dir entries =>
    if p.world.isDir target then copyEntries source target p entries
    else if p.world.exists? target then
      p.complain 1 ("cp: cannot overwrite non-directory '" ++ target.text ++ "' with directory '" ++
        source.text ++ "'")
    else
      match p.world.makeDir target with
      | .ok world => copyEntries source target { p with world } entries
      | .error f => p.complainOf "cp" "cannot create directory" target.text f

/-- Copies entries into a directory. -/
def copyEntries (source target : Path) (p : Process) : List (String × Entry) → Process
  | [] => p
  | (name, e) :: es =>
    copyEntries source target (copyEntry (source.join ⟨name⟩) (target.join ⟨name⟩) p e) es

end

/-- Where operands go: into the last one if it is a directory, otherwise to it. -/
def destination (p : Process) (target source : String) : String :=
  if p.world.isDir ⟨target⟩ then ((⟨target⟩ : Path).join ⟨baseName source⟩).text else target

/-- Copies files, or trees if that is asked for. -/
def cp (p : Process) (args : List String) : Process :=
  let (letters, operands) := options args
  let trees := letters.contains 'r' || letters.contains 'R' || letters.contains 'a'
  match operands.reverse with
  | target :: source :: sources =>
    p.forEach (source :: sources).reverse fun p source =>
      match p.world.find ⟨source⟩ (!trees) with
      | .error f => p.complainOf "cp" "cannot stat" source f
      | .ok e =>
        if e.isDir ∧ !trees then
          p.complain 1 ("cp: -r not specified; omitting directory '" ++ source ++ "'")
        else copyEntry ⟨source⟩ ⟨p.destination target source⟩ p e
  | _ => p.complain 1 "cp: missing file operand"

/-- Moves an entry to a path. -/
def move (w : World) (source target : Path) : Except FileFault World := do
  let e ← w.find source false
  makeAnew (← w.removeAll source) target e

/-- Moves entries. -/
def mv (p : Process) (args : List String) : Process :=
  match (options args).2.reverse with
  | target :: source :: sources =>
    p.forEach (source :: sources).reverse fun p source =>
      p.attempt (move p.world ⟨source⟩ ⟨p.destination target source⟩)
        (p.complainOf "mv" "cannot move" source)
  | _ => p.complain 1 "mv: missing file operand"

/-- Makes a symbolic link. -/
def ln (p : Process) (args : List String) : Process :=
  let (letters, operands) := options args
  match operands with
  | [held, name] =>
    let place : Path := ⟨p.destination name held⟩
    let make := if letters.contains 'f' then makeAnew p.world else p.world.make
    (p.withStatus 0).attempt (make place (.link held))
      (p.complainOf "ln" "failed to create symbolic link" place.text)
  | _ => p.complain 1 "ln: missing file operand"

/-- Whether a mode gives the right to run a file, if it says anything about that. -/
def modeRuns? (mode : String) : Option Bool :=
  if mode ≠ "" ∧ mode.toList.all Char.isDigit then
    some (mode.toList.any fun c => (c.toNat - '0'.toNat) % 2 == 1)
  else
    match mode.toList.reverse with
    | 'x' :: rest =>
      if rest.contains '+' then some true
      else if rest.contains '-' then some false
      else none
    | _ => none

/-- Gives or takes the right to run files. -/
def chmod (p : Process) (args : List String) : Process :=
  match args with
  | mode :: operands =>
    p.forEach operands fun p operand =>
      match p.world.locate ⟨operand⟩ true with
      | .ok (.present location (.file content x)) =>
        let root := p.world.root.put location (.file content ((modeRuns? mode).getD x))
        { p with world := p.world.withRoot root }
      | .ok (.present _ _) => p
      | .ok (.vacant _ _) => p.complainOf "chmod" "cannot access" operand .notFound
      | .error f => p.complainOf "chmod" "cannot access" operand f
  | [] => p.complain 1 "chmod: missing operand"

/-- The directories that hold the utilities. -/
def utilityDirectories : List (List Char) :=
  [['/', 'b', 'i', 'n'], ['/', 'u', 's', 'r', '/', 'b', 'i', 'n']]

/-- Whether the search path leads to the utilities. -/
def hasUtilities (p : Process) : Bool :=
  (Text.splitAt ':' (p.text "PATH").toList).any utilityDirectories.contains

/-- What a utility does. -/
def utility? (p : Process) (name : String) (args : List String) : Option Process :=
  if !p.hasUtilities then none
  else
    match name with
    | "mkdir" => some (p.mkdir args)
    | "rm" => some (p.rm args)
    | "rmdir" => some (p.rmdir args)
    | "touch" => some (p.touch args)
    | "cat" => some (p.cat args)
    | "cp" => some (p.cp args)
    | "mv" => some (p.mv args)
    | "ln" => some (p.ln args)
    | "chmod" => some (p.chmod args)
    | "sleep" => some (p.withStatus 0)
    | _ => none

end ClientRegen.Shell.Process
