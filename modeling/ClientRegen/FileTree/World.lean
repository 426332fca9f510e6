import ClientRegen.FileTree.Basic
import ClientRegen.FileTree.Fault
import ClientRegen.Path
/-!
# The world of a run

The file tree, the working directory and the environment, and what the operating system does with
a path: it starts at the root or in the working directory, takes one step after another, and goes
on at the target where it meets a link.

* `locate` ends because each link that is followed uses up one of a fixed number.
* Operations that change the tree answer the new world, and change it at one location only.
-/

namespace ClientRegen

/-- Everything a run can see and change. -/
structure World where
  /-- The root directory. -/
  root : Entry
  /-- The working directory. -/
  cwd : Location
  /-- The environment. -/
  env : List (String × String)
deriving Inhabited

/-- Where a path leads. -/
inductive Place where
  /-- To an entry. -/
  | present (location : Location) (entry : Entry)
  /-- To a name that a directory does not hold. -/
  | vacant (directory : Location) (name : String)

/-- How many links are followed on the way along one path. -/
def linkLimit : Nat := 40

/-- The greatest number of bytes of a name. -/
def nameLimit : Nat := 255

/-- The greatest number of bytes of a path. -/
def pathLimit : Nat := 4095

/-- The steps that a path's text asks for. A slash at the end asks for a directory, as a dot
does. -/
def stepsOf (text : String) : List String :=
  let cs := text.toList
  let steps := ((Text.splitAt '/' cs).filter (· != [])).map String.ofList
  if cs.getLast? = some '/' then steps ++ ["."] else steps

/-- Takes steps from a location. A link at the end is followed only if `follow` says so. -/
def walk (root : Entry) (follow : Bool) (links : Nat) (here : Location) :
    List String → Except FileFault Place
  | [] =>
    match root.at? here with
    | some e => .ok (.present here e)
    | none => .error .notFound
  | step :: rest =>
    match root.at? here with
    | none => .error .notFound
    | some (.file _ _) => .error .notDirectory
    | some (.link _) => .error .notDirectory
    | some (.dir entries) =>
      if step = "." then walk root follow links here rest
      else if step = ".." then walk root follow links here.dropLast rest
      else if step.utf8ByteSize > nameLimit then .error .nameTooLong
      else
        match entries.lookup step with
        | none => if rest = [] then .ok (.vacant here step) else .error .notFound
        | some (.file c x) =>
          if rest = [] then .ok (.present (here ++ [step]) (.file c x)) else .error .notDirectory
        | some (.dir _) => walk root follow links (here ++ [step]) rest
        | some (.link target) =>
          if rest = [] ∧ !follow then .ok (.present (here ++ [step]) (.link target))
          else
            match links with
            | 0 => .error .tooManyLinks
            | links + 1 =>
              walk root follow links (if Path.isAbsolute ⟨target⟩ then [] else here)
                (stepsOf target ++ rest)
termination_by steps => (links, steps.length)

namespace World

/-- The path of the working directory. -/
def cwdPath (w : World) : Path :=
  ⟨"/" ++ String.intercalate "/" w.cwd⟩

/-- The value of a variable of the environment. -/
def lookUp? (w : World) (name : String) : Option String :=
  w.env.lookup name

/-- Where a path leads; a link at its end is followed only if `follow` says so. -/
def locate (w : World) (p : Path) (follow : Bool) : Except FileFault Place :=
  if p.text.toList.any (fun c => c.toNat == 0) then .error .nulInPath
  else if p.text = "" then .error .notFound
  else if p.text.utf8ByteSize > pathLimit then .error .nameTooLong
  else walk w.root follow linkLimit (if p.isAbsolute then [] else w.cwd) (stepsOf p.text)

/-- The entry that a path leads to; a link at its end is followed only if `follow` says so. -/
def find (w : World) (p : Path) (follow : Bool) : Except FileFault Entry :=
  match w.locate p follow with
  | .ok (.present _ e) => .ok e
  | .ok (.vacant _ _) => .error .notFound
  | .error f => .error f

/-- The entry that a path leads to, links followed. -/
def entry? (w : World) (p : Path) : Except FileFault Entry :=
  w.find p true

/-- The location and the entries of the directory that a path leads to, links followed. -/
def directory? (w : World) (p : Path) : Option (Location × List (String × Entry)) :=
  match w.locate p true with
  | .ok (.present l (.dir es)) => some (l, es)
  | _ => none

/-- Whether a path leads to anything. -/
def exists? (w : World) (p : Path) : Bool :=
  match w.entry? p with
  | .ok _ => true
  | .error _ => false

/-- Whether a path leads to a regular file. -/
def isFile (w : World) (p : Path) : Bool :=
  match w.entry? p with
  | .ok e => e.isFile
  | .error _ => false

/-- Whether a path leads to a directory. -/
def isDir (w : World) (p : Path) : Bool :=
  match w.entry? p with
  | .ok e => e.isDir
  | .error _ => false

/-- The bytes of a file. -/
def readBytes (w : World) (p : Path) : Except FileFault ByteArray :=
  match w.entry? p with
  | .ok (.file c _) => .ok c
  | .ok _ => .error .isDirectory
  | .error f => .error f

/-- The text of bytes that are UTF-8. -/
def textOf (bytes : ByteArray) : Except FileFault String :=
  match String.fromUTF8? bytes with
  | some s => .ok s
  | none => .error .notText

/-- The text of a file. -/
def readText (w : World) (p : Path) : Except FileFault String :=
  match w.readBytes p with
  | .ok bytes => textOf bytes
  | .error f => .error f

/-- The world with another tree. -/
def withRoot (w : World) (root : Entry) : World :=
  { w with root := root }

/-- Writes a file: one that exists keeps its right to be run, a new one has none unless it is
given. A link at the end is followed. -/
def writeBytes (w : World) (p : Path) (bytes : ByteArray) (executable : Bool) :
    Except FileFault World :=
  match w.locate p true with
  | .ok (.present l (.file _ x)) => .ok (w.withRoot (w.root.put l (.file bytes x)))
  | .ok (.present _ _) => .error .isDirectory
  | .ok (.vacant l name) => .ok (w.withRoot (w.root.put (l ++ [name]) (.file bytes executable)))
  | .error f => .error f

/-- Writes a text to a file. -/
def writeText (w : World) (p : Path) (s : String) : Except FileFault World :=
  w.writeBytes p s.toUTF8 false

/-- Copies a regular file with its right to be run. -/
def copyFile (w : World) (source target : Path) : Except FileFault World :=
  match w.entry? source with
  | .ok (.file c x) =>
    match w.locate target true with
    | .ok (.present l (.file _ _)) => .ok (w.withRoot (w.root.put l (.file c x)))
    | .ok (.present _ _) => .error .isDirectory
    | .ok (.vacant l name) => .ok (w.withRoot (w.root.put (l ++ [name]) (.file c x)))
    | .error f => .error f
  | .ok _ => .error .notRegular
  | .error f => .error f

/-- A path without slashes at its end, for making what it names. -/
def withoutEndSlashes (p : Path) : Path :=
  let trimmed := (p.text.toList.reverse.dropWhile (· == '/')).reverse
  if trimmed = [] then p else ⟨String.ofList trimmed⟩

/-- Makes an entry under a name that is still vacant. -/
def make (w : World) (p : Path) (e : Entry) : Except FileFault World :=
  match w.locate (withoutEndSlashes p) false with
  | .ok (.vacant l name) => .ok (w.withRoot (w.root.put (l ++ [name]) e))
  | .ok (.present _ _) => .error .alreadyExists
  | .error f => .error f

/-- Makes a directory in one that exists. -/
def makeDir (w : World) (p : Path) : Except FileFault World :=
  w.make p (.dir [])

/-- A path and the directories around it, innermost first. -/
def ancestors (p : Path) : List Path :=
  let rec above (fuel : Nat) (p : Path) : List Path :=
    match fuel, p.parent? with
    | 0, _ => [p]
    | _, none => [p]
    | fuel + 1, some q => p :: above fuel q
  above p.text.length p

/-- Makes a directory, making first the directories around it that are missing. -/
def makeDirs (w : World) : List Path → Except FileFault World
  | [] => .error .notFound
  | p :: around =>
    if p.text = "" then .ok w
    else
      match w.makeDir p with
      | .ok w => .ok w
      | .error .notFound =>
        match w.makeDirs around with
        | .error f => .error f
        | .ok w =>
          match w.makeDir p with
          | .ok w => .ok w
          | .error f => if w.isDir p then .ok w else .error f
      | .error f => if w.isDir p then .ok w else .error f

/-- Makes a directory and every missing one around it. -/
def makeDirAll (w : World) (p : Path) : Except FileFault World :=
  w.makeDirs (ancestors p)

/-- Removes what a path names: a link itself, a file, or a directory with all that is in it. -/
def removeAll (w : World) (p : Path) : Except FileFault World :=
  match w.locate p false with
  | .ok (.present [] _) => .error .isDirectory
  | .ok (.present l _) => .ok (w.withRoot (w.root.remove l))
  | .ok (.vacant _ _) => .error .notFound
  | .error f => .error f

/-- Removes what a path names, if there is anything. -/
def discard (w : World) (p : Path) : Except FileFault World :=
  match w.find p false with
  | .ok _ => w.removeAll p
  | .error _ => .ok w

end World
end ClientRegen
