import ClientRegen.Failure
import ClientRegen.FileTree.World
/-!
# Actions

Work that changes the world and may fail. What an action changed before it failed stays changed;
nothing is taken back.

* `look` changes nothing, whether it fails or not.
-/

namespace ClientRegen

/-- Work that changes the world and may fail. -/
abbrev Action := EStateM Failure World

namespace Action

/-- Asks something of the world and leaves it as it is. -/
def look {α : Type} (question : World → Except Failure α) : Action α := fun w =>
  match question w with
  | .ok a => .ok a w
  | .error f => .error f w

/-- Changes the world, or fails and leaves it as it is. -/
def change {α : Type} (work : World → Except Failure (α × World)) : Action α := fun w =>
  match work w with
  | .ok (a, w) => .ok a w
  | .error f => .error f w

/-- An operation on a path, whose fault is reported with another path. -/
def onPath (reported : Path) (operation : World → Except FileFault World) : Action Unit :=
  change fun w =>
    match operation w with
    | .ok w => .ok ((), w)
    | .error f => .error (.file reported f)

/-- Writes a text to a file. -/
def writeText (p : Path) (text : String) : Action Unit :=
  onPath p (·.writeText p text)

/-- Makes a directory and every missing one around it. -/
def makeDirAll (p : Path) : Action Unit :=
  onPath p (·.makeDirAll p)

end Action
end ClientRegen
