import ClientRegen.FileTree.Basic
/-!
# Changes between file trees

What has to be done to a tree to make it another one, as a list of single changes in an order in
which they can be done: what is in a directory goes before the directory, and comes after it.

* Equal trees need no change.
-/

namespace ClientRegen

/-- One change of a file tree. -/
inductive Change where
  /-- A file or a link goes. -/
  | removeLeaf (location : Location)
  /-- An empty directory goes. -/
  | removeDir (location : Location)
  /-- A directory comes. -/
  | makeDir (location : Location)
  /-- A file comes or is written anew. -/
  | writeFile (location : Location) (content : ByteArray) (executable : Bool)
  /-- A link comes. -/
  | makeLink (location : Location) (target : String)

mutual

/-- What removes an entry. -/
def removals (location : Location) : Entry → List Change
  | .file _ _ => [.removeLeaf location]
  | .link _ => [.removeLeaf location]
  | .dir entries => removalsIn location entries ++ [.removeDir location]

/-- What removes the entries of a directory. -/
def removalsIn (location : Location) : List (String × Entry) → List Change
  | [] => []
  | (name, e) :: es => removals (location ++ [name]) e ++ removalsIn location es

end

mutual

/-- What makes an entry. -/
def creations (location : Location) : Entry → List Change
  | .file content executable => [.writeFile location content executable]
  | .link target => [.makeLink location target]
  | .dir entries => .makeDir location :: creationsIn location entries

/-- What makes the entries of a directory. -/
def creationsIn (location : Location) : List (String × Entry) → List Change
  | [] => []
  | (name, e) :: es => creations (location ++ [name]) e ++ creationsIn location es

end

/-- What turns a leaf into another entry. -/
def replacements (location : Location) (old new : Entry) : List Change :=
  removals location old ++ creations location new

mutual

/-- What turns an entry into another one. -/
def changes (location : Location) (new : Entry) : Entry → List Change
  | .file content executable =>
    match new with
    | .file content' executable' =>
      if content.data = content'.data ∧ executable = executable' then []
      else [.writeFile location content' executable']
    | _ => replacements location (.file content executable) new
  | .link target =>
    match new with
    | .link target' => if target = target' then [] else replacements location (.link target) new
    | _ => replacements location (.link target) new
  | .dir entries =>
    match new with
    | .dir entries' =>
      changesIn location entries' entries ++
        creationsIn location (entries'.filter fun e => (entries.lookup e.1).isNone)
    | _ => replacements location (.dir entries) new

/-- What turns the entries of a directory into others, those that come anew left out. -/
def changesIn (location : Location) (new : List (String × Entry)) :
    List (String × Entry) → List Change
  | [] => []
  | (name, e) :: es =>
    (match new.lookup name with
      | some e' => changes (location ++ [name]) e' e
      | none => removals (location ++ [name]) e) ++ changesIn location new es

end
end ClientRegen
