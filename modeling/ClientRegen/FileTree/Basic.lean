/-!
# File trees

Directories, regular files and symbolic links as one value. The entries of a directory are kept in
the order of their names, each name once. A location is the list of names that leads to an entry
from the root, no link being followed.

* `at?` views a tree as a map from locations to entries; `update` changes it at one location.
* Names are texts. A name that is not UTF-8 has no counterpart here: the program shows it with
  replacement characters when it clears, and passes over it when it looks for enum files.
-/

namespace ClientRegen

/-- An entry of a directory. -/
inductive Entry where
  /-- A regular file: its bytes, and whether it may be run. -/
  | file (content : ByteArray) (executable : Bool)
  /-- A symbolic link, with the path it holds. -/
  | link (target : String)
  /-- A directory, with its entries by name. -/
  | dir (entries : List (String × Entry))
deriving Inhabited

/-- The names that lead to an entry from the root. -/
abbrev Location := List String

namespace Entry

/-- The entries of a directory. -/
def entries : Entry → List (String × Entry)
  | dir es => es
  | _ => []

/-- Whether an entry is a directory. -/
def isDir : Entry → Bool
  | dir _ => true
  | _ => false

/-- Whether an entry is a regular file. -/
def isFile : Entry → Bool
  | file _ _ => true
  | _ => false

/-- Whether an entry is a regular file that may be run. -/
def isProgram : Entry → Bool
  | file _ executable => executable
  | _ => false

/-- Changes what stands under a name: the change is given what is there, and answers what shall be
there. Names stay in order. -/
def alter (name : String) (change : Option Entry → Option Entry) :
    List (String × Entry) → List (String × Entry)
  | [] => ((change none).map fun e => (name, e)).toList
  | (n, e) :: es =>
    if name = n then ((change (some e)).map fun e => (name, e)).toList ++ es
    else if name < n then ((change none).map fun e => (name, e)).toList ++ (n, e) :: es
    else (n, e) :: alter name change es

/-- The entry at a location. -/
def at? (e : Entry) : Location → Option Entry
  | [] => some e
  | n :: ns => (e.entries.lookup n).bind (·.at? ns)

/-- Changes the entry at a location. Nothing happens where a directory on the way is missing; the
entry at the empty location can be replaced, not removed. -/
def update (change : Option Entry → Option Entry) : Location → Entry → Entry
  | [], e => (change (some e)).getD e
  | [n], .dir es => .dir (alter n change es)
  | n :: ns, .dir es => .dir (alter n (fun e => e.map (update change ns)) es)
  | _, e => e

/-- Puts an entry at a location. -/
def put (e : Entry) (location : Location) (new : Entry) : Entry :=
  e.update (fun _ => some new) location

/-- Removes the entry at a location. -/
def remove (e : Entry) (location : Location) : Entry :=
  e.update (fun _ => none) location

end Entry
end ClientRegen
