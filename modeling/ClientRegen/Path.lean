import ClientRegen.Text.Replace
/-!
# Paths

A path is a text in which slashes separate pieces. Its components are what it means: empty pieces
and single dots do not count, except a dot at the start of a relative path. The text is kept as it
was written, because messages show it.

* `normalize` resolves dots and double dots by the text alone: an absolute result is the root
  followed by names, a relative one double dots followed by names.
* `join` with an absolute path is that path.
-/

namespace ClientRegen

/-- A path as it was written. -/
structure Path where
  /-- The text of the path. -/
  text : String
deriving DecidableEq, Repr, Inhabited

/-- One step of a path. -/
inductive Component where
  /-- The root of all absolute paths. -/
  | root
  /-- The place itself: a dot at the start of a relative path. -/
  | current
  /-- The directory around the place. -/
  | parent
  /-- An entry of the place. -/
  | name (text : String)
deriving DecidableEq, Repr

namespace Path

/-- Texts with a slash between neighbours. -/
def slashed (pieces : List (List Char)) : List Char :=
  List.intercalate ['/'] pieces

/-- The texts between the slashes of a path. -/
def pieces (p : Path) : List (List Char) :=
  Text.splitAt '/' p.text.toList

/-- Whether a path starts at the root. -/
def isAbsolute (p : Path) : Bool :=
  p.text.toList.head? == some '/'

/-- Whether the piece in a given place counts as a component. -/
def counts (piece : List Char) (place : Nat) : Bool :=
  piece != [] && (piece != ['.'] || place == 0)

/-- The pieces that count, with their places. -/
def counted (p : Path) : List (List Char × Nat) :=
  p.pieces.zipIdx.filter fun q => counts q.1 q.2

/-- The component that a piece stands for. -/
def componentOf (piece : List Char) : Component :=
  if piece = ['.'] then .current
  else if piece = ['.', '.'] then .parent
  else .name (String.ofList piece)

/-- The components of a path. -/
def components (p : Path) : List Component :=
  (if p.isAbsolute then [.root] else []) ++ p.counted.map fun q => componentOf q.1

/-- The path without its last component; the root and the empty path have none. -/
def parent? (p : Path) : Option Path :=
  match p.counted.reverse with
  | [] => none
  | [_] => some ⟨if p.isAbsolute then "/" else ""⟩
  | _ :: (_, place) :: _ => some ⟨String.ofList (slashed (p.pieces.take (place + 1)))⟩

/-- The last component, if it is a name. -/
def fileName? (p : Path) : Option String :=
  match p.components.getLast? with
  | some (.name n) => some n
  | _ => none

/-- A path taken from another: an absolute path stays as it is, another one is put after a
slash. -/
def join (base p : Path) : Path :=
  if p.isAbsolute then p
  else if base.text = "" ∨ base.text.toList.getLast? = some '/' then ⟨base.text ++ p.text⟩
  else ⟨base.text ++ "/" ++ p.text⟩

/-- The directory of a path, for paths given relative to it. -/
def directory (p : Path) : Path :=
  p.parent?.getD ⟨"."⟩

/-- The path with another last name in place of its own, if it has one. -/
def withFileName (p : Path) (name : String) : Path :=
  let base := if p.fileName?.isSome then p.parent?.getD p else p
  base.join ⟨name⟩

/-- What follows the last dot of the last name, unless the dot is its first character. -/
def extension? (p : Path) : Option String :=
  match p.fileName? with
  | none => none
  | some n =>
    match (Text.splitAt '.' n.toList).reverse with
    | last :: before :: others =>
      if before = [] ∧ others = [] then none else some (String.ofList last)
    | _ => none

/-- Whether the components of a path begin with those of another. -/
def startsWith (p base : Path) : Bool :=
  base.components.isPrefixOf p.components

/-- Pieces without those at either end that do not count. -/
def trimPieces (ps : List (List Char)) : List (List Char) :=
  let idle (piece : List Char) : Bool := piece == [] || piece == ['.']
  ((ps.dropWhile idle).reverse.dropWhile idle).reverse

/-- The path as seen from another that it starts with, in its own spelling. -/
def relativeTo? (p base : Path) : Option Path :=
  if p.startsWith base then
    let n := base.counted.length
    let rest :=
      match p.counted[n - 1]? with
      | some (_, place) => if n = 0 then p.pieces else p.pieces.drop (place + 1)
      | none => if n = 0 then p.pieces else []
    some ⟨String.ofList (slashed (trimPieces rest))⟩
  else none

/-- One component added to a normal form, whose components are kept latest first. -/
def normalStep (absolute : Bool) (before : List Component) : Component → List Component
  | .root => before
  | .current => before
  | .name n => .name n :: before
  | .parent =>
    match before with
    | .name _ :: rest => rest
    | [] => if absolute then [] else [.parent]
    | _ => .parent :: before

/-- The components of the normal form of a path, without the root. -/
def normalComponents (p : Path) : List Component :=
  (p.components.foldl (normalStep p.isAbsolute) []).reverse

/-- The text of a component that is not the root. -/
def componentText : Component → List Char
  | .root => []
  | .current => ['.']
  | .parent => ['.', '.']
  | .name n => n.toList

/-- The path with these components, from the root or not. -/
def ofComponents (absolute : Bool) (cs : List Component) : Path :=
  ⟨String.ofList ((if absolute then ['/'] else []) ++ slashed (cs.map componentText))⟩

/-- The normal form of a path. -/
def normalize (p : Path) : Path :=
  ofComponents p.isAbsolute p.normalComponents

/-- The normal form of a path that is taken from a base unless it is absolute. -/
def absolutize (p base : Path) : Path :=
  if p.isAbsolute then p.normalize else (base.join p).normalize

end Path

/-- A relative path as it is compared: backslashes count as slashes, and empty pieces and single
dots are left out. -/
def plainRelative (s : String) : String :=
  let slashes := s.toList.map fun c => if c = '\\' then '/' else c
  String.ofList (Path.slashed
    ((Text.splitAt '/' slashes).filter fun piece => piece != [] && piece != ['.']))

end ClientRegen
