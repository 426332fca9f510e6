import ClientRegen.Spec.Documents
import ClientRegen.Text.TypeName
/-!
# Finding an enum in a specification

The schema of a type is looked up by its name, in any spelling: first among the schemas of the root
document, then among the schemas and the top-level keys of every document that references lead to.
A schema of the right name that is no enum does not end the search, but it is remembered and
reported if nothing better is found.

* `search` tries things in order and answers the first enum found.
* `searchFrom` visits no document twice.
-/

namespace ClientRegen

/-- What looking for an enum comes to. -/
inductive EnumLookup where
  /-- The enum. -/
  | found (metadata : EnumMetadata)
  /-- A schema of that name is there, but it is no enum; with the first reason why. -/
  | notEnum (fault : SchemaFault)
  /-- There is no schema of that name. -/
  | missing
deriving DecidableEq, Repr

/-- What a search comes to that goes on after one that found no enum: the earlier reason stands
unless an enum is found. -/
def EnumLookup.orLater : EnumLookup → EnumLookup → EnumLookup
  | found m, _ => found m
  | missing, later => later
  | notEnum _, found m => found m
  | notEnum f, _ => notEnum f

/-- Goes on with a search unless an enum was found. -/
def EnumLookup.continueWith (first : EnumLookup) (next : Loading EnumLookup) :
    Loading EnumLookup :=
  match first with
  | .found m => pure (.found m)
  | _ => return first.orLater (← next)

/-- Tries things in order until one of them is an enum. -/
def search {α : Type} (try_ : α → Loading EnumLookup) : List α → Loading EnumLookup
  | [] => pure .missing
  | x :: xs => do
    let first ← try_ x
    first.continueWith (search try_ xs)

/-- The schemas of a document: its components, then its definitions. -/
def schemasOf (document : Value) : List (String × Value) :=
  ["/components/schemas", "/definitions"].flatMap fun pointer =>
    ((document.at? pointer).bind Value.fields?).getD []

/-- The schemas of a document, then its top-level keys. -/
def namedValues (document : Value) : List (String × Value) :=
  schemasOf document ++ document.fields?.getD []

/-- Whether a key with an object under it spells a name. -/
def isSchemaNamed (name : String) (entry : String × Value) : Bool :=
  entry.2.isObject && typeNameKey entry.1 == typeNameKey name

/-- Looks at a schema that stands under a key of a document. -/
def lookAt (w : World) (document : Path) (entry : String × Value) : Loading EnumLookup := do
  let schema ← resolve w document entry.2
  match Schema.enum entry.1 schema with
  | .ok m => pure (.found m)
  | .error f => pure (.notEnum f)

/-- Looks for a name among the keys of a document. -/
def searchKeys (w : World) (document : Path) (keys : List (String × Value)) (name : String) :
    Loading EnumLookup :=
  search (lookAt w document) (keys.filter (isSchemaNamed name))

/-- Looks for a name among the schemas of the root document. -/
def searchRoot (w : World) (root : Path) (name : String) : Loading EnumLookup := do
  let document ← fetch w root
  searchKeys w root (schemasOf document) name

mutual

/-- The references in a value, in order; what stands under a reference key is not looked into. -/
def references : Value → List String
  | .object fields => fieldReferences fields
  | .array items => itemReferences items
  | _ => []

/-- The references in fields. -/
def fieldReferences : List (String × Value) → List String
  | [] => []
  | (key, v) :: fs =>
    (if key = "$ref" then v.string?.toList else references v) ++ fieldReferences fs

/-- The references in items. -/
def itemReferences : List Value → List String
  | [] => []
  | v :: vs => references v ++ itemReferences vs

end

/-- The documents that a document refers to and that are there, in the order of the references. -/
def referredDocuments (w : World) (path : Path) (document : Value) : List Path :=
  (((references document).map Reference.ofText).filter (·.file ≠ "")).map (·.document path)
    |>.filter w.isFile

/-- There are no more paths than texts of the greatest length of a path. -/
def pathCount : Nat := Nat.pow 256 (pathLimit + 1)

/-- Looks for a name in documents and in those they refer to, the latest reference first. `fuel`
bounds how many more documents are looked into; there are never more than there are paths. -/
def searchFrom (w : World) (name : String) (fuel : Nat) (visited : List Path) :
    List Path → Loading EnumLookup
  | [] => pure .missing
  | path :: pending =>
    if visited.contains path then searchFrom w name fuel visited pending
    else
      match fuel with
      | 0 => pure .missing
      | fuel + 1 => do
        let document ← fetch w path
        let first ← searchKeys w path (namedValues document) name
        let visited := path :: visited
        let further := (referredDocuments w path document).filter fun p => !visited.contains p
        first.continueWith (searchFrom w name fuel visited (further.reverse ++ pending))
termination_by pending => (fuel, pending.length)

/-- A document that the search has been to is passed over. -/
theorem searchFrom_of_mem {w : World} {name : String} {path : Path} {visited pending : List Path}
    (fuel : Nat) (h : path ∈ visited) :
    searchFrom w name fuel visited (path :: pending) = searchFrom w name fuel visited pending := by
  have hcontains : visited.contains path = true := List.contains_iff_mem.mpr h
  cases fuel <;> rw [searchFrom, if_pos hcontains]

/-- A new document is looked into, and then the new ones that it refers to are first. -/
theorem searchFrom_of_notMem {w : World} {name : String} {path : Path}
    {visited pending : List Path} (fuel : Nat) (h : path ∉ visited) :
    searchFrom w name (fuel + 1) visited (path :: pending) = (do
      let document ← fetch w path
      let first ← searchKeys w path (namedValues document) name
      let further := (referredDocuments w path document).filter fun p =>
        !(path :: visited).contains p
      first.continueWith
        (searchFrom w name fuel (path :: visited) (further.reverse ++ pending))) := by
  have hcontains : ¬ visited.contains path = true := fun hc => h (List.contains_iff_mem.mp hc)
  rw [searchFrom, if_neg hcontains]

/-- Looks for a name in every document that references lead to from the root. -/
def searchReachable (w : World) (root : Path) (name : String) : Loading EnumLookup :=
  searchFrom w name pathCount [] [root]

/-- A root document and the documents that were read so far. -/
structure Specification where
  /-- The path of the root document. -/
  root : Path
  /-- The documents that were read. -/
  documents : Documents

namespace Specification

/-- Opens a specification: the root document is read at once. -/
def openAt (w : World) (p : Path) : Except Failure Specification :=
  match fetch w p.normalize [] with
  | .ok _ docs => .ok ⟨p.normalize, docs⟩
  | .error f _ => .error f

/-- Looks for the enum of the first of some names that is one: among the schemas of the root
document, then in every document. -/
def searchAll (w : World) (root : Path) (names : List String) : Loading EnumLookup := do
  let first ← search (searchRoot w root) names
  first.continueWith (search (searchReachable w root) names)

/-- The enum of the first of some names that is one, and the specification with what was read
meanwhile. -/
def findEnum (w : World) (names : List String) (s : Specification) :
    Except Failure EnumLookup × Specification :=
  match searchAll w s.root names s.documents with
  | .ok r docs => (.ok r, { s with documents := docs })
  | .error f docs => (.error f, { s with documents := docs })

end Specification
end ClientRegen
