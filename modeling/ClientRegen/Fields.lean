/-!
# Fields

Named things in the order in which they were first written.

* `putField` keeps every key once.
-/

namespace ClientRegen

/-- Fields with one more: a key that is already there keeps its place and takes the new value. -/
def putField {α : Type} (key : String) (value : α) : List (String × α) → List (String × α)
  | [] => [(key, value)]
  | f :: fs => if f.1 = key then (key, value) :: fs else f :: putField key value fs

/-- Fields from pairs that are put one after another. -/
def fieldsOf {α : Type} (pairs : List (String × α)) : List (String × α) :=
  pairs.foldl (fun fields p => putField p.1 p.2 fields) []

end ClientRegen
