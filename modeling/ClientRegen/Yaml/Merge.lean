import ClientRegen.Yaml.Meaning
/-!
# Merge keys

A mapping as fields under their keys, with what its merge key refers to taken in. A merge key
refers to a mapping or to a list of mappings.

* The mapping's own fields win over merged ones, and earlier merged ones over later ones.
* No key is kept twice.
-/

namespace ClientRegen.Yaml

/-- Nodes under their keys. -/
abbrev Fields := List (String × Node)

/-- The key under which the mappings stand whose fields are merged in. -/
def mergeKey : String := "<<"

/-- Fields with more of them at the end, those left out whose keys are there already. -/
def mergeFields (fields more : Fields) : Fields :=
  more.foldl (fun fs f => if (fs.lookup f.1).isSome then fs else fs ++ [f]) fields

mutual

/-- The fields of a mapping with those merged in, or of the mappings of a list where `several` are
permitted. -/
def mergedFieldsOf? (several : Bool) : Node → Option Fields
  | .scalar _ _ _ => none
  | .sequence _ items => if several then itemFields? items else none
  | .mapping _ entries =>
    if repeatsKey entries then none
    else
      let own := fieldsOf (entries.map fun e => (e.1.text, e.2))
      (mergedFields? entries).map fun merged =>
        mergeFields (own.filter (·.1 ≠ mergeKey)) merged

/-- The fields of the mappings of a list. -/
def itemFields? : List Node → Option Fields
  | [] => some []
  | n :: ns =>
    match mergedFieldsOf? false n, itemFields? ns with
    | some fs, some later => some (mergeFields fs later)
    | _, _ => none

/-- The fields that the merge keys among some entries refer to. -/
def mergedFields? : List (Key × Node) → Option Fields
  | [] => some []
  | (k, n) :: es =>
    match mergedFieldsOf? true n, mergedFields? es with
    | fs, some later => if k.text = mergeKey then fs.map (mergeFields · later) else some later
    | _, none => none

end

/-- The fields of a mapping, with those that its merge key refers to. -/
def Node.fields? (n : Node) : Option Fields :=
  mergedFieldsOf? false n

end ClientRegen.Yaml
