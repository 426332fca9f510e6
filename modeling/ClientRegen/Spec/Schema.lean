import ClientRegen.Document.Value
import ClientRegen.EnumMetadata
import ClientRegen.Text.Blank
/-!
# Enum schemas

A schema declares an enum by a list of permitted values, with parallel lists for descriptions and
member names, or by a list of alternatives that are constants.

* A description that is blank counts as missing, and the value describes itself.
* A schema with a list of values is read by that list, whatever else it holds.
-/

namespace ClientRegen

/-- Why a schema declares no enum that can be used. -/
inductive SchemaFault where
  /-- A permitted value is a list or an object. -/
  | compositeValue (typeName : String) (index : Nat)
  /-- An alternative is no constant. -/
  | notConstant (typeName : String)
  /-- An alternative's constant is a list or an object. -/
  | compositeConstant (typeName : String)
  /-- Neither a list of values nor one of alternatives is there. -/
  | noEnum (typeName : String)
deriving DecidableEq, Repr

/-- The text of a fault. -/
def SchemaFault.message : SchemaFault → String
  | compositeValue typeName index =>
    "enum " ++ typeName ++ " has a non-scalar value at index " ++ toString index
  | notConstant typeName => "oneOf in " ++ typeName ++ " is not a list of constants"
  | compositeConstant typeName => "enum " ++ typeName ++ " has a non-scalar constant"
  | noEnum typeName => "schema " ++ typeName ++ " does not declare an enum"

namespace Schema

/-- The items of a field that is a list. -/
def listField? (schema : Value) (key : String) : Option (List Value) :=
  (schema.field? key).bind Value.items?

/-- The texts of the first of some fields that is a list; a composite item counts as empty. -/
def texts (schema : Value) (keys : List String) : List String :=
  ((keys.findSome? (listField? schema)).getD []).map fun v => v.scalarText?.getD ""

/-- The entries of a list of values that starts at an index, with the descriptions and names from
that index on. -/
def entriesFrom (typeName : String) (index : Nat) (descriptions names : List String) :
    List Value → Except SchemaFault (List EnumEntry)
  | [] => .ok []
  | v :: vs =>
    match v.scalarText? with
    | none => .error (.compositeValue typeName index)
    | some raw =>
      match entriesFrom typeName (index + 1) (descriptions.drop 1) (names.drop 1) vs with
      | .error f => .error f
      | .ok es =>
        .ok (⟨raw, (meaningful? descriptions.head?).getD raw, names.head?.filter (· ≠ "")⟩ :: es)

/-- The constant of an alternative: given as such, or as the only value of a list. -/
def constant? (alternative : Value) : Option Value :=
  match alternative.field? "const" with
  | some v => some v
  | none =>
    match listField? alternative "enum" with
    | some [v] => some v
    | _ => none

/-- The text of a field that is a string. -/
def stringField? (v : Value) (key : String) : Option String :=
  (v.field? key).bind Value.string?

/-- The entry of an alternative: its title names the member, and describes it if there is no
description. -/
def alternativeEntry (typeName : String) (alternative : Value) : Except SchemaFault EnumEntry :=
  match constant? alternative with
  | none => .error (.notConstant typeName)
  | some v =>
    match v.scalarText? with
    | none => .error (.compositeConstant typeName)
    | some raw =>
      let title := stringField? alternative "title"
      .ok ⟨raw, ((stringField? alternative "description").or title).getD raw, title⟩

/-- The enum that a schema declares under a type's name. -/
def enum (typeName : String) (schema : Value) : Except SchemaFault EnumMetadata :=
  match listField? schema "enum" with
  | some values =>
    let names := texts schema ["x-enum-varnames", "x-enumNames"]
    let descriptions := texts schema ["x-enum-descriptions", "x-enumDescriptions"]
    (entriesFrom typeName 0 descriptions names values).map fun es => ⟨typeName, es⟩
  | none =>
    match listField? schema "oneOf" with
    | some alternatives =>
      (alternatives.mapM (alternativeEntry typeName)).map fun es => ⟨typeName, es⟩
    | none => .error (.noEnum typeName)

end Schema
end ClientRegen
