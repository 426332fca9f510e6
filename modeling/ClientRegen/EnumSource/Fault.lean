import ClientRegen.Text.Quoted
/-!
# Faults of an enum source

Why the enum of a source cannot be read, or cannot be given the labels of a schema.
-/

namespace ClientRegen

/-- Why an enum source is refused. -/
inductive SourceFault where
  /-- No line declares an enum. -/
  | noDeclaration
  /-- An equals sign is missing, or stands where none belongs. -/
  | malformedDeclaration
  /-- The body is never closed. -/
  | unterminated
  /-- A member has no separator. -/
  | noValue (member : String)
  /-- A member's key or value is empty. -/
  | malformedMember (member : String)
  /-- The schema does not declare a member's value. -/
  | undeclared (raw typeName : String)
  /-- No member has some values of the schema. -/
  | missing (typeName : String) (raws : List String)
  /-- A member's value was declared and is not any more. -/
  | vanished (raw : String)
  /-- The new text would not have the values of the old one. -/
  | changed (typeName : String)
deriving DecidableEq, Repr

/-- The text of a fault. -/
def SourceFault.message : SourceFault → String
  | noDeclaration => "no enum declaration found"
  | malformedDeclaration => "malformed enum declaration"
  | unterminated => "unterminated enum declaration"
  | noValue member => "enum member without a value: " ++ member
  | malformedMember member => "malformed enum member: " ++ member
  | undeclared raw typeName =>
    "value " ++ Text.quoted raw ++ " is not declared by schema " ++ typeName
  | missing typeName raws =>
    "schema " ++ typeName ++ " declares values missing from the generated enum: " ++
      String.intercalate ", " raws
  | vanished raw => "value " ++ Text.quoted raw ++ " vanished during patching"
  | changed typeName => "patching would change the values of " ++ typeName

end ClientRegen
