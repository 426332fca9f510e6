/-!
# What a schema says about an enum

The permitted values of an enum schema, each with the text that describes it and, if the schema
gives one, the name of its member.
-/

namespace ClientRegen

/-- One permitted value of an enum schema. -/
structure EnumEntry where
  /-- The value as text: a string is its own text, other scalars are written out. -/
  raw : String
  /-- What describes the value. -/
  label : String
  /-- The name of its member, if the schema gives one. -/
  name : Option String
deriving DecidableEq, Repr

/-- The permitted values of one enum type. -/
structure EnumMetadata where
  /-- The name of the type, as the document spells it. -/
  typeName : String
  /-- The values, in the order of the document. -/
  entries : List EnumEntry
deriving DecidableEq, Repr

/-- The first entry for a value. -/
def EnumMetadata.get? (m : EnumMetadata) (raw : String) : Option EnumEntry :=
  m.entries.find? fun e => e.raw == raw

end ClientRegen
