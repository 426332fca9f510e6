/-!
# YAML tokens

What the text of a YAML stream is made of, before nodes are put together. Indentation shows as
tokens that begin and end block collections, so that after scanning no place in the text matters.
-/

namespace ClientRegen.Yaml

/-- A token of a stream. -/
inductive Token where
  /-- The version line before a document. -/
  | version
  /-- A line before a document that gives a tag handle its meaning. -/
  | handle (name : String) (meaning : String)
  /-- The mark that starts a document. -/
  | documentStart
  /-- The mark that ends a document. -/
  | documentEnd
  /-- The start of a list by indentation. -/
  | blockSequenceStart
  /-- The start of a mapping by indentation. -/
  | blockMappingStart
  /-- The end of a collection by indentation. -/
  | blockEnd
  /-- An opening square bracket. -/
  | flowSequenceStart
  /-- A closing square bracket. -/
  | flowSequenceEnd
  /-- An opening brace. -/
  | flowMappingStart
  /-- A closing brace. -/
  | flowMappingEnd
  /-- The dash before an item. -/
  | blockEntry
  /-- The comma between items. -/
  | flowEntry
  /-- The start of a key, written or implied. -/
  | key
  /-- The colon before a value. -/
  | value
  /-- A reference to an anchored node. -/
  | alias (name : String)
  /-- A name for the node that follows. -/
  | anchor (name : String)
  /-- A tag for the node that follows, as a handle and a suffix. -/
  | tag (handle : String) (suffix : String)
  /-- A scalar's text, and whether it was written without quotes on its own. -/
  | scalar (text : String) (plain : Bool)
  /-- The end of the stream. -/
  | streamEnd
deriving DecidableEq, Repr

/-- Whether a token is among some. -/
def Token.isOneOf (t : Token) (ts : List Token) : Bool :=
  ts.contains t

/-- Whether a token gives a tag handle its meaning. -/
def Token.isHandle : Token → Bool
  | handle _ _ => true
  | _ => false

end ClientRegen.Yaml
