import ClientRegen.Yaml.Node
import ClientRegen.Yaml.StrictTokens
import ClientRegen.Yaml.Tokens
/-!
# YAML documents

A text is a document only if it is one in both readings. What it says is what the lenient reading
says.

* A document with a hundred references or more may have at most ten for each anchor.
-/

namespace ClientRegen.Yaml

/-- The least number of references for which their share is looked at. -/
def manyReferences : Nat := 100

/-- How many references there may be for each anchor once there are many. -/
def referencesPerAnchor : Nat := 10

/-- Whether some tokens hold many references to few anchors. -/
def refersTooOften (ts : List Token) : Bool :=
  let references := ts.countP fun t => match t with | .alias _ => true | _ => false
  let anchors := ts.countP fun t => match t with | .anchor _ => true | _ => false
  manyReferences ≤ references && referencesPerAnchor * anchors < references

/-- Whether a text is a document in the strict reading. -/
def isStrict (cs : List Char) : Bool :=
  match Strict.tokens? cs with
  | some ts => !refersTooOften ts && (Node.ofTokens? ts).isSome
  | none => false

/-- The root node of a text. -/
def Node.parse? (s : String) : Option Node :=
  let cs := afterMark s.toList
  if isStrict cs then (tokens? cs).bind Node.ofTokens? else none

end ClientRegen.Yaml
