import ClientRegen.Fields
import ClientRegen.Number.Basic
import ClientRegen.Text.Replace
/-!
# Document values

What a document holds once its syntax is read: scalars, lists, and objects whose fields keep their
order. A pointer names a value inside another by the keys and indices that lead to it.
-/

namespace ClientRegen

/-- A value of a document. The fields of an object keep the order in which they were written, and
no key occurs twice. -/
inductive Value where
  /-- The missing value. -/
  | null
  /-- A truth value. -/
  | bool (value : Bool)
  /-- A number. -/
  | number (value : Number)
  /-- A text. -/
  | string (value : String)
  /-- A list. -/
  | array (items : List Value)
  /-- Named fields. -/
  | object (fields : List (String × Value))
deriving Inhabited

namespace Value

/-- The field of an object with a given key. -/
def field? (key : String) : Value → Option Value
  | object fields => fields.lookup key
  | _ => none

/-- The text of a string. -/
def string? : Value → Option String
  | string s => some s
  | _ => none

/-- The items of a list. -/
def items? : Value → Option (List Value)
  | array items => some items
  | _ => none

/-- The fields of an object. -/
def fields? : Value → Option (List (String × Value))
  | object fields => some fields
  | _ => none

/-- Whether a value has named fields. -/
def isObject : Value → Bool
  | object _ => true
  | _ => false

/-- The text of a scalar: a string is its own text, any other scalar is written out. -/
def scalarText? : Value → Option String
  | null => some "null"
  | bool b => some (if b then "true" else "false")
  | number n => some n.text
  | string s => some s
  | array _ => none
  | object _ => none

/-- A list index: decimal digits without a leading zero. -/
def index? (step : List Char) : Option Nat :=
  match step with
  | [] => none
  | ['0'] => some 0
  | '0' :: _ => none
  | _ =>
    if step.all Char.isDigit then
      let n := step.foldl (fun n c => n * 10 + (c.toNat - '0'.toNat)) 0
      if n < wordLimit then some n else none
    else none

/-- One step of a pointer: into an object by key, into a list by index. -/
def step? (step : List Char) : Value → Option Value
  | object fields => fields.lookup (String.ofList step)
  | array items => (index? step).bind (items[·]?)
  | _ => none

/-- A pointer's step with its escapes undone: a slash is written `~1`, a tilde `~0`. -/
def unescapeStep (step : List Char) : List Char :=
  Text.replaceAll ['~', '0'] ['~'] (Text.replaceAll ['~', '1'] ['/'] step)

/-- The value that a pointer names. The empty pointer names the whole; any other starts with a
slash, and slashes separate its steps. -/
def at? (pointer : String) (value : Value) : Option Value :=
  match pointer.toList with
  | [] => some value
  | '/' :: steps => (Text.splitAt '/' steps).foldlM (fun v s => step? (unescapeStep s) v) value
  | _ => none

end Value
end ClientRegen
