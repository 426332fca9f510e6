import ClientRegen.Document.Value
/-!
# Writing JSON

Document values as JSON text, on one line without spaces or spread over indented lines. Characters
beyond ASCII stand for themselves; only quotes, backslashes and control characters are escaped.
-/

namespace ClientRegen.Json

/-- The digit of a natural below sixteen. -/
def hexChar (n : Nat) : Char :=
  Nat.digitChar n

/-- One character inside a JSON string. -/
def escapeChar (c : Char) : List Char :=
  if c = '"' then ['\\', '"']
  else if c = '\\' then ['\\', '\\']
  else if c = '\n' then ['\\', 'n']
  else if c = '\r' then ['\\', 'r']
  else if c = '\t' then ['\\', 't']
  else if c.toNat = 8 then ['\\', 'b']
  else if c.toNat = 12 then ['\\', 'f']
  else if c.toNat < 0x20 then ['\\', 'u', '0', '0', hexChar (c.toNat / 16), hexChar (c.toNat % 16)]
  else [c]

/-- A text as a JSON string. -/
def stringText (s : String) : String :=
  String.ofList ('"' :: s.toList.flatMap escapeChar ++ ['"'])

/-- The text of a scalar. -/
def scalar : Value → String
  | .null => "null"
  | .bool b => if b then "true" else "false"
  | .number n => n.text
  | .string s => stringText s
  | .array _ => "[]"
  | .object _ => "\x7b\x7d"

mutual

/-- A value on one line without spaces. -/
def compact : Value → String
  | .array items => "[" ++ compactItems items ++ "]"
  | .object fields => "\x7b" ++ compactFields fields ++ "\x7d"
  | v => scalar v

/-- Items on one line. -/
def compactItems : List Value → String
  | [] => ""
  | [v] => compact v
  | v :: vs => compact v ++ "," ++ compactItems vs

/-- Fields on one line. -/
def compactFields : List (String × Value) → String
  | [] => ""
  | [(k, v)] => stringText k ++ ":" ++ compact v
  | (k, v) :: fs => stringText k ++ ":" ++ compact v ++ "," ++ compactFields fs

end

/-- The blanks at the start of a line at a given depth. -/
def margin (depth : Nat) : String :=
  String.ofList (List.replicate (2 * depth) ' ')

mutual

/-- A value spread over lines, two blanks further in at each depth. -/
def pretty (depth : Nat) : Value → String
  | .array (v :: vs) =>
    "[\n" ++ prettyItems (depth + 1) (v :: vs) ++ "\n" ++ margin depth ++ "]"
  | .object (f :: fs) =>
    "\x7b\n" ++ prettyFields (depth + 1) (f :: fs) ++ "\n" ++ margin depth ++ "\x7d"
  | v => scalar v

/-- Items, each on lines of its own. -/
def prettyItems (depth : Nat) : List Value → String
  | [] => ""
  | [v] => margin depth ++ pretty depth v
  | v :: vs => margin depth ++ pretty depth v ++ ",\n" ++ prettyItems depth vs

/-- Fields, each on lines of its own. -/
def prettyFields (depth : Nat) : List (String × Value) → String
  | [] => ""
  | [(k, v)] => margin depth ++ stringText k ++ ": " ++ pretty depth v
  | (k, v) :: fs =>
    margin depth ++ stringText k ++ ": " ++ pretty depth v ++ ",\n" ++ prettyFields depth fs

end
end ClientRegen.Json
