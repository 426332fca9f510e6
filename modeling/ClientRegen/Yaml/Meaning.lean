import ClientRegen.Document.Value
import ClientRegen.Text.Base64
import ClientRegen.Yaml.Document
/-!
# The meaning of YAML nodes

A plain scalar without a tag stands for nothing, a truth value, a number or a text, by its
spelling; in quotes it is a text. A tag of the common set asks for one kind of value; a tag of an
application's own is refused.

* An integer that fits 128 bits but not 64 is refused; a greater one is read as a real.
* Keys are texts: the key of an entry is its scalar's text whatever it looks like. No key may be
  written out twice. One that is referred to may repeat another, whose place it takes.
-/

namespace ClientRegen.Yaml

/-- The spellings of nothing. -/
def isNull (s : String) : Bool :=
  s == "" || s == "~" || s == "null" || s == "Null" || s == "NULL"

/-- The truth value that a text spells, in any mix of cases. -/
def bool? (s : String) : Option Bool :=
  match s.toList.map Char.toLower with
  | ['t', 'r', 'u', 'e'] => some true
  | ['f', 'a', 'l', 's', 'e'] => some false
  | _ => none

/-- Digits after a leading zero are no number. -/
def zeroPadded (cs : List Char) : Bool :=
  let unsigned :=
    match cs with
    | '-' :: r => r
    | '+' :: r => r
    | r => r
  match unsigned with
  | '0' :: d :: ds => (d :: ds).all Char.isDigit
  | _ => false

/-- The natural that digits of a base write; there is at least one digit. -/
def natural? (base : Nat) (cs : List Char) : Option Nat :=
  if cs.isEmpty then none
  else
    cs.foldlM (fun n c =>
      match hexValue? c with
      | some d => if d < base then some (n * base + d) else none
      | none => none) 0

/-- The base that a text announces, and the digits after the announcement. -/
def announced? : List Char → Option (Nat × List Char)
  | '0' :: 'x' :: r => some (16, r)
  | '0' :: 'o' :: r => some (8, r)
  | '0' :: 'b' :: r => some (2, r)
  | _ => none

/-- The natural that unsigned digits write, in the announced base or in decimal. -/
def magnitude? (cs : List Char) : Option Nat :=
  match announced? cs with
  | some (base, digits) => natural? base digits
  | none => if zeroPadded cs then none else natural? 10 cs

/-- The integer that a text writes. -/
def integer? (cs : List Char) : Option Int :=
  match cs with
  | '-' :: r => (magnitude? r).map fun n => -(n : Int)
  | '+' :: r => (magnitude? r).map fun n => (n : Int)
  | r => (magnitude? r).map fun n => (n : Int)

/-- Whether an integer fits a number of bits, signed or unsigned. -/
def fitsBits (bits : Nat) (n : Int) : Bool :=
  -(twoTo (bits - 1) : Int) ≤ n && n < (twoTo bits : Int)

/-- The number that decimal digits write. -/
def decimalValue (ds : List Char) : Nat :=
  ds.foldl (fun n c => n * 10 + (c.toNat - '0'.toNat)) 0

/-- The exponent after a number's digits: none, or a mark, a sign and digits. -/
def exponent? : List Char → Option Int
  | [] => some 0
  | c :: cs =>
    if c = 'e' ∨ c = 'E' then
      let (negative, ds) : Bool × List Char :=
        match cs with
        | '-' :: r => (true, r)
        | '+' :: r => (false, r)
        | r => (false, r)
      if ds.isEmpty ∨ !ds.all Char.isDigit then none
      else some (if negative then -(decimalValue ds : Int) else decimalValue ds)
    else none

/-- The magnitude of a decimal number: digits with at most one point, and an exponent. -/
def decimal? (cs : List Char) : Option Binary64 :=
  let (whole, rest) := cs.span Char.isDigit
  let (fraction, rest) : List Char × List Char :=
    match rest with
    | '.' :: r => r.span Char.isDigit
    | r => ([], r)
  if whole.isEmpty ∧ fraction.isEmpty then none
  else
    match exponent? rest with
    | none => none
    | some e => Binary64.ofDecimal? (decimalValue (whole ++ fraction)) (e - fraction.length)

/-- The spellings of infinity and of no number at all, which a document cannot hold. -/
def isUnbounded (s : String) : Bool :=
  [".inf", ".Inf", ".INF", "+.inf", "+.Inf", "+.INF", "-.inf", "-.Inf", "-.INF", ".nan", ".NaN",
    ".NAN"].contains s

/-- The value of a text that writes a decimal number; a number too great for binary floating point
is none. -/
def real? (s : String) : Option Value :=
  if isUnbounded s then some .null
  else
    match s.toList with
    | '-' :: r => (decimal? r).map fun x => .number (.real true x)
    | '+' :: r => (decimal? r).map fun x => .number (.real false x)
    | r => (decimal? r).map fun x => .number (.real false x)

/-- The value that a plain scalar without a tag stands for. -/
def plainValue? (s : String) : Option Value :=
  let other : Value := if zeroPadded s.toList then .string s else (real? s).getD (.string s)
  if isNull s then some .null
  else
    match bool? s with
    | some b => some (.bool b)
    | none =>
      match integer? s.toList with
      | some n =>
        if fitsBits 64 n then some (.number (.integer n))
        else if fitsBits 128 n then none
        else some other
      | none => some other

/-- The tags of the common set begin so. -/
def commonTag (name : String) : String :=
  "tag:yaml.org,2002:" ++ name

/-- Whether a tag is an application's own. -/
def isOwnTag (tag : Option String) : Bool :=
  tag.any fun t => t.toList.head? == some '!'

/-- The truth value that a text spells where one is asked for; more words do then, in any mix of
cases. -/
def boolWord? (s : String) : Option Bool :=
  let word := String.ofList (s.toList.map Char.toLower)
  if ["true", "yes", "y", "on"].contains word then some true
  else if ["false", "no", "n", "off"].contains word then some false
  else none

/-- The bytes that a text writes in base 64, blanks left out, as a list of numbers. -/
def bytes? (s : String) : Option Value :=
  (Text.decodeBase64? (s.toList.filter fun c => !Text.isBlank c)).map fun bs =>
    Value.array (bs.map fun (b : Nat) => .number (.integer b))

/-- The value that a scalar stands for. -/
def scalarValue? (tag : Option String) (plain : Bool) (text : String) : Option Value :=
  match tag with
  | none => if plain then plainValue? text else some (.string text)
  | some t =>
    if isOwnTag tag then none
    else if t = commonTag "bool" then (boolWord? text).map .bool
    else if t = commonTag "int" then
      (integer? text.toList).bind fun n =>
        if fitsBits 64 n then some (.number (.integer n)) else none
    else if t = commonTag "float" then real? text
    else if t = commonTag "null" then if plain ∧ isNull text then some .null else none
    else if t = commonTag "binary" then bytes? text
    else some (.string text)

/-- The text of a scalar, whatever it looks like. -/
def Node.text? : Node → Option String
  | .scalar _ _ text => some text
  | _ => none

/-- Whether a key is written out twice among some entries. -/
def repeatsKey : List (Key × Node) → Bool
  | [] => false
  | (k, _) :: es =>
    (k.written && es.any fun e => e.1.written && e.1.text == k.text) || repeatsKey es

mutual

/-- The value that a node stands for. -/
def Node.value? : Node → Option Value
  | .scalar tag plain text => scalarValue? tag plain text
  | .sequence tag items =>
    if isOwnTag tag then none else (itemValues? items).map .array
  | .mapping tag entries =>
    if isOwnTag tag ∨ repeatsKey entries then none
    else (entryValues? entries).map fun fields => .object (fieldsOf fields)

/-- The values of items. -/
def itemValues? : List Node → Option (List Value)
  | [] => some []
  | n :: ns =>
    match n.value?, itemValues? ns with
    | some v, some vs => some (v :: vs)
    | _, _ => none

/-- The values of entries under their keys. -/
def entryValues? : List (Key × Node) → Option (List (String × Value))
  | [] => some []
  | (k, n) :: es =>
    match n.value?, entryValues? es with
    | some v, some fs => some ((k.text, v) :: fs)
    | _, _ => none

end

/-- The value of a text that is YAML from end to end. -/
def parse? (s : String) : Option Value :=
  (Node.parse? s).bind Node.value?

end ClientRegen.Yaml
