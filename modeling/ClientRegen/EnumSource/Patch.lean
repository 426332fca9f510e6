import ClientRegen.EnumMetadata
import ClientRegen.EnumSource.Member
/-!
# Labelling the members of an enum

The body of an enum written anew with what a schema says: before each member a comment with the
label of its value, and the key renamed where the schema names the member. Everything outside the
body stays as it is, and so do the values and their order.

* `patch` refuses a source whose values are not those of the schema, and changes nothing then.
-/

namespace ClientRegen.EnumSource

/-- A line of a comment. -/
def commentLine (indent line : List Char) : List Char :=
  if Text.allBlank line then indent ++ [' ', '*', '\n']
  else indent ++ [' ', '*', ' '] ++ Text.trimEnd line ++ ['\n']

/-- A label whose text cannot close the comment it stands in. -/
def defuse (label : List Char) : List Char :=
  Text.replaceAll ['*', '/'] ['*', '\\', '/'] label

/-- A label as a comment on lines of its own. -/
def labelComment (label indent : List Char) : List Char :=
  indent ++ ['/', '*', '*', '\n'] ++
    (Text.lines (defuse label)).flatMap (commentLine indent) ++
    indent ++ [' ', '*', '/', '\n']

/-- Whether a line, without the blanks at its start, holds something that is not a comment's. -/
def isMemberLine (trimmed : List Char) : Bool :=
  match trimmed with
  | [] => false
  | '*' :: _ => false
  | '/' :: '*' :: _ => false
  | '/' :: '/' :: _ => false
  | _ => true

/-- The indentation of members: that of the first line that is not a comment's. -/
def memberIndent (body : List Char) : List Char :=
  match (Text.lines body).find? fun line => isMemberLine (Text.trimStart line) with
  | some line => line.takeWhile Text.isBlank
  | none => [' ', ' ', ' ', ' ']

/-- The blanks that may follow the last comma. -/
def isPlainBlank (c : Char) : Bool :=
  c == ' ' || c == '\t' || c == '\n' || c == '\r' || c.toNat == 0x0C

/-- Whether a lexeme says something: it is neither a comment nor a blank. -/
def Lexeme.isTelling : Lexeme → Bool
  | literal _ => true
  | comment _ => false
  | plain c => !isPlainBlank c

/-- Whether a comma follows the last member. -/
def hasTrailingComma (body : List Char) : Bool :=
  ((lexemes body).filter (·.isTelling)).getLast? == some (.plain ',')

/-- The blanks before the closing brace, if nothing else stands on its line. -/
def closingIndent (before : List Char) : List Char :=
  let line := (before.reverse.takeWhile (· ≠ '\n')).reverse
  if Text.allBlank line then line else []

/-- The entry of the schema for a member. -/
def entryFor? (m : EnumMetadata) (member : Member) : Option EnumEntry :=
  m.get? (String.ofList member.raw)

/-- The key of a member in the new body. -/
def newKey (e : EnumEntry) (member : Member) : List Char :=
  match e.name with
  | some name => memberKey name.toList
  | none => member.key

/-- A member in the new body, under its comment. -/
def renderMember (e : EnumEntry) (indent : List Char) (comma : Bool) (member : Member) :
    List Char :=
  labelComment e.label.toList indent ++ indent ++ newKey e member ++
    (if member.separator = '=' then [' '] else []) ++ [member.separator, ' '] ++ member.literal ++
    (if comma then [','] else []) ++ ['\n']

/-- The members of the new body. All but the last are followed by a comma, and the last is if it
was. -/
def renderMembers (m : EnumMetadata) (indent : List Char) (trailing : Bool) :
    List Member → Except SourceFault (List Char)
  | [] => .ok []
  | member :: rest =>
    match entryFor? m member with
    | none => .error (.vanished (String.ofList member.raw))
    | some e =>
      match renderMembers m indent trailing rest with
      | .error f => .error f
      | .ok text =>
        .ok (renderMember e indent (!rest.isEmpty || trailing) member ++ text)

/-- The first fault between the members of a source and the entries of a schema: a value that is
not declared comes before values that are missing. -/
def valueFault? (m : EnumMetadata) (ms : List Member) : Option SourceFault :=
  match ms.find? fun member => (entryFor? m member).isNone with
  | some member => some (.undeclared (String.ofList member.raw) m.typeName)
  | none =>
    match m.entries.filter fun e => !ms.any fun member => member.raw == e.raw.toList with
    | [] => none
    | es => some (.missing m.typeName (es.map (·.raw)))

/-- A source whose enum carries the labels and names of a schema. -/
def patch (source : List Char) (m : EnumMetadata) : Except SourceFault (List Char) := do
  let d ← findDeclaration source
  let ms ← members d.body
  match valueFault? m ms with
  | some fault => .error fault
  | none =>
    let text ← renderMembers m (memberIndent d.body) (hasTrailingComma d.body) ms
    let patched := d.head ++ '\n' :: text ++ closingIndent (d.head ++ d.body) ++ d.tail
    let after ← rawValues patched
    if ms.map (·.raw) = after then .ok patched else .error (.changed m.typeName)

end ClientRegen.EnumSource

namespace ClientRegen

/-- The values of the first enum of a source, in order. -/
def enumRawValues (source : String) : Except SourceFault (List String) :=
  match EnumSource.rawValues source.toList with
  | .ok raws => .ok (raws.map String.ofList)
  | .error f => .error f

/-- A source whose enum carries the labels and names of a schema. -/
def patchEnumSource (source : String) (m : EnumMetadata) : Except SourceFault String :=
  match EnumSource.patch source.toList m with
  | .ok text => .ok (String.ofList text)
  | .error f => .error f

end ClientRegen
