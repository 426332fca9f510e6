import ClientRegen.Text.LetterCase
/-!
# Type names

A generated file is named after the type it declares, in words joined by separators; the type is
named in Pascal case; and a specification may spell the same name in yet another way.
`typeNameKey` is what all spellings of one name share.

* `pascalCase` keeps each letter and digit of an ASCII name, in order, up to its case.
* `typeNameKey` keeps ASCII letters and digits only, in lower case.
-/

namespace ClientRegen.Text

/-- The characters that separate the words of a file name. -/
def isSeparator (c : Char) : Bool :=
  c == ' ' || c == '-' || c == '_'

/-- Pascal case from inside a name. `capital` says that a character starts a word and is put in
upper case, whatever it is. Otherwise a separator is dropped, and the next character starts a word;
a character after a lower-case one is kept; any other is put in lower case. -/
def pascalFrom (capital : Bool) (previous : Char) : List Char → List Char
  | [] => []
  | c :: cs =>
    if capital then upperForm c ++ pascalFrom false c cs
    else if isSeparator c then pascalFrom true c cs
    else (if isLowercase previous then [c] else lowerForm c) ++ pascalFrom false c cs

/-- Pascal case: the first character starts a word. -/
def pascalCase (cs : List Char) : List Char :=
  pascalFrom true ' ' cs

/-- What all spellings of a name share: its ASCII letters and digits, in lower case. -/
def nameKey (cs : List Char) : List Char :=
  (cs.filter Char.isAlphanum).map Char.toLower

end ClientRegen.Text

namespace ClientRegen

/-- What all spellings of a type's name share. -/
def typeNameKey (name : String) : String :=
  String.ofList (Text.nameKey name.toList)

/-- The end of the name of a file that declares an enum, in any mix of cases. -/
def enumFileSuffix : List Char :=
  ['-', 'e', 'n', 'u', 'm', '.', 't', 's']

/-- The name of the enum that a file of this name declares, if it is named as enum files are and
something stands before the suffix. -/
def enumTypeName? (fileName : String) : Option String :=
  let cs := fileName.toList
  let stem := cs.take (cs.length - enumFileSuffix.length)
  let ending := cs.drop (cs.length - enumFileSuffix.length)
  if ending.map Char.toLower = enumFileSuffix ∧ stem ≠ [] then
    some (String.ofList (Text.pascalCase stem))
  else none

end ClientRegen
