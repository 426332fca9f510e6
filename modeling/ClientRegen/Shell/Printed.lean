/-!
# Printed text

What the shell's two printing commands write: a format whose conversions are filled by arguments,
and words with blanks between them, in both of which a backslash introduces an escape.

* A format is used again as long as arguments are left, provided that it takes any.
-/

namespace ClientRegen.Shell

/-- A part of a format. -/
inductive FormatPart where
  /-- Bytes that are written as they are. -/
  | bytes (bytes : List UInt8)
  /-- The next argument, converted. -/
  | argument (conversion : Char)
deriving Repr

/-- The bytes of a character. -/
def charBytes (c : Char) : List UInt8 :=
  (String.singleton c).toUTF8.toList

/-- Whether a character is an octal digit. -/
def isOctal (c : Char) : Bool :=
  '0' ≤ c && c ≤ '7'

/-- The byte that octal digits write. -/
def octalByte (digits : List Char) : UInt8 :=
  (digits.foldl (fun n c => n * 8 + (c.toNat - '0'.toNat)) 0).toUInt8

/-- The byte that a letter after a backslash stands for. -/
def escapeLetter? : Char → Option UInt8
  | 'a' => some 7
  | 'b' => some 8
  | 'f' => some 12
  | 'n' => some 10
  | 'r' => some 13
  | 't' => some 9
  | 'v' => some 11
  | '\\' => some 92
  | _ => none

/-- The bytes of a text with its escapes undone. `digits` are the octal digits after a backslash
that were read so far, none outside an escape. -/
def unescapeFrom : Option (List Char) → List Char → List UInt8
  | none, [] => []
  | none, '\\' :: cs => unescapeFrom (some []) cs
  | none, c :: cs => charBytes c ++ unescapeFrom none cs
  | some [], [] => [92]
  | some digits, [] => [octalByte digits]
  | some [], c :: cs =>
    if isOctal c then unescapeFrom (some [c]) cs
    else
      match escapeLetter? c with
      | some b => b :: unescapeFrom none cs
      | none => 92 :: charBytes c ++ unescapeFrom none cs
  | some digits, c :: cs =>
    if isOctal c ∧ digits.length < (if digits.head? = some '0' then 4 else 3) then
      unescapeFrom (some (digits ++ [c])) cs
    else
      octalByte digits ::
        (if c = '\\' then unescapeFrom (some []) cs else charBytes c ++ unescapeFrom none cs)

/-- The bytes of a text with its escapes undone. -/
def unescape (cs : List Char) : List UInt8 :=
  unescapeFrom none cs

/-- The parts of a format, with the text in front that was read so far, latest character first. -/
def formatFrom : List Char → List Char → List FormatPart
  | text, [] => [.bytes (unescape text.reverse)]
  | text, '%' :: '%' :: cs => formatFrom ('%' :: text) cs
  | text, '%' :: c :: cs => .bytes (unescape text.reverse) :: .argument c :: formatFrom [] cs
  | text, c :: cs => formatFrom (c :: text) cs

/-- The parts of a format. -/
def formatParts (format : String) : List FormatPart :=
  formatFrom [] format.toList

/-- An argument converted. -/
def converted (conversion : Char) (argument : String) : List UInt8 :=
  if conversion = 'b' then unescape argument.toList
  else if conversion = 'c' then (argument.toList.take 1).flatMap charBytes
  else if conversion = 'd' ∨ conversion = 'i' then
    (toString ((argument.toInt?).getD 0)).toUTF8.toList
  else argument.toUTF8.toList

/-- Parts of a format filled with arguments, and the arguments that are left. A missing argument
counts as empty. -/
def fill : List FormatPart → List String → List UInt8 × List String
  | [], args => ([], args)
  | .bytes bs :: ps, args => let r := fill ps args; (bs ++ r.1, r.2)
  | .argument c :: ps, args =>
    let r := fill ps args.tail
    (converted c (args.head?.getD "") ++ r.1, r.2)

/-- Whether a part of a format takes an argument. -/
def FormatPart.takesArgument : FormatPart → Bool
  | .argument _ => true
  | .bytes _ => false

/-- A format used until no arguments are left. `fuel` is at least the number of arguments. -/
def fillAll (parts : List FormatPart) : Nat → List String → List UInt8
  | 0, _ => []
  | fuel + 1, args =>
    match fill parts args with
    | (bytes, []) => bytes
    | (bytes, left) =>
      if parts.any (·.takesArgument) then bytes ++ fillAll parts fuel left else bytes

/-- What a format and arguments print. -/
def printed (format : String) (args : List String) : List UInt8 :=
  fillAll (formatParts format) (args.length + 1) args

/-- What words print that are written out with blanks between them; a first word `-n` leaves out
the end of the line. -/
def echoed : List String → List UInt8
  | "-n" :: words => unescape (String.intercalate " " words).toList
  | words => unescape (String.intercalate " " words).toList ++ [10]

end ClientRegen.Shell
