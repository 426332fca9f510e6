/-!
# Blanks, lines and words

A blank is a character that Unicode calls white space. Trimming, splitting into words and asking
whether a text says anything at all go by this one class; splitting into lines goes by the line
feed alone.

* `lines` drops the line feed that ends a line and one carriage return right before it, and
  nothing else.
* `words` never yields an empty word.
-/

namespace ClientRegen.Text

/-- The characters with the Unicode property White_Space. -/
def isBlank (c : Char) : Bool :=
  let n := c.toNat
  (0x09 ≤ n && n ≤ 0x0D) || n == 0x20 || n == 0x85 || n == 0xA0 || n == 0x1680 ||
    (0x2000 ≤ n && n ≤ 0x200A) || n == 0x2028 || n == 0x2029 || n == 0x202F || n == 0x205F ||
    n == 0x3000

/-- The text without the blanks at its start. -/
def trimStart (cs : List Char) : List Char :=
  cs.dropWhile isBlank

/-- The text without the blanks at its end. -/
def trimEnd : List Char → List Char
  | [] => []
  | c :: cs =>
    match trimEnd cs with
    | [] => if isBlank c then [] else [c]
    | d :: ds => c :: d :: ds

/-- The text without the blanks at either end. -/
def trim (cs : List Char) : List Char :=
  trimEnd (trimStart cs)

/-- A text is blank when it holds nothing but blanks. -/
def allBlank (cs : List Char) : Bool :=
  cs.all isBlank

/-- The text between line feeds, each piece without its line feed; the last piece is what follows
the last line feed, and is empty when nothing does. -/
def splitLines : List Char → List (List Char)
  | [] => [[]]
  | c :: cs =>
    if c = '\n' then [] :: splitLines cs
    else
      match splitLines cs with
      | [] => [[c]]
      | l :: ls => (c :: l) :: ls

/-- Drops one carriage return from the end of a line. -/
def dropReturn (l : List Char) : List Char :=
  match l.getLast? with
  | some '\r' => l.dropLast
  | _ => l

/-- Pairs off the lines that a line feed ended from the piece that none did. -/
def finishLines : List (List Char) → List (List Char)
  | [] => []
  | [last] => if last = [] then [] else [last]
  | l :: m :: ls => dropReturn l :: finishLines (m :: ls)

/-- The lines of a text: what lies before each line feed, without one carriage return at its end,
and then what follows the last line feed if it is not empty. -/
def lines (cs : List Char) : List (List Char) :=
  finishLines (splitLines cs)

/-- Splits at blanks, with the word being read in front. -/
def wordsFrom : List Char → List Char → List (List Char)
  | [], [] => []
  | w, [] => [w.reverse]
  | w, c :: cs =>
    if isBlank c then
      match w with
      | [] => wordsFrom [] cs
      | _ => w.reverse :: wordsFrom [] cs
    else wordsFrom (c :: w) cs

/-- The longest runs of characters that are not blank, in order. -/
def words (cs : List Char) : List (List Char) :=
  wordsFrom [] cs

end ClientRegen.Text

namespace ClientRegen

/-- Whether a text holds nothing but blanks. -/
def isBlankText (s : String) : Bool :=
  Text.allBlank s.toList

/-- The text, unless it holds nothing but blanks. -/
def meaningful? (s : Option String) : Option String :=
  s.filter fun t => !isBlankText t

/-- The text without the blanks at either end. -/
def trimText (s : String) : String :=
  String.ofList (Text.trim s.toList)

/-- The text without the blanks at its end. -/
def trimTextEnd (s : String) : String :=
  String.ofList (Text.trimEnd s.toList)

end ClientRegen
