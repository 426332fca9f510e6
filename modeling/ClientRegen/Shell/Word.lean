/-!
# Shell words

Texts written so that a shell reads them back as one word each, and a line of words parted again.

* A text of characters that no shell interprets stays as it is; any other stands in single quotes,
  where only the single quote itself needs care: it ends the quotes, stands behind a backslash, and
  opens them again.
* `words?` reads blanks, single quotes and backslashes as a shell does.
-/

namespace ClientRegen.Shell

/-- Whether no shell gives a character a meaning of its own. -/
def isPlain (c : Char) : Bool :=
  c.isAlphanum || ['_', '-', '.', '/', '=', ',', ':', '@', '%', '+'].contains c

/-- A character inside single quotes. -/
def quotedChar (c : Char) : List Char :=
  if c = '\'' then ['\'', '\\', '\'', '\''] else [c]

/-- A word in the form in which a shell reads it back. -/
def quoteChars (word : List Char) : List Char :=
  if word ≠ [] ∧ word.all isPlain then word
  else '\'' :: word.flatMap quotedChar ++ ['\'']

/-- A text in the form in which a shell reads it back as one word. -/
def quote (text : String) : String :=
  String.ofList (quoteChars text.toList)

/-- Words as one line. -/
def commandLine (words : List String) : String :=
  String.intercalate " " (words.map quote)

/-- Whether a character parts words. -/
def isBlank (c : Char) : Bool :=
  c == ' ' || c == '\t' || c == '\n'

/-- The words of a line that goes on inside a word of which something was read, or between words.
Quotes have to be closed, and something has to follow a backslash. -/
def wordsFrom (quoted : Bool) (word : Option (List Char)) : List Char → Option (List (List Char))
  | [] => if quoted then none else some word.toList
  | c :: cs =>
    if c = '\'' then wordsFrom (!quoted) (some (word.getD [])) cs
    else if quoted then wordsFrom true (some (word.getD [] ++ [c])) cs
    else if c = '\\' then
      match cs with
      | [] => none
      | d :: ds => wordsFrom false (some (word.getD [] ++ [d])) ds
    else if isBlank c then (wordsFrom false none cs).map (word.toList ++ ·)
    else wordsFrom false (some (word.getD [] ++ [c])) cs

/-- The words of a line. -/
def words? (line : String) : Option (List String) :=
  (wordsFrom false none line.toList).map (·.map String.ofList)

end ClientRegen.Shell
