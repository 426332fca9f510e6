/-!
# Shell scripts

The part of the shell's language that generator scripts are written in: simple commands with
assignments and redirections, lists, loops, conditions and cases.

* A text is read character by character into tokens; `Lexing.step` is one such step.
* A word is a template of pieces, which are texts and variables, in quotes or not.
-/

namespace ClientRegen.Shell

/-- A piece of a word before expansion. -/
inductive Piece where
  /-- Text that stands for itself. -/
  | text (chars : List Char) (quoted : Bool)
  /-- The value of a variable. -/
  | variable (name : String) (quoted : Bool)
deriving DecidableEq, Repr

/-- A word before expansion. -/
abbrev Template := List Piece

/-- How a redirection uses its target. -/
inductive RedirectMode where
  /-- The file is emptied and written. -/
  | write
  /-- The file is written at its end. -/
  | append
  /-- The file is read. -/
  | read
  /-- The target is the number of another descriptor. -/
  | duplicate
deriving DecidableEq, Repr

/-- A redirection of a descriptor. -/
structure Redirect where
  /-- The descriptor. -/
  descriptor : Nat
  /-- How the target is used. -/
  mode : RedirectMode
  /-- The target. -/
  target : Template
deriving Repr

/-- A simple command: assignments, words and redirections, and the line it stands on. -/
structure SimpleCommand where
  /-- The line. -/
  line : Nat
  /-- The assignments before the words. -/
  assignments : List (String × Template)
  /-- The command's name and arguments. -/
  words : List Template
  /-- The redirections. -/
  redirects : List Redirect
deriving Repr

/-- A command. -/
inductive Command where
  /-- Nothing is done. -/
  | nothing
  /-- A simple command. -/
  | simple (command : SimpleCommand)
  /-- One command and then another. -/
  | sequence (first second : Command)
  /-- The second command only if the first one ends so: successfully, or not. -/
  | conditional (successfully : Bool) (first second : Command)
  /-- A command whose success counts as failure. -/
  | negation (body : Command)
  /-- A body that is repeated while a condition ends so. -/
  | loop (successfully : Bool) (condition body : Command)
  /-- A body for each of some words, or for each argument. -/
  | each (name : String) (words : Option (List Template)) (body : Command)
  /-- One of two commands, by a condition. -/
  | choice (condition yes no : Command)
  /-- The first command of whose patterns one fits a word. -/
  | cases (subject : Template) (branches : List (List Template × Command))
  /-- A command with redirections. -/
  | redirected (body : Command) (redirects : List Redirect)
deriving Inhabited

/-- A token of a script. -/
inductive Token where
  /-- A word, with the line it ends on. -/
  | word (line : Nat) (template : Template)
  /-- An operator. -/
  | operator (text : List Char)
  /-- A redirection operator and the descriptor before it. -/
  | redirection (descriptor : Option Nat) (text : List Char)
deriving Repr

/-- What the next character of a script continues. -/
inductive LexMode where
  /-- A line outside quotes. -/
  | plain
  /-- Single quotes. -/
  | single
  /-- Double quotes. -/
  | double
  /-- A backslash, in double quotes or not. -/
  | escape (quoted : Bool)
  /-- A dollar sign. -/
  | dollar (quoted : Bool)
  /-- The name of a variable, latest character first. -/
  | name (quoted : Bool) (chars : List Char)
  /-- The name of a variable in braces, latest character first. -/
  | braced (quoted : Bool) (chars : List Char)
  /-- An operator. -/
  | operator (descriptor : Option Nat) (chars : List Char)
  /-- A comment. -/
  | comment

/-- How far a script has been read. -/
structure Lexing where
  /-- The line. -/
  line : Nat
  /-- What the next character continues. -/
  mode : LexMode
  /-- The pieces of the word that is being read, latest first. -/
  word : Option Template
  /-- The tokens, latest first. -/
  tokens : List Token

namespace Lexing

/-- The start of a script. -/
def start : Lexing :=
  ⟨1, .plain, none, []⟩

/-- Whether a variable's name may start with a character. -/
def isNameStart (c : Char) : Bool :=
  c.isAlpha || c == '_'

/-- Whether a variable's name may go on with a character. -/
def isNameChar (c : Char) : Bool :=
  c.isAlphanum || c == '_'

/-- The variables whose names are one character that is no letter. -/
def specialNames : List Char :=
  ['#', '@', '*', '$', '?', '!', '-', '0', '1', '2', '3', '4', '5', '6', '7', '8', '9']

/-- The operators. -/
def operators : List (List Char) :=
  [[';'], [';', ';'], ['&'], ['&', '&'], ['|'], ['|', '|'], ['('], [')'], ['<'], ['>'],
    ['>', '>'], ['>', '&'], ['<', '&'], ['>', '|']]

/-- Adds text to the word. -/
def addText (s : Lexing) (chars : List Char) (quoted : Bool) : Lexing :=
  match s.word with
  | some (.text before q :: ps) =>
    if q = quoted then { s with word := some (.text (before ++ chars) q :: ps) }
    else { s with word := some (.text chars quoted :: .text before q :: ps) }
  | word => { s with word := some (.text chars quoted :: word.getD []) }

/-- Adds a variable to the word. -/
def addVariable (s : Lexing) (chars : List Char) (quoted : Bool) : Lexing :=
  { s with word := some (.variable (String.ofList chars.reverse) quoted :: s.word.getD []) }

/-- Ends the word, if one is being read. -/
def endWord (s : Lexing) : Lexing :=
  match s.word with
  | some ps => { s with word := none, tokens := .word s.line ps.reverse :: s.tokens }
  | none => s

/-- The descriptor that the word is, if it is digits. -/
def descriptor? (s : Lexing) : Option Nat :=
  match s.word with
  | some [.text chars false] =>
    if chars.all Char.isDigit then
      some (chars.foldl (fun n c => n * 10 + (c.toNat - '0'.toNat)) 0)
    else none
  | _ => none

/-- Whether an operator is one of redirection. -/
def isRedirection (chars : List Char) : Bool :=
  chars.head? == some '<' || chars.head? == some '>'

/-- Ends an operator. -/
def endOperator (s : Lexing) (descriptor : Option Nat) (chars : List Char) : Lexing :=
  let token := if isRedirection chars then .redirection descriptor chars else .operator chars
  { s with mode := .plain, tokens := token :: s.tokens }

/-- A character outside quotes. -/
def plainStep (s : Lexing) (c : Char) : Lexing :=
  if c = '\n' then
    let s := s.endWord
    { s with mode := .plain, tokens := .operator ['\n'] :: s.tokens }
  else if c = ' ' ∨ c = '\t' then { s.endWord with mode := .plain }
  else if c = '\'' then { s.addText [] true with mode := .single }
  else if c = '"' then { s.addText [] true with mode := .double }
  else if c = '\\' then { s with mode := .escape false }
  else if c = '$' then { s with mode := .dollar false }
  else if c = '#' ∧ s.word = none then { s with mode := .comment }
  else if isRedirection [c] ∧ s.descriptor?.isSome then
    { s with word := none, mode := .operator s.descriptor? [c] }
  else if operators.contains [c] then { s.endWord with mode := .operator none [c] }
  else { s.addText [c] false with mode := .plain }

/-- A character in double quotes. -/
def doubleStep (s : Lexing) (c : Char) : Lexing :=
  if c = '"' then { s with mode := .plain }
  else if c = '\\' then { s with mode := .escape true }
  else if c = '$' then { s with mode := .dollar true }
  else { s.addText [c] true with mode := .double }

/-- A character after a variable or a lone dollar sign. -/
def resume (s : Lexing) (quoted : Bool) (c : Char) : Lexing :=
  if quoted then s.doubleStep c else s.plainStep c

/-- What stands outside a variable. -/
def outside (quoted : Bool) : LexMode :=
  if quoted then .double else .plain

/-- The characters that a backslash in double quotes takes the meaning from. -/
def escapable : List Char :=
  ['$', '"', '\\', Char.ofNat 0x60]

/-- A character after a backslash. -/
def escapeStep (s : Lexing) (quoted : Bool) (c : Char) : Lexing :=
  let s := { s with mode := outside quoted }
  if c = '\n' then s
  else if quoted && !escapable.contains c then s.addText ['\\', c] true
  else s.addText [c] true

/-- A character, whatever it continues. -/
def advance (s : Lexing) (c : Char) : Lexing :=
  match s.mode with
  | .plain => s.plainStep c
  | .double => s.doubleStep c
  | .single => if c = '\'' then { s with mode := .plain } else s.addText [c] true
  | .escape quoted => s.escapeStep quoted c
  | .comment => if c = '\n' then s.plainStep c else s
  | .dollar quoted =>
    if c = '{' then { s with mode := .braced quoted [] }
    else if isNameStart c then { s with mode := .name quoted [c] }
    else if specialNames.contains c then { s.addVariable [c] quoted with mode := outside quoted }
    else (s.addText ['$'] quoted).resume quoted c
  | .name quoted chars =>
    if isNameChar c then { s with mode := .name quoted (c :: chars) }
    else (s.addVariable chars quoted).resume quoted c
  | .braced quoted chars =>
    if c = '}' then { s.addVariable chars quoted with mode := outside quoted }
    else { s with mode := .braced quoted (c :: chars) }
  | .operator descriptor chars =>
    if operators.contains (chars ++ [c]) then { s with mode := .operator descriptor (chars ++ [c]) }
    else (s.endOperator descriptor chars).plainStep c

/-- One character of a script. -/
def step (s : Lexing) (c : Char) : Lexing :=
  let s := s.advance c
  if c = '\n' then { s with line := s.line + 1 } else s

/-- The tokens of a script whose last line is ended; quotes have to be closed. -/
def finish (s : Lexing) : Option (List Token) :=
  match s.mode with
  | .plain => some s.tokens.reverse
  | _ => none

end Lexing

/-- The tokens of a script. -/
def tokens? (cs : List Char) : Option (List Token) :=
  ((cs ++ ['\n']).foldl Lexing.step .start).finish

/-- The words that open, part or close compound commands. -/
def keywords : List String :=
  ["if", "then", "elif", "else", "fi", "while", "until", "for", "in", "do", "done", "case", "esac",
    "\x7b", "\x7d", "!"]

/-- The keyword that a token is. -/
def Token.keyword? : Token → Option String
  | .word _ [.text chars false] =>
    if keywords.contains (String.ofList chars) then some (String.ofList chars) else none
  | _ => none

/-- Whether a token is an operator. -/
def Token.isOperator (chars : List Char) : Token → Bool
  | .operator cs => cs == chars
  | _ => false

/-- Whether a token only ends a command. -/
def Token.isSeparator (t : Token) : Bool :=
  t.isOperator ['\n'] || t.isOperator [';']

/-- The keywords that end a list of commands. -/
def closers : List String :=
  ["then", "elif", "else", "fi", "do", "done", "esac", "\x7d"]

/-- Whether a list of commands is at its end. -/
def closes : List Token → Bool
  | [] => true
  | t :: _ =>
    t.isOperator [';', ';'] || t.isOperator [')'] ||
      (t.keyword?.any closers.contains)

/-- What follows a keyword. -/
def expect? (keyword : String) : List Token → Option (List Token)
  | [] => none
  | t :: ts => if t.keyword? = some keyword then some ts else none

/-- Tokens without the separators in front. -/
def skipSeparators (ts : List Token) : List Token :=
  ts.dropWhile Token.isSeparator

/-- The redirection that an operator, a descriptor and a target make. -/
def redirectOf (descriptor : Option Nat) (chars : List Char) (target : Template) : Redirect :=
  let standard := if chars.head? = some '<' then 0 else 1
  let mode : RedirectMode :=
    if chars = ['>', '>'] then .append
    else if chars = ['>', '&'] ∨ chars = ['<', '&'] then .duplicate
    else if chars.head? = some '<' then .read
    else .write
  ⟨descriptor.getD standard, mode, target⟩

/-- The redirections in front of tokens. -/
def redirects? : List Token → Option (List Redirect × List Token)
  | .redirection d chars :: .word _ target :: ts =>
    (redirects? ts).map fun r => (redirectOf d chars target :: r.1, r.2)
  | .redirection _ _ :: _ => none
  | ts => some ([], ts)

/-- The name and the value that a word assigns. -/
def assignment? : Template → Option (String × Template)
  | .text chars false :: ps =>
    let name := chars.takeWhile Lexing.isNameChar
    match chars.drop name.length with
    | '=' :: value =>
      if name.head?.any Lexing.isNameStart then
        some (String.ofList name, if value = [] then ps else .text value false :: ps)
      else none
    | _ => none
  | _ => none

/-- The rest of a simple command. -/
def simpleFrom (c : SimpleCommand) : List Token → Option (SimpleCommand × List Token)
  | .word line t :: ts =>
    let line := if c.line = 0 then line else c.line
    match if c.words = [] then assignment? t else none with
    | some a => simpleFrom { c with line, assignments := c.assignments ++ [a] } ts
    | none => simpleFrom { c with line, words := c.words ++ [t] } ts
  | .redirection d chars :: .word line t :: ts =>
    let line := if c.line = 0 then line else c.line
    simpleFrom { c with line, redirects := c.redirects ++ [redirectOf d chars t] } ts
  | .redirection _ _ :: _ => none
  | ts =>
    if c.words = [] ∧ c.assignments = [] ∧ c.redirects.isEmpty then none else some (c, ts)

/-- The patterns of a branch, up to the parenthesis. -/
def patterns? : List Token → Option (List Template × List Token)
  | .word _ t :: sign :: ts =>
    if sign.isOperator [')'] then some ([t], ts)
    else if sign.isOperator ['|'] then (patterns? ts).map fun r => (t :: r.1, r.2)
    else none
  | _ => none

/-- The words up to a separator. -/
def wordsOf : List Token → List Template × List Token
  | .word _ t :: ts => let r := wordsOf ts; (t :: r.1, r.2)
  | ts => ([], ts)

mutual

/-- A list of commands up to its end. `fuel` bounds how deep commands lie in one another. -/
def list? : Nat → List Token → Option (Command × List Token)
  | 0, _ => none
  | fuel + 1, ts =>
    let ts := skipSeparators ts
    if closes ts then some (.nothing, ts)
    else do
      let (first, ts) ← andOr? fuel ts
      match ts with
      | t :: _ =>
        if t.isSeparator then
          let (rest, ts) ← list? fuel ts
          some (.sequence first rest, ts)
        else if closes ts then some (first, ts)
        else none
      | [] => some (first, [])

/-- Commands that depend on the success of those before them. -/
def andOr? : Nat → List Token → Option (Command × List Token)
  | 0, _ => none
  | fuel + 1, ts => do
    let (first, ts) ← pipeline? fuel ts
    andOrFrom? fuel first ts

/-- What depends on the success of a command. -/
def andOrFrom? : Nat → Command → List Token → Option (Command × List Token)
  | 0, _, _ => none
  | fuel + 1, first, ts =>
    match ts with
    | t :: rest =>
      if t.isOperator ['&', '&'] ∨ t.isOperator ['|', '|'] then do
        let (second, ts) ← pipeline? fuel (rest.dropWhile (·.isOperator ['\n']))
        andOrFrom? fuel (.conditional (t.isOperator ['&', '&']) first second) ts
      else some (first, ts)
    | [] => some (first, ts)

/-- A command, negated or not. -/
def pipeline? : Nat → List Token → Option (Command × List Token)
  | 0, _ => none
  | fuel + 1, ts =>
    match expect? "!" ts with
    | some ts => (command? fuel ts).map fun r => (.negation r.1, r.2)
    | none => command? fuel ts

/-- A command with its redirections. -/
def command? : Nat → List Token → Option (Command × List Token)
  | 0, _ => none
  | fuel + 1, ts => do
    let head ← ts.head?
    match head.keyword? with
    | none => (simpleFrom ⟨0, [], [], []⟩ ts).map fun r => (.simple r.1, r.2)
    | some keyword =>
      let (body, ts) ← compound? fuel keyword ts.tail
      let (redirects, ts) ← redirects? ts
      some (if redirects.isEmpty then body else .redirected body redirects, ts)

/-- A compound command after its first keyword. -/
def compound? : Nat → String → List Token → Option (Command × List Token)
  | 0, _, _ => none
  | fuel + 1, keyword, ts =>
    if keyword = "while" ∨ keyword = "until" then do
      let (condition, ts) ← list? fuel ts
      let (body, ts) ← list? fuel (← expect? "do" ts)
      some (.loop (keyword == "while") condition body, ← expect? "done" ts)
    else if keyword = "if" then do
      let (condition, ts) ← list? fuel ts
      let (yes, ts) ← list? fuel (← expect? "then" ts)
      let (no, ts) ← otherwise? fuel ts
      some (.choice condition yes no, ts)
    else if keyword = "for" then
      match ts with
      | .word _ [.text name false] :: ts => do
        let (words, ts) :=
          match expect? "in" ts with
          | some ts => let r := wordsOf ts; (some r.1, r.2)
          | none => (none, ts)
        let (body, ts) ← list? fuel (← expect? "do" (skipSeparators ts))
        some (.each (String.ofList name) words body, ← expect? "done" ts)
      | _ => none
    else if keyword = "case" then
      match ts with
      | .word _ subject :: ts => do
        let ts ← expect? "in" (ts.dropWhile (·.isOperator ['\n']))
        let (branches, ts) ← branches? fuel ts
        some (.cases subject branches, ts)
      | _ => none
    else if keyword = "\x7b" then do
      let (body, ts) ← list? fuel ts
      some (body, ← expect? "\x7d" ts)
    else none

/-- What a condition does if it does not hold. -/
def otherwise? : Nat → List Token → Option (Command × List Token)
  | 0, _ => none
  | fuel + 1, ts =>
    match expect? "fi" ts, expect? "else" ts, expect? "elif" ts with
    | some ts, _, _ => some (.nothing, ts)
    | none, some ts, _ => do
      let (no, ts) ← list? fuel ts
      some (no, ← expect? "fi" ts)
    | none, none, some ts => compound? fuel "if" ts
    | none, none, none => none

/-- The branches of a case. -/
def branches? : Nat → List Token → Option (List (List Template × Command) × List Token)
  | 0, _ => none
  | fuel + 1, ts =>
    let ts := ts.dropWhile (·.isOperator ['\n'])
    match expect? "esac" ts with
    | some ts => some ([], ts)
    | none => do
      let (patterns, ts) ← patterns? (ts.dropWhile (·.isOperator ['(']))
      let (body, ts) ← list? fuel ts
      let ts := match ts with
        | t :: rest => if t.isOperator [';', ';'] then rest else ts
        | [] => []
      let (others, ts) ← branches? fuel ts
      some ((patterns, body) :: others, ts)

end

/-- The command that a script is. -/
def script? (cs : List Char) : Option Command := do
  let ts ← tokens? cs
  match ← list? (8 * ts.length + 8) ts with
  | (c, []) => some c
  | _ => none

end ClientRegen.Shell
