import ClientRegen.EnumSource.Fault
import ClientRegen.EnumSource.Lexeme
import ClientRegen.Text.Replace
import ClientRegen.Text.WordChar
/-!
# The declaration of an enum

The first line of a source that declares an enum, as `export enum Name {` or as
`export const Name = {`, and the body between its braces. Words that may come before the keyword
are read greedily and given back one at a time, so `const enum` and a constant named `enum` are
both understood.

* `find` splits a source into three parts that make it up again.
-/

namespace ClientRegen.EnumSource

/-- A space or a tab. -/
def isGap (c : Char) : Bool :=
  c == ' ' || c == '\t'

/-- The rest after gaps. -/
def skipGaps (cs : List Char) : List Char :=
  cs.dropWhile isGap

/-- The rest after a word and the gaps that must follow it. -/
def dropWord? (word cs : List Char) : Option (List Char) :=
  match Text.dropStart? word cs with
  | some (c :: rest) => if isGap c then some (skipGaps rest) else none
  | _ => none

/-- How a line opens the body of an enum. -/
structure Opening where
  /-- The keyword was that of a constant. -/
  isConstant : Bool
  /-- An equals sign came before the brace. -/
  isAssigned : Bool
  /-- What follows the brace. -/
  rest : List Char

/-- From a name on: the name, an equals sign or none, and the brace. -/
def openingFromName? (isConstant : Bool) (cs : List Char) : Option Opening :=
  match cs with
  | c :: rest =>
    if Text.isNameStart c then
      match skipGaps (rest.dropWhile Text.isNameChar) with
      | '=' :: after =>
        match skipGaps after with
        | '\x7b' :: body => some ⟨isConstant, true, body⟩
        | _ => none
      | '\x7b' :: body => some ⟨isConstant, false, body⟩
      | _ => none
    else none
  | [] => none

/-- From a keyword on. -/
def openingFromKeyword? (cs : List Char) : Option Opening :=
  match dropWord? ['e', 'n', 'u', 'm'] cs with
  | some rest => openingFromName? false rest
  | none => (dropWord? ['c', 'o', 'n', 's', 't'] cs).bind (openingFromName? true)

/-- The rest after a word that may come before the keyword. -/
def dropModifier? (cs : List Char) : Option (List Char) :=
  (dropWord? ['d', 'e', 'c', 'l', 'a', 'r', 'e'] cs).or
    (dropWord? ['c', 'o', 'n', 's', 't'] cs)

/-- The rest after gaps is no longer. -/
theorem length_skipGaps_le (cs : List Char) : (skipGaps cs).length ≤ cs.length :=
  (List.dropWhile_sublist _).length_le

/-- The rest after a word is shorter. -/
theorem length_lt_of_dropWord? {word cs rest : List Char} (h : dropWord? word cs = some rest) :
    rest.length < cs.length := by
  unfold dropWord? at h
  split at h
  · rename_i c r hd
    have hl := Text.length_le_of_dropStart? hd
    split at h
    · cases h
      have := length_skipGaps_le r
      simp only [List.length_cons] at hl
      omega
    · simp at h
  · simp at h

/-- The rest after a modifier is shorter. -/
theorem length_lt_of_dropModifier? {cs rest : List Char} (h : dropModifier? cs = some rest) :
    rest.length < cs.length := by
  unfold dropModifier? at h
  cases hd : dropWord? ['d', 'e', 'c', 'l', 'a', 'r', 'e'] cs with
  | some r =>
    rw [hd] at h
    cases h
    exact length_lt_of_dropWord? hd
  | none =>
    rw [hd] at h
    exact length_lt_of_dropWord? h

/-- After the word that exports: as many modifiers as possible, then the keyword. -/
def openingFromModifiers? (cs : List Char) : Option Opening :=
  match h : dropModifier? cs with
  | none => openingFromKeyword? cs
  | some rest =>
    have := length_lt_of_dropModifier? h
    (openingFromModifiers? rest).or (openingFromKeyword? cs)
termination_by cs.length

/-- The opening at the start of a line. -/
def openingAtLine? (cs : List Char) : Option Opening :=
  (dropWord? ['e', 'x', 'p', 'o', 'r', 't'] (skipGaps cs)).bind openingFromModifiers?

/-- The first opening of a text; `lineStart` tells whether the text starts a line. -/
def firstOpening? (lineStart : Bool) : List Char → Option Opening
  | [] => none
  | c :: cs =>
    (if lineStart then openingAtLine? (c :: cs) else none).or (firstOpening? (c == '\n') cs)

/-- Splits lexemes before the brace that closes the block around them; `depth` blocks are open
inside it. -/
def splitBlock : Nat → List Lexeme → Option (List Lexeme × List Lexeme)
  | _, [] => none
  | depth, l :: ls =>
    if l = .plain '\x7d' then
      match depth with
      | 0 => some ([], l :: ls)
      | depth + 1 => (splitBlock depth ls).map fun r => (l :: r.1, r.2)
    else
      (splitBlock (if l = .plain '\x7b' then depth + 1 else depth) ls).map
        fun r => (l :: r.1, r.2)

/-- A source around the body of its enum. -/
structure Declaration where
  /-- Everything up to the opening brace, with it. -/
  head : List Char
  /-- What stands between the braces. -/
  body : List Char
  /-- The closing brace and everything after it. -/
  tail : List Char
deriving DecidableEq

/-- The declaration of the first enum of a source. -/
def findDeclaration (source : List Char) : Except SourceFault Declaration :=
  match firstOpening? true source with
  | none => .error .noDeclaration
  | some o =>
    if o.isConstant ≠ o.isAssigned then .error .malformedDeclaration
    else
      match splitBlock 0 (lexemes o.rest) with
      | none => .error .unterminated
      | some (body, tail) =>
        .ok ⟨source.take (source.length - o.rest.length), textOf body, textOf tail⟩

end ClientRegen.EnumSource
