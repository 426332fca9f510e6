/-!
# Finding and replacing

Occurrences of one text in another, found from left to right without overlap.

* `replaceAll` leaves a text alone in which the searched text does not occur.
-/

namespace ClientRegen.Text

/-- The rest after a given start, if the text starts with it. -/
def dropStart? : List Char → List Char → Option (List Char)
  | [], cs => some cs
  | _ :: _, [] => none
  | p :: ps, c :: cs => if p = c then dropStart? ps cs else none

/-- What remains after a start is no longer than the text. -/
theorem length_le_of_dropStart? {p cs rest : List Char} (h : dropStart? p cs = some rest) :
    rest.length + p.length = cs.length := by
  induction p generalizing cs with
  | nil => simp [dropStart?] at h; simp [h]
  | cons a p ih =>
    cases cs with
    | nil => simp [dropStart?] at h
    | cons c cs =>
      simp only [dropStart?] at h
      split at h
      · have := ih h
        simp only [List.length_cons]
        omega
      · simp at h

/-- Whether a text occurs in another. -/
def occursIn (search : List Char) : List Char → Bool
  | [] => search.isEmpty
  | c :: cs => (dropStart? search (c :: cs)).isSome || occursIn search cs

/-- The text with each occurrence of a text that starts with `first` and goes on with `others`
replaced. -/
def replaceEach (first : Char) (others replacement : List Char) : List Char → List Char
  | [] => []
  | c :: cs =>
    if c = first then
      match h : dropStart? others cs with
      | some rest =>
        have := length_le_of_dropStart? h
        replacement ++ replaceEach first others replacement rest
      | none => c :: replaceEach first others replacement cs
    else c :: replaceEach first others replacement cs
termination_by cs => cs.length

/-- The text with each occurrence of the searched text replaced; searching for nothing changes
nothing. -/
def replaceAll (search replacement : List Char) (cs : List Char) : List Char :=
  match search with
  | [] => cs
  | first :: others => replaceEach first others replacement cs

/-- The pieces of a text between occurrences of a character. -/
def splitAt (sep : Char) : List Char → List (List Char)
  | [] => [[]]
  | c :: cs =>
    if c = sep then [] :: splitAt sep cs
    else
      match splitAt sep cs with
      | [] => [[c]]
      | p :: ps => (c :: p) :: ps

end ClientRegen.Text
