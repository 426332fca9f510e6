import ClientRegen.Text.Blank
import Mathlib.Data.List.Infix

/-!
# Lines

A line ends at a line feed and at nothing else.  What stands before the first
line feed of a text is therefore its first line, up to one carriage return
(`lines_append_newline`), and what holds of all lines is proved along them
(`lines_induction`).  A line never holds a line feed (`newline_notMem_line`), and
it is a piece of the text as it was written (`infix_of_mem_lines`).
-/

namespace ClientRegen.Text

variable {l t : List Char} {c : Char}

theorem splitLines_ne_nil (t : List Char) : splitLines t ≠ [] := by
  cases t with
  | nil => simp [splitLines]
  | cons c t => by_cases hc : c = '\n' <;> cases hs : splitLines t <;> simp [splitLines, hc, hs]

/-- A text without a line feed is one line. -/
theorem splitLines_of_notMem (h : '\n' ∉ l) : splitLines l = [l] := by
  induction l with
  | nil => rfl
  | cons c l ih =>
      rw [List.mem_cons, not_or] at h
      simp [splitLines, Ne.symm h.1, ih h.2]

/-- The first line feed ends the first line. -/
theorem splitLines_append_newline (h : '\n' ∉ l) :
    splitLines (l ++ '\n' :: t) = l :: splitLines t := by
  induction l with
  | nil => simp [splitLines]
  | cons c l ih =>
      rw [List.mem_cons, not_or] at h
      simp [splitLines, Ne.symm h.1, ih h.2]

/-- A line that a line feed ends loses at most a carriage return. -/
theorem lines_append_newline (h : '\n' ∉ l) :
    lines (l ++ '\n' :: t) = dropReturn l :: lines t := by
  rw [lines, splitLines_append_newline h, lines]
  cases hs : splitLines t with
  | nil => exact absurd hs (splitLines_ne_nil t)
  | cons m ls => rfl

/-- The last line is kept as it is. -/
theorem lines_of_notMem (h : '\n' ∉ l) (hne : l ≠ []) : lines l = [l] := by
  rw [lines, splitLines_of_notMem h, finishLines, if_neg hne]

/-- Only a carriage return is dropped from the end of a line. -/
theorem dropReturn_concat (l : List Char) (c : Char) :
    dropReturn (l ++ [c]) = if c = '\r' then l else l ++ [c] := by
  unfold dropReturn
  by_cases hc : c = '\r'
  · simp [hc]
  · rw [List.getLast?_concat, if_neg hc]
    split
    · simp_all
    · rfl

/-- What is left of a line is a start of it. -/
theorem dropReturn_prefix (l : List Char) : dropReturn l <+: l := by
  unfold dropReturn
  split
  · exact List.dropLast_prefix l
  · exact List.prefix_rfl

/-- A text falls into its first line and, behind a line feed, the rest. -/
theorem eq_line_or_append_newline (t : List Char) :
    '\n' ∉ t ∨ ∃ l rest, '\n' ∉ l ∧ t = l ++ '\n' :: rest := by
  by_cases h : '\n' ∈ t
  · obtain ⟨l, rest, ht, hl⟩ := List.eq_append_cons_of_mem h
    exact Or.inr ⟨l, rest, hl, ht⟩
  · exact Or.inl h

/-- Induction along the lines of a text. -/
@[elab_as_elim]
theorem lines_induction {motive : List Char → Prop} (t : List Char) (nil : motive [])
    (last : ∀ l, '\n' ∉ l → l ≠ [] → motive l)
    (line : ∀ l rest, '\n' ∉ l → motive rest → motive (l ++ '\n' :: rest)) : motive t := by
  induction hn : t.length using Nat.strongRecOn generalizing t with
  | ind n ih =>
      rcases eq_line_or_append_newline t with ht | ⟨first, rest, hfirst, rfl⟩
      · by_cases hne : t = []
        · exact hne ▸ nil
        · exact last t ht hne
      · exact line first rest hfirst (ih rest.length (by simp [← hn]; omega) rest rfl)

theorem lines_nil : lines [] = [] := rfl

/-- A line is a piece of the text that holds no line feed. -/
theorem line_of_mem_lines (h : l ∈ lines t) : '\n' ∉ l ∧ l <:+: t := by
  induction t using lines_induction with
  | nil => cases h
  | last t ht hne =>
      rw [lines_of_notMem ht hne, List.mem_singleton] at h
      exact ⟨h ▸ ht, h ▸ List.infix_rfl⟩
  | line first rest hfirst ih =>
      rw [lines_append_newline hfirst, List.mem_cons] at h
      rcases h with rfl | h
      · have hstart := dropReturn_prefix first
        exact ⟨fun hc => hfirst (hstart.subset hc),
          (hstart.trans (List.prefix_append _ _)).isInfix⟩
      · obtain ⟨hc, hinfix⟩ := ih h
        exact ⟨hc, hinfix.trans ⟨first ++ ['\n'], [], by simp⟩⟩

/-- A line holds no line feed. -/
theorem newline_notMem_line (h : l ∈ lines t) : '\n' ∉ l :=
  (line_of_mem_lines h).1

/-- A line is a piece of the text. -/
theorem infix_of_mem_lines (h : l ∈ lines t) : l <:+: t :=
  (line_of_mem_lines h).2

/-- A text that goes on behind a character other than a carriage return has
its first line begin with all that stands up to that character. -/
theorem exists_first_line (h : '\n' ∉ l ++ [c]) (hc : c ≠ '\r') (t : List Char) :
    ∃ x ls, lines (l ++ c :: t) = (l ++ c :: x) :: ls ∧ x <+: t := by
  rcases eq_line_or_append_newline t with ht | ⟨first, rest, hfirst, rfl⟩
  · refine ⟨t, [], lines_of_notMem ?_ (by simp), List.prefix_rfl⟩
    simp_all
  · have hline : '\n' ∉ l ++ c :: first := by simp_all
    have hsplit : l ++ c :: (first ++ '\n' :: rest) = (l ++ c :: first) ++ '\n' :: rest := by simp
    rw [hsplit, lines_append_newline hline]
    rcases List.eq_nil_or_concat first with rfl | ⟨init, d, rfl⟩
    · refine ⟨[], lines rest, ?_, List.nil_prefix⟩
      rw [dropReturn_concat, if_neg hc]
    · have hassoc : l ++ c :: init.concat d = (l ++ c :: init) ++ [d] := by simp
      rw [hassoc, dropReturn_concat]
      by_cases hd : d = '\r'
      · exact ⟨init, lines rest, by rw [if_pos hd], ⟨[d] ++ '\n' :: rest, by simp⟩⟩
      · exact ⟨init ++ [d], lines rest, by rw [if_neg hd]; simp, ⟨'\n' :: rest, by simp⟩⟩

end ClientRegen.Text
