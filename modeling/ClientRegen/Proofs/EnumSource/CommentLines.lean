import ClientRegen.Proofs.EnumSource.LabelComment
import ClientRegen.Proofs.EnumSource.Marks
import ClientRegen.Proofs.EnumSource.Member
import ClientRegen.Proofs.Text.Replacing

/-!
# The lines of a label's comment

Whatever a label says, its comment is one block comment that stands alone on its
lines, and a scanner that meets it goes on at the line feed behind it.

The inner lines of the comment are the lines of the label.  A closing mark never
reaches over a line feed, so it makes no difference whether a label is defused
before or after it is taken apart into its lines (`lines_defuse`).  The margin
before each line is a line feed, the indentation and a star; as no line holds a
line feed, cutting the comment at its margins gives the lines back, even when
the indentation holds line feeds of its own (`betweenMargins_commentLines`).
-/

namespace ClientRegen.EnumSource

open Text (utf8 size)

variable {t l rest indent margin first line : List Char} {c : Char} {ls : List (List Char)}

/-! ## Defusing line by line -/

/-- A character that takes part in no mark parts what is defused. -/
theorem defuse_append_cons (hstar : c ≠ '*') (hslash : c ≠ '/') (t rest : List Char) :
    defuse (t ++ c :: rest) = defuse t ++ c :: defuse rest := by
  induction t using mark_induction with
  | nil => rw [List.nil_append, defuse_cons fun h => absurd h hstar, defuse_nil, List.nil_append]
  | mark t ih =>
      rw [List.cons_append, List.cons_append, defuse_mark, ih, defuse_mark]
      rfl
  | char d t hmark ih =>
      have hmark' : d = '*' → (t ++ c :: rest).head? ≠ some '/' := by
        cases t with
        | nil => simp [hslash]
        | cons e t => exact hmark
      rw [List.cons_append, defuse_cons hmark', ih, defuse_cons hmark]
      rfl

/-- Defusing adds backslashes only. -/
theorem mem_or_eq_of_mem_defuse (h : c ∈ defuse t) : c ∈ t ∨ c = '\\' := by
  induction t using mark_induction with
  | nil =>
      rw [defuse_nil] at h
      cases h
  | mark t ih =>
      simp only [defuse_mark, List.mem_cons] at h ⊢
      tauto
  | char d t hmark ih =>
      simp only [defuse_cons hmark, List.mem_cons] at h ⊢
      tauto

/-- Defusing breaks no line. -/
theorem newline_notMem_defuse (h : '\n' ∉ t) : '\n' ∉ defuse t := fun hmem =>
  (mem_or_eq_of_mem_defuse hmem).elim h (by decide)

/-- What is defused ends as it did. -/
theorem getLast?_defuse (t : List Char) : (defuse t).getLast? = t.getLast? := by
  induction t using mark_induction with
  | nil => rw [defuse_nil]
  | mark t ih => simp only [defuse_mark, List.getLast?_cons, ih, Option.getD_some]
  | char d t hmark ih => simp only [defuse_cons hmark, List.getLast?_cons, ih]

/-- Defusing leaves something of every label that has something. -/
theorem defuse_eq_nil_iff : defuse t = [] ↔ t = [] := by
  rw [← List.getLast?_eq_none_iff, getLast?_defuse, List.getLast?_eq_none_iff]

/-- A carriage return at the end is taken away before or after defusing. -/
theorem dropReturn_defuse (l : List Char) :
    Text.dropReturn (defuse l) = defuse (Text.dropReturn l) := by
  rcases List.eq_nil_or_concat l with rfl | ⟨init, c, rfl⟩
  · rw [defuse_nil]
    exact defuse_nil.symm
  · rw [List.concat_eq_append, Text.dropReturn_concat]
    by_cases hc : c = '\r'
    · subst hc
      rw [defuse_append_cons (by decide) (by decide), defuse_nil, Text.dropReturn_concat]
      rfl
    · have hlast := getLast?_defuse (init ++ [c])
      rw [List.getLast?_concat] at hlast
      obtain ⟨init', hinit'⟩ := List.getLast?_eq_some_iff.mp hlast
      rw [if_neg hc, hinit', Text.dropReturn_concat, if_neg hc]

/-- **The lines of a defused label are its lines, defused.** -/
theorem lines_defuse (label : List Char) :
    Text.lines (defuse label) = (Text.lines label).map defuse := by
  induction label using Text.lines_induction with
  | nil => rw [defuse_nil, Text.lines_nil, List.map_nil]
  | last l hl hne =>
      rw [Text.lines_of_notMem (newline_notMem_defuse hl) (defuse_eq_nil_iff.not.mpr hne),
        Text.lines_of_notMem hl hne, List.map_singleton]
  | line l rest hl ih =>
      rw [defuse_append_cons (by decide) (by decide),
        Text.lines_append_newline (newline_notMem_defuse hl), Text.lines_append_newline hl,
        dropReturn_defuse, ih, List.map_cons]

/-! ## Cutting at margins -/

/-- What stands between the places where a line feed is followed by a margin. -/
def betweenMargins (margin : List Char) : List Char → List (List Char)
  | [] => [[]]
  | c :: cs =>
    if c = '\n' then
      match h : Text.dropStart? margin cs with
      | some rest =>
        have := Text.length_le_of_dropStart? h
        [] :: betweenMargins margin rest
      | none => (betweenMargins margin cs).modifyHead (c :: ·)
    else (betweenMargins margin cs).modifyHead (c :: ·)
termination_by cs => cs.length

/-- A line without the blank that parts it from its margin. -/
def withoutGap : List Char → List Char
  | ' ' :: line => line
  | line => line

/-- The lines between the opening and the closing mark of a comment, each of
which stands behind a line feed, the indentation, a blank and a star. -/
def innerLines (indent comment : List Char) : List (List Char) :=
  (betweenMargins (indent ++ [' ', '*']) comment).tail.dropLast.map withoutGap

/-- Only a line feed can begin a margin. -/
theorem betweenMargins_cons (hc : c ≠ '\n') (margin t : List Char) :
    betweenMargins margin (c :: t) = (betweenMargins margin t).modifyHead (c :: ·) := by
  rw [betweenMargins, if_neg hc]

/-- A text without a line feed is not cut. -/
theorem betweenMargins_of_notMem (h : '\n' ∉ t) (margin : List Char) :
    betweenMargins margin t = [t] := by
  induction t with
  | nil => rw [betweenMargins]
  | cons c t ih =>
      rw [List.mem_cons, not_or] at h
      rw [betweenMargins_cons (Ne.symm h.1), ih h.2, List.modifyHead_cons]

/-- A text is cut at its first line feed if a margin follows. -/
theorem betweenMargins_append (h : '\n' ∉ t) (margin rest : List Char) :
    betweenMargins margin (t ++ '\n' :: (margin ++ rest)) = t :: betweenMargins margin rest := by
  induction t with
  | nil =>
      have hdrop : Text.dropStart? margin (margin ++ rest) = some rest :=
        Text.dropStart?_eq_some_iff.mpr rfl
      rw [List.nil_append, betweenMargins, if_pos rfl]
      split
      · rename_i found hfound
        rw [hdrop, Option.some.injEq] at hfound
        subst hfound
        rfl
      · rename_i hnone
        rw [hdrop] at hnone
        cases hnone
  | cons c t ih =>
      rw [List.mem_cons, not_or] at h
      rw [List.cons_append, betweenMargins_cons (Ne.symm h.1), ih h.2, List.modifyHead_cons]

/-- A line of a comment behind the star of its margin. -/
def behindMargin (line : List Char) : List Char :=
  if Text.allBlank line then [] else ' ' :: Text.trimEnd line

/-- A line of a comment is its margin, what stands behind it and a line feed. -/
theorem commentLine_eq_margin (indent line : List Char) :
    commentLine indent line = (indent ++ [' ', '*']) ++ behindMargin line ++ ['\n'] := by
  unfold commentLine behindMargin
  split <;> simp

/-- Behind a margin no line ends. -/
theorem newline_notMem_behindMargin (h : '\n' ∉ line) : '\n' ∉ behindMargin line := by
  unfold behindMargin
  split
  · simp
  · rw [List.mem_cons, not_or]
    exact ⟨by decide, fun hmem => h (Text.mem_of_mem_trimEnd hmem)⟩

/-- Without the blank behind its margin a line is the line of the label, trimmed at its end. -/
theorem withoutGap_behindMargin (line : List Char) :
    withoutGap (behindMargin line) = Text.trimEnd line := by
  unfold behindMargin
  split
  · rename_i hblank
    exact (Text.trimEnd_eq_nil_iff.mpr hblank).symm
  · rfl

/-- **Comment lines come back from between their margins.** -/
theorem betweenMargins_commentLines (hfirst : '\n' ∉ first) (hls : ∀ line ∈ ls, '\n' ∉ line)
    (hrest : '\n' ∉ rest) (indent : List Char) :
    betweenMargins (indent ++ [' ', '*'])
        (first ++ '\n' :: (ls.flatMap (commentLine indent) ++ (indent ++ [' ', '*'] ++ rest))) =
      first :: (ls.map behindMargin ++ [rest]) := by
  -- what stands behind the margin of one line is the first piece for the lines that follow
  induction ls generalizing first with
  | nil =>
      rw [List.flatMap_nil, List.nil_append, betweenMargins_append hfirst,
        betweenMargins_of_notMem hrest]
      rfl
  | cons line ls ih =>
      obtain ⟨hline, hls⟩ := List.forall_mem_cons.mp hls
      rw [List.flatMap_cons, commentLine_eq_margin, List.append_assoc, List.append_assoc,
        List.append_assoc, betweenMargins_append hfirst, List.singleton_append,
        ih (newline_notMem_behindMargin hline) hls]
      rfl

/-- **The inner lines of a label's comment are the lines of the label,** defused
and without the blanks at their ends. -/
theorem innerLines_labelText (label indent : List Char) :
    innerLines indent (labelText label indent) =
      (Text.lines label).map fun line => Text.trimEnd (defuse line) := by
  have htext : labelText label indent = ['/', '*', '*'] ++ '\n' ::
      ((Text.lines (defuse label)).flatMap (commentLine indent) ++
        (indent ++ [' ', '*'] ++ ['/'])) := by
    simp [labelText, labelInner]
  rw [innerLines, htext, betweenMargins_commentLines (by decide)
    (fun _ => Text.newline_notMem_line) (by decide), List.tail_cons, List.dropLast_concat,
    lines_defuse, List.map_map, List.map_map]
  exact List.map_congr_left fun line _ => withoutGap_behindMargin (defuse line)

/-! ## The comment as a whole -/

/-- A label's comment is read as blanks, one comment and a line feed. -/
theorem lexemes_labelComment_append (hindent : Text.allBlank indent = true)
    (label rest : List Char) :
    lexemes (labelComment label indent ++ rest) =
      indent.map .plain ++ .comment (labelText label indent) :: .plain '\n' :: lexemes rest := by
  let ls : List Lexeme := indent.map .plain ++ [.comment (labelText label indent), .plain '\n']
  have htext : textOf ls = labelComment label indent := by
    simp [ls, labelComment_eq, Lexeme.text]
  have hclosed : ∀ l ∈ ls, l.Closed := by
    intro l hl
    rcases List.mem_append.mp hl with hl | hl
    · obtain ⟨c, hc, rfl⟩ := List.mem_map.mp hl
      exact closed_of_isBlank (Text.isBlank_of_allBlank hindent hc)
    · simp only [List.mem_cons, List.not_mem_nil, or_false] at hl
      rcases hl with rfl | rfl
      · exact closed_labelText hindent label
      · exact .plain (by decide) (by decide)
  rw [← htext, lexemes_textOf_append (readsBack_of_closed hclosed rest)]
  simp [ls]

/-- **A label cannot break out of its comment.**  What is written for a label is
the indentation, one block comment and a line feed: whatever stands around it,
the comment that starts behind the indentation ends right before the line feed.
Its inner lines are those of the label in their order, each with its closing
marks broken and without the blanks at its end; where the indentation stands on
one line, they are the lines of the text between the marks. -/
theorem labelComment_isComment (hindent : Text.allBlank indent = true) (label : List Char) :
    ∃ comment, labelComment label indent = indent ++ comment ++ ['\n'] ∧
      ['/', '*'] <+: comment ∧
      (∀ before rest,
        skipBlock? (utf8 (before ++ labelComment label indent ++ rest)) (size (before ++ indent)) =
          some (size (before ++ indent ++ comment))) ∧
      (∀ rest, lexemes (labelComment label indent ++ rest) =
        indent.map .plain ++ .comment comment :: .plain '\n' :: lexemes rest) ∧
      innerLines indent comment = ((Text.lines label).map fun line =>
        Text.trimEnd (Text.replaceAll ['*', '/'] ['*', '\\', '/'] line)) ∧
      ('\n' ∉ indent → commentLines comment = innerLines indent comment) := by
  have hinner := innerLines_labelText label indent
  refine ⟨labelText label indent, labelComment_eq label indent, ⟨_, rfl⟩, fun before rest => ?_,
    lexemes_labelComment_append hindent label, hinner, fun hline => ?_⟩
  · have hassoc : before ++ labelComment label indent ++ rest =
        (before ++ indent) ++ labelText label indent ++ '\n' :: rest := by
      simp [labelComment_eq]
    rw [hassoc]
    exact skipBlock?_of_closed (closed_labelText hindent label) _ _
  · rw [commentLines_labelText hindent hline, hinner, lines_defuse, List.map_map]
    rfl

/-- A label with closing marks, one of them between a star and a slash, both
line ends and a blank line, behind an indentation that goes over a line. -/
theorem labelComment_isComment_marks :
    let indent := ['\n', '\t']
    let label := "**// a\r\n\n/*/ ".toList
    Text.allBlank indent = true ∧
      ∃ comment, labelComment label indent = indent ++ comment ++ ['\n'] ∧
        skipBlock? (utf8 (labelComment label indent)) (size indent) =
          some (size (indent ++ comment)) ∧
        innerLines indent comment = ["**\\// a".toList, [], "/*\\/".toList] := by
  intro indent label
  have hindent : Text.allBlank indent = true := by decide
  obtain ⟨comment, htext, -, hskip, -, hinner, -⟩ := labelComment_isComment hindent label
  refine ⟨hindent, comment, htext, ?_, ?_⟩
  · simpa using hskip [] []
  · rw [hinner]
    decide +kernel

end ClientRegen.EnumSource
