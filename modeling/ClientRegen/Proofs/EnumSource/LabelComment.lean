import ClientRegen.EnumSource.Patch
import ClientRegen.Proofs.EnumSource.Reading
import ClientRegen.Proofs.Text.Lines
import ClientRegen.Proofs.Text.Trim
import Mathlib.Data.List.Chain

/-!
# Labels as comments

A label is written as a block comment with a margin of stars.  Whatever the
label says, the mark that closes the comment is the one at its very end
(`closed_labelText`): the label is defused first, and the margin puts a blank
between a star of its own and what a line begins with.

A reader who takes the margin away again is left with the lines of the defused
label, without the blanks at their ends (`commentLines_labelText`).
-/

namespace ClientRegen.EnumSource

variable {t u rest indent label line : List Char} {c : Char} {ls : List (List Char)}

/-! ## Texts without a closing mark -/

/-- No star of the text stands right before a slash. -/
def NoMark (t : List Char) : Prop :=
  t.IsChain fun a b => a = '*' → b ≠ '/'

theorem noMark_nil : NoMark [] :=
  List.isChain_nil

/-- A text has no closing mark if none begins it and the rest has none. -/
theorem noMark_cons : NoMark (c :: t) ↔ (c = '*' → t.head? ≠ some '/') ∧ NoMark t := by
  rw [NoMark, List.isChain_cons]
  constructor
  · rintro ⟨hhead, htail⟩
    exact ⟨fun hc hslash => hhead '/' hslash hc rfl, htail⟩
  · rintro ⟨hhead, htail⟩
    exact ⟨fun y hy hc hslash => hhead hc (hslash ▸ hy), htail⟩

/-- A character that takes part in no mark parts two texts. -/
theorem noMark_append_cons (hstar : c ≠ '*') (hslash : c ≠ '/') :
    NoMark (t ++ c :: u) ↔ NoMark t ∧ NoMark u := by
  induction t with
  | nil => simp [noMark_cons, hstar, noMark_nil]
  | cons d t ih =>
      rw [List.cons_append, noMark_cons, noMark_cons, ih]
      cases t <;> simp [hslash, and_assoc]

/-- Behind a text without a mark, the first mark closes a comment. -/
theorem NoMark.closesComment (h : NoMark t) : ClosesComment (t ++ ['*', '/']) := by
  induction t with
  | nil => exact .mark
  | cons c t ih =>
      rw [noMark_cons] at h
      refine .char ?_ (ih h.2)
      cases t with
      | nil => simp
      | cons d t => exact h.1

/-- A part of a text without a closing mark has none either. -/
theorem NoMark.of_part (h : NoMark t) (hu : u <:+: t) : NoMark u :=
  List.IsChain.infix h hu

/-- There is none among blanks. -/
theorem noMark_of_blank (h : Text.allBlank t = true) : NoMark t := by
  induction t with
  | nil => exact noMark_nil
  | cons c t ih =>
      rw [Text.allBlank_cons, Bool.and_eq_true] at h
      refine noMark_cons.mpr ⟨?_, ih h.2⟩
      rintro rfl
      exact absurd h.1 (by decide)

theorem defuse_nil : defuse [] = [] := by
  simp [defuse, Text.replaceAll, Text.replaceEach]

/-- A closing mark is parted by a backslash. -/
theorem defuse_mark (t : List Char) :
    defuse ('*' :: '/' :: t) = '*' :: '\\' :: '/' :: defuse t := by
  simp [defuse, Text.replaceAll, Text.replaceEach, Text.dropStart?]

/-- Everything else is left as it is. -/
theorem defuse_cons (h : c = '*' → t.head? ≠ some '/') : defuse (c :: t) = c :: defuse t := by
  rw [defuse, defuse, Text.replaceAll, Text.replaceAll, Text.replaceEach]
  by_cases hc : c = '*'
  · rw [if_pos hc]
    split
    · rename_i after hslash
      cases t with
      | nil => simp [Text.dropStart?] at hslash
      | cons d t =>
          by_cases hd : '/' = d
          · exact absurd (by simp [hd.symm]) (h hc)
          · simp [Text.dropStart?, hd] at hslash
    · rfl
  · rw [if_neg hc]

/-- A text is empty, begins with a closing mark, or begins with a character that
none begins with. -/
theorem mark_cases (t : List Char) :
    t = [] ∨ (∃ u, t = '*' :: '/' :: u) ∨
      ∃ c u, t = c :: u ∧ (c = '*' → u.head? ≠ some '/') := by
  cases t with
  | nil => exact Or.inl rfl
  | cons c t =>
      by_cases hmark : c = '*' ∧ t.head? = some '/'
      · obtain ⟨rfl, hslash⟩ := hmark
        obtain ⟨u, rfl⟩ := List.head?_eq_some_iff.mp hslash
        exact Or.inr (Or.inl ⟨u, rfl⟩)
      · exact Or.inr (Or.inr ⟨c, t, rfl, fun hc hslash => hmark ⟨hc, hslash⟩⟩)

/-- Induction along a text, with a closing mark taken as one step. -/
@[elab_as_elim]
theorem mark_induction {motive : List Char → Prop} (t : List Char) (nil : motive [])
    (mark : ∀ t, motive t → motive ('*' :: '/' :: t))
    (char : ∀ c t, (c = '*' → t.head? ≠ some '/') → motive t → motive (c :: t)) : motive t := by
  induction hn : t.length using Nat.strongRecOn generalizing t with
  | ind n ih =>
      rcases mark_cases t with rfl | ⟨u, rfl⟩ | ⟨c, u, rfl, hmark⟩
      · exact nil
      · exact mark u (ih u.length (by simp at hn; omega) u rfl)
      · exact char c u hmark (ih u.length (by simp at hn; omega) u rfl)

/-- **A defused label holds no closing mark,** and begins as the label does. -/
theorem noMark_defuse (label : List Char) :
    NoMark (defuse label) ∧ (defuse label).head? = label.head? := by
  induction label using mark_induction with
  | nil => simp [defuse_nil, noMark_nil]
  | mark t ih => simp [defuse_mark, noMark_cons, ih.1]
  | char c t hmark ih =>
      rw [defuse_cons hmark, noMark_cons, ih.2]
      exact ⟨⟨hmark, ih.1⟩, rfl⟩

/-! ## The comment of a label -/

/-- A line of a comment without its end. -/
def marginLine (indent line : List Char) : List Char :=
  if Text.allBlank line then indent ++ [' ', '*']
  else indent ++ [' ', '*', ' '] ++ Text.trimEnd line

/-- A line of a comment is its text and a line feed. -/
theorem commentLine_eq (indent line : List Char) :
    commentLine indent line = marginLine indent line ++ ['\n'] := by
  unfold commentLine marginLine
  split <;> simp

/-- What stands between the opening and the closing mark of the comment of a
label. -/
def labelInner (label indent : List Char) : List Char :=
  '*' :: '\n' :: (Text.lines (defuse label)).flatMap (commentLine indent) ++ indent ++ [' ']

/-- The comment of a label, from its opening to its closing mark. -/
def labelText (label indent : List Char) : List Char :=
  '/' :: '*' :: (labelInner label indent ++ ['*', '/'])

/-- The comment of a label stands alone on its lines. -/
theorem labelComment_eq (label indent : List Char) :
    labelComment label indent = indent ++ labelText label indent ++ ['\n'] := by
  simp [labelComment, labelText, labelInner]

/-- A line of a comment holds no closing mark, and takes part in none. -/
theorem noMark_marginLine (hindent : Text.allBlank indent = true) (hline : NoMark line) :
    NoMark (marginLine indent line) := by
  have hmargin : NoMark (indent ++ [' ', '*']) := by
    rw [noMark_append_cons (by decide) (by decide)]
    exact ⟨noMark_of_blank hindent, noMark_cons.mpr ⟨by simp, noMark_nil⟩⟩
  unfold marginLine
  split
  · exact hmargin
  · obtain ⟨b, -, hend⟩ := Text.exists_append_trimEnd line
    have htrim : NoMark (Text.trimEnd line) :=
      hline.of_part ⟨[], b, by rw [List.nil_append, ← hend]⟩
    have hassoc : indent ++ [' ', '*', ' '] ++ Text.trimEnd line =
        (indent ++ [' ', '*']) ++ ' ' :: Text.trimEnd line := by simp
    rw [hassoc, noMark_append_cons (by decide) (by decide)]
    exact ⟨hmargin, htrim⟩

/-- **Nothing that stands in the comment of a label closes it.** -/
theorem noMark_labelInner (hindent : Text.allBlank indent = true) :
    NoMark (labelInner label indent) := by
  have hend : NoMark (indent ++ [' ']) := by
    rw [noMark_append_cons (by decide) (by decide)]
    exact ⟨noMark_of_blank hindent, noMark_nil⟩
  have hbody : ∀ ls : List (List Char), (∀ line ∈ ls, NoMark line) →
      NoMark (ls.flatMap (commentLine indent) ++ (indent ++ [' '])) := by
    intro ls hls
    induction ls with
    | nil => exact hend
    | cons line ls ih =>
        rw [List.flatMap_cons, commentLine_eq, List.append_assoc, List.append_assoc,
          List.singleton_append, noMark_append_cons (by decide) (by decide)]
        exact ⟨noMark_marginLine hindent (hls line List.mem_cons_self),
          ih fun line hline => hls line (List.mem_cons_of_mem _ hline)⟩
  have hlines : ∀ line ∈ Text.lines (defuse label), NoMark line := fun line hline =>
    (noMark_defuse label).1.of_part (Text.infix_of_mem_lines hline)
  rw [labelInner, List.append_assoc, List.cons_append, List.cons_append, noMark_cons, noMark_cons]
  exact ⟨by simp, by simp, hbody _ hlines⟩

/-- **A label cannot break out of its comment.**  The comment is one lexeme,
which the mark at its end closes. -/
theorem closed_labelText (hindent : Text.allBlank indent = true) (label : List Char) :
    (Lexeme.comment (labelText label indent)).Closed :=
  .block (noMark_labelInner hindent).closesComment

/-! ## The lines of a comment -/

/-- A line of a comment ends with no carriage return. -/
theorem dropReturn_marginLine (indent line : List Char) :
    Text.dropReturn (marginLine indent line) = marginLine indent line := by
  unfold marginLine
  split
  · have hassoc : indent ++ [' ', '*'] = (indent ++ [' ']) ++ ['*'] := by simp
    rw [hassoc, Text.dropReturn_concat, if_neg (by decide)]
  · rename_i hblank
    have hne : Text.trimEnd line ≠ [] := fun h => hblank (Text.trimEnd_eq_nil_iff.mp h)
    obtain ⟨init, c, htrim⟩ := List.eq_nil_or_concat (Text.trimEnd line) |>.resolve_left hne
    rw [List.concat_eq_append] at htrim
    have hc : c ≠ '\r' := by
      rintro rfl
      have hnot := Text.isBlank_getLast_trimEnd (t := line) (c := '\r') (by simp [htrim])
      exact absurd hnot (by decide)
    rw [htrim, ← List.append_assoc, Text.dropReturn_concat, if_neg hc]

/-- There is no line feed in it. -/
theorem newline_notMem_marginLine (hindent : '\n' ∉ indent) (hline : '\n' ∉ line) :
    '\n' ∉ marginLine indent line := by
  unfold marginLine
  split
  · simp [hindent]
  · simp only [List.mem_append, not_or]
    exact ⟨⟨hindent, by decide⟩, fun h => hline (Text.mem_of_mem_trimEnd h)⟩

/-- The lines of comment lines are those that were written. -/
theorem lines_flatMap_commentLine (hindent : '\n' ∉ indent) (hls : ∀ line ∈ ls, '\n' ∉ line) :
    Text.lines (ls.flatMap (commentLine indent) ++ rest) =
      ls.map (marginLine indent) ++ Text.lines rest := by
  induction ls with
  | nil => rfl
  | cons line ls ih =>
      rw [List.flatMap_cons, commentLine_eq, List.append_assoc, List.append_assoc,
        List.singleton_append, Text.lines_append_newline
        (newline_notMem_marginLine hindent (hls line List.mem_cons_self)),
        dropReturn_marginLine, ih fun line hline => hls line (List.mem_cons_of_mem _ hline)]
      rfl

/-- A line without the margin of a comment. -/
def withoutMargin (line : List Char) : List Char :=
  match Text.trimStart line with
  | '*' :: ' ' :: rest => rest
  | '*' :: rest => rest
  | rest => rest

/-- The lines between the opening and the closing line of a comment, without
the margin. -/
def commentLines (comment : List Char) : List (List Char) :=
  (Text.lines comment).tail.dropLast.map withoutMargin

/-- Without its margin it is the line of the label, trimmed at its end. -/
theorem withoutMargin_marginLine (hindent : Text.allBlank indent = true) (line : List Char) :
    withoutMargin (marginLine indent line) = Text.trimEnd line := by
  have hstar : ∀ t, Text.trimStart (indent ++ ' ' :: '*' :: t) = '*' :: t := by
    intro t
    have hassoc : indent ++ ' ' :: '*' :: t = (indent ++ [' ']) ++ '*' :: t := by simp
    rw [hassoc, Text.trimStart_append_cons (by simpa using ⟨hindent, by decide⟩) (by decide)]
  unfold marginLine
  split
  · rename_i hblank
    rw [withoutMargin, hstar, Text.trimEnd_eq_nil_iff.mpr hblank]
    rfl
  · have hassoc : indent ++ [' ', '*', ' '] ++ Text.trimEnd line =
        indent ++ ' ' :: '*' :: ' ' :: Text.trimEnd line := by simp
    rw [withoutMargin, hassoc, hstar]
    rfl

/-- **A comment holds its label.**  Its lines, without the margin, are those of
the defused label without the blanks at their ends. -/
theorem commentLines_labelText (hindent : Text.allBlank indent = true) (hline : '\n' ∉ indent)
    (label : List Char) :
    commentLines (labelText label indent) =
      (Text.lines (defuse label)).map Text.trimEnd := by
  have hfirst : labelText label indent = ['/', '*', '*'] ++ '\n' ::
      ((Text.lines (defuse label)).flatMap (commentLine indent) ++
        (indent ++ [' ', '*', '/'])) := by
    simp [labelText, labelInner]
  have hlast : Text.lines (indent ++ [' ', '*', '/']) = [indent ++ [' ', '*', '/']] :=
    Text.lines_of_notMem (by simpa using hline) (by simp)
  rw [commentLines, hfirst, Text.lines_append_newline (by decide), List.tail_cons,
    lines_flatMap_commentLine hline (fun _ => Text.newline_notMem_line), hlast,
    List.dropLast_concat, List.map_map]
  exact List.map_congr_left fun line _ => withoutMargin_marginLine hindent line

/-- The lines of the comment of a label come before those of what follows it. -/
theorem lines_labelComment_append (hindent : '\n' ∉ indent) (label rest : List Char) :
    Text.lines (labelComment label indent ++ rest) =
      (indent ++ ['/', '*', '*']) :: (Text.lines (defuse label)).map (marginLine indent) ++
        (indent ++ [' ', '*', '/']) :: Text.lines rest := by
  have hsplit : labelComment label indent ++ rest = (indent ++ ['/', '*', '*']) ++ '\n' ::
      ((Text.lines (defuse label)).flatMap (commentLine indent) ++
        ((indent ++ [' ', '*', '/']) ++ '\n' :: rest)) := by
    simp [labelComment]
  have hopen : Text.dropReturn (indent ++ ['/', '*', '*']) = indent ++ ['/', '*', '*'] := by
    have hassoc : indent ++ ['/', '*', '*'] = (indent ++ ['/', '*']) ++ ['*'] := by simp
    rw [hassoc, Text.dropReturn_concat, if_neg (by decide)]
  have hclose : Text.dropReturn (indent ++ [' ', '*', '/']) = indent ++ [' ', '*', '/'] := by
    have hassoc : indent ++ [' ', '*', '/'] = (indent ++ [' ', '*']) ++ ['/'] := by simp
    rw [hassoc, Text.dropReturn_concat, if_neg (by decide)]
  rw [hsplit, Text.lines_append_newline (by simpa using hindent), hopen,
    lines_flatMap_commentLine hindent (fun _ => Text.newline_notMem_line),
    Text.lines_append_newline (by simpa using hindent), hclose, List.cons_append]

end ClientRegen.EnumSource
