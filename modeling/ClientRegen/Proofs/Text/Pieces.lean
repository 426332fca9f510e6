import ClientRegen.Path

/-!
# Pieces of a text

Splitting a text at a character is the list operation of that name
(`splitAt_eq_splitOn`).  So the pieces of a path, joined with slashes, are the
path again, and pieces without slashes are found again in what joining them
gives.
-/

namespace ClientRegen

variable {sep : Char} {cs piece : List Char} {pieces : List (List Char)}

theorem splitAt_eq_splitOn (sep : Char) (cs : List Char) :
    Text.splitAt sep cs = cs.splitOn sep := by
  induction cs with
  | nil => rfl
  | cons c cs ih =>
      obtain ⟨first, others, hcs⟩ := List.exists_cons_of_ne_nil (List.splitOn_ne_nil sep cs)
      by_cases hc : c = sep <;>
        simp [Text.splitAt, List.splitOn_cons_eq_if_modifyHead, hc, ih, hcs]

theorem splitAt_ne_nil (sep : Char) (cs : List Char) : Text.splitAt sep cs ≠ [] := by
  rw [splitAt_eq_splitOn]
  exact List.splitOn_ne_nil sep cs

theorem splitAt_of_notMem (h : sep ∉ cs) : Text.splitAt sep cs = [cs] := by
  rw [splitAt_eq_splitOn]
  exact List.splitOn_eq_singleton h

/-- What stands before an occurrence and what stands after it are split apart
from each other. -/
theorem splitAt_append_sep (sep : Char) (cs ds : List Char) :
    Text.splitAt sep (cs ++ sep :: ds) = Text.splitAt sep cs ++ Text.splitAt sep ds := by
  simp only [splitAt_eq_splitOn]
  exact List.splitOnP_append_cons cs ds (beq_self_eq_true sep)

theorem sep_notMem_of_mem_splitAt (h : piece ∈ Text.splitAt sep cs) : sep ∉ piece := by
  induction cs generalizing piece with
  | nil => simp_all [Text.splitAt]
  | cons c cs ih =>
      rw [Text.splitAt] at h
      split at h
      · rcases List.mem_cons.mp h with rfl | h
        · simp
        · exact ih h
      · rename_i hc
        split at h
        · rw [List.mem_singleton.mp h, List.mem_singleton]
          exact Ne.symm hc
        · rename_i first others hsplit
          rw [hsplit] at ih
          rcases List.mem_cons.mp h with rfl | h
          · rw [List.mem_cons, not_or]
            exact ⟨Ne.symm hc, ih List.mem_cons_self⟩
          · exact ih (List.mem_cons_of_mem _ h)

/-- The pieces of a path, joined again. -/
theorem slashed_splitAt (cs : List Char) : Path.slashed (Text.splitAt '/' cs) = cs := by
  rw [splitAt_eq_splitOn]
  exact List.intercalate_splitOn '/'

theorem splitAt_slashed (h : ∀ piece ∈ pieces, '/' ∉ piece) (hne : pieces ≠ []) :
    Text.splitAt '/' (Path.slashed pieces) = pieces := by
  rw [splitAt_eq_splitOn]
  exact List.splitOn_intercalate '/' h hne

end ClientRegen
