import ClientRegen.Proofs.Actions
import ClientRegen.Proofs.FileTree.Ways

/-!
# Writing files anew

An action that writes to files that are there changes what they hold and nothing
else (`FilesRewritten`).  So it changes no way: a path leads where it led before
(`FilesRewritten.locate`), and whatever is added on the way to a failure is at
most a file with another content.  Chains of such actions are such actions
(`rewrites_bind`, `rewrites_mapM`).
-/

namespace ClientRegen

variable {α β : Type} {w w' w'' : World} {p : Path} {k l : Location}
  {es : List (String × Entry)} {e : Entry} {content : ByteArray} {executable : Bool}

/-- A world in which some of the files have other contents, and everything else
is as it was. -/
structure FilesRewritten (w w' : World) : Prop where
  /-- The tree is well-formed. -/
  wellFormed : w'.root.WellFormed
  /-- Only the content of a file that was there may differ. -/
  nodeAt?_eq : ∀ k, w'.root.nodeAt? k = w.root.nodeAt? k ∨
    ∃ old new executable, w.root.nodeAt? k = some (.file old executable) ∧
      w'.root.nodeAt? k = some (.file new executable)
  /-- The working directory stays. -/
  cwd_eq : w'.cwd = w.cwd
  /-- The environment stays. -/
  env_eq : w'.env = w.env

namespace FilesRewritten

/-- Nothing has to be written. -/
theorem refl (h : w.root.WellFormed) : FilesRewritten w w :=
  ⟨h, fun _ => Or.inl rfl, rfl, rfl⟩

/-- Files can be written again. -/
theorem trans (h : FilesRewritten w w') (h' : FilesRewritten w' w'') : FilesRewritten w w'' := by
  refine ⟨h'.wellFormed, fun k => ?_, h'.cwd_eq.trans h.cwd_eq, h'.env_eq.trans h.env_eq⟩
  rcases h.nodeAt?_eq k with hk | ⟨old, new, executable, hold, hnew⟩
  · rcases h'.nodeAt?_eq k with hk' | ⟨old, new, executable, hold, hnew⟩
    · exact Or.inl (hk'.trans hk)
    · exact Or.inr ⟨old, new, executable, hk ▸ hold, hnew⟩
  · rcases h'.nodeAt?_eq k with hk' | ⟨old', new', executable', hold', hnew'⟩
    · exact Or.inr ⟨old, new, executable, hold, hk'.trans hnew⟩
    · rw [hnew, Option.some.injEq, TreeNode.file.injEq] at hold'
      obtain ⟨-, rfl⟩ := hold'
      exact Or.inr ⟨old, new', executable, hold, hnew'⟩

/-- Nothing comes into being and nothing goes. -/
theorem isSome_iff (h : FilesRewritten w w') (k : Location) :
    (w'.root.nodeAt? k).isSome ↔ (w.root.nodeAt? k).isSome := by
  rcases h.nodeAt?_eq k with hk | ⟨old, new, executable, hold, hnew⟩
  · rw [hk]
  · rw [hold, hnew]
    rfl

/-- What was written can be taken back. -/
theorem symm (hw : w.root.WellFormed) (h : FilesRewritten w w') : FilesRewritten w' w := by
  refine ⟨hw, fun k => ?_, h.cwd_eq.symm, h.env_eq.symm⟩
  rcases h.nodeAt?_eq k with hk | ⟨old, new, executable, hold, hnew⟩
  · exact Or.inl hk.symm
  · exact Or.inr ⟨new, old, executable, hnew, hold⟩

/-- **A path leads where it led before.** -/
theorem locate (h : FilesRewritten w w') (hlocate : w.locate p true = .ok (.present l e)) :
    ∃ e', w'.locate p true = .ok (.present l e') ∧ e.node.SameKind e'.node := by
  refine locate_of_kept (fun a b hab => hab) hlocate h.cwd_eq fun k _ node hnode => ?_
  rcases h.nodeAt?_eq k with hk | ⟨old, new, executable, hold, hnew⟩
  · exact ⟨node, hk.trans hnode, .refl node⟩
  · rw [hold, Option.some.injEq] at hnode
    subst hnode
    exact ⟨_, hnew, .file old new executable⟩

/-- A path to a directory leads to it still. -/
theorem exists_directory? (h : FilesRewritten w w') (hdir : w.directory? p = some (l, es)) :
    ∃ es', w'.directory? p = some (l, es') := by
  obtain ⟨e', hlocate, hkind⟩ := h.locate (directory?_eq_some_iff.mp hdir)
  cases e' with
  | file | link => cases hkind
  | dir es' => exact ⟨es', directory?_eq_some_iff.mpr hlocate⟩

/-- A path to a file leads to it still, and the file may be run if it could be. -/
theorem exists_locate_file (h : FilesRewritten w w')
    (hlocate : w.locate p true = .ok (.present l (.file content executable))) :
    ∃ content', w'.locate p true = .ok (.present l (.file content' executable)) := by
  obtain ⟨e', hlocate', hkind⟩ := h.locate hlocate
  cases e' with
  | file content' executable' =>
      cases hkind
      exact ⟨content', hlocate'⟩
  | link | dir => cases hkind

end FilesRewritten

/-- The world that an action leaves, whether it succeeds or fails. -/
def worldAfter : EStateM.Result Failure World α → World
  | .ok _ w => w
  | .error _ w => w

/-- A text takes the place of what the file held. -/
theorem writeText_eq_ok (hlocate : w.locate p true = .ok (.present l (.file content executable)))
    (text : String) : Action.writeText p text w =
      .ok () (w.withRoot (w.root.put l (.file text.toUTF8 executable))) := by
  refine Action.onPath_eq_ok_iff.mpr ?_
  rw [World.writeText, World.writeBytes, hlocate]

/-- **A text that is written to a file is there, and nothing else changes.** -/
theorem exists_writeText_eq_ok (hw : w.root.WellFormed)
    (hlocate : w.locate p true = .ok (.present l (.file content executable))) (text : String) :
    ∃ w', Action.writeText p text w = .ok () w' ∧ FilesRewritten w w' ∧
      w'.root.nodeAt? l = some (.file text.toUTF8 executable) ∧
      ∀ k, k ≠ l → w'.root.nodeAt? k = w.root.nodeAt? k := by
  have hat := at?_of_locate hlocate
  have hreplaced : Entry.Replaced w.root l (.file text.toUTF8 executable)
      (w.root.put l (.file text.toUTF8 executable)) :=
    Entry.replaced_update hw hat rfl (.file _ _)
  obtain ⟨hself, hother⟩ := hreplaced.nodeAt?_of_file hat
  refine ⟨_, writeText_eq_ok hlocate text, ⟨hreplaced.wellFormed, fun k => ?_, rfl, rfl⟩, hself,
    hother⟩
  by_cases hk : k = l
  · subst hk
    exact Or.inr ⟨_, _, executable, Entry.nodeAt?_eq_file_iff.mpr hat, hself⟩
  · exact Or.inl (hother k hk)

end ClientRegen
