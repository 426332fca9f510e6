import ClientRegen.Proofs.Actions
import ClientRegen.Proofs.Clearing
import ClientRegen.Proofs.FileTree.Making
import ClientRegen.Proofs.FileTree.Ways
import ClientRegen.Run

/-!
# The output directory made ready

Before the generator is launched, the output directory is cleared and made
again.  The first removes what does not stay and the second adds directories, so
every entry that is not removed is as it was (`nodeAt?_of_prepared`), and what
is removed is at most replaced by a directory (`nodeAt?_of_removed`).
-/

namespace ClientRegen

/-! ## The output directory made ready -/

namespace Settings

variable {s : Settings} {w w' before : World} {k l : Location} {node : TreeNode}
  {report : ClearReport} {es : List (String × Entry)}

/-- Clearing the output directory removes the entry at a location: it is below
the directory and does not stay there. -/
def Removes (s : Settings) (w : World) (k : Location) : Prop :=
  ∃ l es r, w.directory? s.outputDir = some (l, es) ∧ r ≠ [] ∧ k = l ++ r ∧
    ¬ Survives s.ignored w.root l r

/-- A world in which the output directory of another one has been cleared. -/
structure OutputCleared (s : Settings) (w w' : World) : Prop where
  /-- The tree is well-formed. -/
  wellFormed : w'.root.WellFormed
  /-- What is not removed is as it was. -/
  nodeAt?_eq : ∀ k, ¬ s.Removes w k → w'.root.nodeAt? k = w.root.nodeAt? k
  /-- What is removed is gone. -/
  nodeAt?_eq_none : ∀ k, s.Removes w k → w'.root.nodeAt? k = none
  /-- The working directory stays. -/
  cwd_eq : w'.cwd = w.cwd

theorem outputCleared_of_clear (hw : w.root.WellFormed)
    (h : clear w s.outputDir s.ignored = .ok (report, w')) : s.OutputCleared w w' := by
  have hcleared := clearedAt_of_clear hw h
  exact ⟨hcleared.wellFormed, hcleared.nodeAt?_eq, hcleared.nodeAt?_eq_none, hcleared.cwd_eq⟩

/-- An output directory that is ready was cleared, and then directories were
added at most. -/
theorem exists_cleared_of_prepared (hw : w.root.WellFormed)
    (h : s.prepareOutput w = .ok report before) :
    ∃ cleared, s.OutputCleared w cleared ∧ DirsAdded cleared before := by
  obtain ⟨report', cleared, hclear, h⟩ := Action.bind_eq_ok_iff.mp h
  obtain ⟨u, made, hmake, h⟩ := Action.bind_eq_ok_iff.mp h
  obtain ⟨-, rfl⟩ := Action.pure_eq_ok_iff.mp h
  have hcleared := outputCleared_of_clear hw (Action.change_eq_ok_iff.mp hclear)
  exact ⟨cleared, hcleared,
    dirsAdded_makeDirAll hcleared.wellFormed (Action.onPath_eq_ok_iff.mp hmake)⟩

/-- What is not removed is there when the output directory is ready. -/
theorem nodeAt?_of_prepared (hw : w.root.WellFormed) (h : s.prepareOutput w = .ok report before)
    (hk : w.root.nodeAt? k = some node) (hkept : ¬ s.Removes w k) :
    before.root.nodeAt? k = some node := by
  obtain ⟨cleared, hcleared, hadded⟩ := exists_cleared_of_prepared hw h
  exact hadded.nodeAt?_of_some ((hcleared.nodeAt?_eq k hkept).trans hk)

/-- What is removed is at most replaced by a directory. -/
theorem nodeAt?_of_removed (hw : w.root.WellFormed) (h : s.prepareOutput w = .ok report before)
    (hremoved : s.Removes w k) (hne : node ≠ .dir) : before.root.nodeAt? k ≠ some node := by
  obtain ⟨cleared, hcleared, hadded⟩ := exists_cleared_of_prepared hw h
  intro hk
  have hold := hadded.nodeAt?_of_ne_dir hk hne
  rw [hcleared.nodeAt?_eq_none k hremoved] at hold
  cases hold

theorem cwd_of_prepared (hw : w.root.WellFormed) (h : s.prepareOutput w = .ok report before) :
    before.cwd = w.cwd := by
  obtain ⟨cleared, hcleared, hadded⟩ := exists_cleared_of_prepared hw h
  exact hadded.cwd_eq.trans hcleared.cwd_eq

/-! ## A directory that is there -/

/-- A directory that is there is not made again. -/
theorem makeDirAll_of_spells {p : Path} (h : p.Spells l)
    (hends : World.withoutEndSlashes p = p) (hat : w.root.at? l = some (.dir es)) :
    w.makeDirAll p = .ok w := by
  have hpresent := locate_of_spells h hat (by simp)
  have hmade : w.makeDir p = .error .alreadyExists := by
    rw [World.makeDir, World.make, hends, hpresent]
  have hdir : w.isDir p = true := by
    rw [World.isDir, World.entry?, World.find, hpresent]
    rfl
  obtain ⟨around, haround⟩ : ∃ around, World.ancestors p = p :: around := by
    unfold World.ancestors World.ancestors.above
    split <;> exact ⟨_, rfl⟩
  rw [World.makeDirAll, haround, World.makeDirs, hmade, hdir]
  simp

/-- An output directory that is there is ready when it is cleared. -/
theorem prepareOutput_of_spells (hw : w.root.WellFormed) (h : s.outputDir.Spells l)
    (hends : World.withoutEndSlashes s.outputDir = s.outputDir)
    (hat : w.root.at? l = some (.dir es)) :
    s.prepareOutput w = .ok (clearEntries s.ignored "" es).2
      (w.withRoot (w.root.put l (.dir (clearEntries s.ignored "" es).1))) := by
  have hdir : w.directory? s.outputDir = some (l, es) := by
    rw [World.directory?, locate_of_spells h hat (by simp)]
  have hcleared : Cleared s.ignored w.root l
      (w.root.put l (.dir (clearEntries s.ignored "" es).1)) :=
    cleared_put hw hat
  obtain ⟨kept, hkept⟩ := exists_dir_of_nodeAt? hcleared.nodeAt?_eq_dir
  have hclear : clear w s.outputDir s.ignored = .ok ((clearEntries s.ignored "" es).2,
      w.withRoot (w.root.put l (.dir (clearEntries s.ignored "" es).1))) := by
    rw [clear, hdir]
  have hmade := makeDirAll_of_spells (w := w.withRoot _) h hends hkept
  exact Action.bind_eq_ok_iff.mpr ⟨_, _, Action.change_eq_ok_iff.mpr hclear,
    Action.bind_eq_ok_iff.mpr ⟨(), _, Action.onPath_eq_ok_iff.mpr hmade, rfl⟩⟩

end Settings

end ClientRegen
