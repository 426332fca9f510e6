import ClientRegen.Proofs.Path.NormalForm
import ClientRegen.Proofs.SpecificationKept

/-!
# The guard of the output directory

A run clears its output directory, so settings are accepted only if this lies
inside the output root.  Both are compared in their normal forms, component by
component.  A root whose moves come to nothing has no components, and every
path begins with these: the guard holds what it promises for every other root
(`validate_eq_ok_iff`), and for such a one nothing at all (`validate_guards`).
-/

namespace ClientRegen

/-- A path lies in a directory by what the two are called, and is not that
directory. -/
structure Path.StrictlyInside (p root : Path) : Prop where
  /-- The path starts at the root of all paths. -/
  isAbsolute : p.isAbsolute = true
  /-- So does the directory. -/
  root_isAbsolute : root.isAbsolute = true
  /-- The components of the directory come first. -/
  isPrefix : root.components <+: p.components
  /-- Others follow. -/
  ne : root.components ≠ p.components

/-- A path that begins with some components starts where they do. -/
theorem Path.isAbsolute_of_isPrefix {p root : Path} (h : root.components <+: p.components)
    (habs : p.isAbsolute = true) (hne : root.components ≠ []) : root.isAbsolute = true := by
  obtain ⟨c, cs, hcs⟩ := List.exists_cons_of_ne_nil hne
  obtain ⟨rest, hrest⟩ := h
  rw [isAbsolute_iff_head?, ← hrest, hcs] at habs
  rw [isAbsolute_iff_head?, hcs]
  exact habs

namespace Settings

variable {s : Settings} {w : World}

/-- Settings are accepted when they pass one check after the other. -/
theorem validate_eq_ok_iff_checks : s.validate = .ok () ↔ isBlankText s.generatorName = false ∧
    s.outputDir.normalize.isAbsolute = true ∧
    s.outputDir.normalize.components ≠ s.outputRoot.normalize.components ∧
    s.outputRoot.normalize.components <+: s.outputDir.normalize.components := by
  have hstarts : s.outputRoot.normalize.components <+: s.outputDir.normalize.components ↔
      s.outputDir.normalize.startsWith s.outputRoot.normalize = true :=
    List.isPrefixOf_iff_prefix.symm
  rw [hstarts]
  unfold validate
  dsimp only
  split
  · simp_all
  · split
    · simp_all
    · split
      · simp_all [or_iff_not_imp_left]
      · simp_all

/-- **Settings are accepted if the output directory lies inside the output root,
or if the root comes to nothing.** -/
theorem validate_eq_ok_iff : s.validate = .ok () ↔ isBlankText s.generatorName = false ∧
    (s.outputDir.normalize.StrictlyInside s.outputRoot.normalize ∨
      (s.outputDir.normalize.isAbsolute = true ∧ s.outputRoot.normalize = ⟨""⟩)) := by
  rw [validate_eq_ok_iff_checks]
  refine and_congr_right fun _ => ?_
  constructor
  · intro ⟨habs, hne, hprefix⟩
    by_cases hnil : s.outputRoot.normalize.components = []
    · exact Or.inr ⟨habs, Path.components_normalize_eq_nil_iff.mp hnil⟩
    · exact Or.inl ⟨habs, Path.isAbsolute_of_isPrefix hprefix habs hnil, hprefix, hne.symm⟩
  · intro h
    rcases h with hinside | ⟨habs, hempty⟩
    · exact ⟨hinside.isAbsolute, hinside.ne.symm, hinside.isPrefix⟩
    · have hnil : s.outputRoot.normalize.components = [] :=
        Path.components_normalize_eq_nil_iff.mpr hempty
      refine ⟨habs, ?_, ?_⟩
      · intro heq
        rw [Path.isAbsolute_iff_head?, heq, hnil] at habs
        cases habs
      · rw [hnil]
        exact List.nil_prefix

/-- Settings that are refused end every run before it changes anything. -/
theorem exists_run_eq_error_of_validate (h : s.validate ≠ .ok ()) (launch : Launcher) (w : World) :
    ∃ fault, s.run launch w = .error fault w := by
  cases hvalid : s.validate with
  | ok u => exact absurd hvalid h
  | error fault =>
      refine ⟨fault, run_eq_error_of_command ?_ launch⟩
      rw [command, hvalid]
      rfl

/-- **The guard is as good as its root.**  Settings with a generator and an
absolute output directory are accepted exactly if this lies strictly inside the
output root or the root comes to nothing.  A run whose output directory is
neither changes nothing. -/
theorem validate_guards (s : Settings) :
    (s.validate = .ok () ↔ isBlankText s.generatorName = false ∧
      (s.outputDir.normalize.StrictlyInside s.outputRoot.normalize ∨
        (s.outputDir.normalize.isAbsolute = true ∧ s.outputRoot.normalize = ⟨""⟩))) ∧
    (s.outputRoot.normalize ≠ ⟨""⟩ →
      ¬ s.outputDir.normalize.StrictlyInside s.outputRoot.normalize →
        ∀ launch w, ∃ fault, s.run launch w = .error fault w) := by
  refine ⟨validate_eq_ok_iff, fun hroot houtside => exists_run_eq_error_of_validate ?_⟩
  intro hvalid
  rcases (validate_eq_ok_iff.mp hvalid).2 with hinside | ⟨-, hempty⟩
  · exact houtside hinside
  · exact hroot hempty

theorem validate_guards_project :
    (projectSettings projectOutput).outputDir.normalize.StrictlyInside
        (projectSettings projectOutput).outputRoot.normalize ∧
      ∃ fault, (projectSettings ⟨"/"⟩).run vanishing projectWorld = .error fault projectWorld := by
  have hvalid : (projectSettings projectOutput).validate.toOption = some () := by
    decide +kernel
  have hroot : (projectSettings projectOutput).outputRoot.normalize ≠ ⟨""⟩ := by
    decide +kernel
  have haccepted := (validate_guards (projectSettings projectOutput)).1.mp
    (eq_ok_of_toOption hvalid)
  refine ⟨haccepted.2.resolve_right fun h => hroot h.2, ?_⟩
  refine (validate_guards (projectSettings ⟨"/"⟩)).2 hroot ?_ vanishing projectWorld
  intro hinside
  exact hinside.ne rfl

/-- The settings of the project for its own directory, with the directory that
the program is started in as the output root. -/
def unrootedSettings : Settings :=
  { projectSettings ⟨"/w"⟩ with outputRoot := ⟨"."⟩ }

/-- An output root of a single dot is no guard: the project's own directory is
cleared, although it does not lie inside. -/
theorem launch_clears_outside_root :
    unrootedSettings.validate = .ok () ∧
      unrootedSettings.outputRoot.normalize.isAbsolute = false ∧
      ¬ unrootedSettings.outputDir.normalize.StrictlyInside
        unrootedSettings.outputRoot.normalize ∧
      unrootedSettings.Launches projectWorld projectCommand.program unrootedSettings.arguments
        lostProject := by
  have hname : isBlankText unrootedSettings.generatorName = false := by decide +kernel
  have hoff : unrootedSettings.outputDir.normalize.isAbsolute = true ∧
      unrootedSettings.outputRoot.normalize = ⟨""⟩ := by
    decide +kernel
  have hvalid : unrootedSettings.validate = .ok () :=
    validate_eq_ok_iff.mpr ⟨hname, Or.inr hoff⟩
  have hrelative : unrootedSettings.outputRoot.normalize.isAbsolute = false := by
    rw [hoff.2]
    rfl
  refine ⟨hvalid, hrelative, ?_, ?_⟩
  · intro hinside
    rw [hinside.root_isAbsolute] at hrelative
    cases hrelative
  · refine launches_iff.mpr ⟨projectCommand, _, ?_, prepareOutput_ownDirectory, rfl, rfl⟩
    have haccepted : (projectSettings ⟨"/w"⟩).validate.toOption = some () := by decide +kernel
    have hcommand := command_projectSettings (eq_ok_of_toOption haccepted)
    rw [command, eq_ok_of_toOption haccepted] at hcommand
    rw [command, hvalid]
    exact hcommand

end Settings

end ClientRegen
