import ClientRegen.Proofs.Config.Resolving
import ClientRegen.Proofs.Planning

/-!
# What a run leaves of its specification

Nothing in the settings keeps the specification out of the output directory.
Its document is there at the launch exactly if clearing does not remove it, and
its path still leads to it if clearing removes nothing on the way
(`launch_keeps_specification`).
-/

namespace ClientRegen

namespace Settings

variable {s : Settings} {w before : World} {program : Path} {args : List String}
  {file : ConfigFile} {base : Path} {client : Client} {given : Overrides}

/-- Settings are resolved only if the path of the specification leads to a
file. -/
theorem isFile_of_resolve (h : file.resolve w base client given = .ok s) :
    w.isFile s.specPath = true := by
  obtain ⟨hfile, outputDir, outputRoot, params, -, -, -, -, rfl⟩ :=
    ConfigFile.resolve_eq_ok_iff.mp h
  exact hfile

/-- **A run keeps its specification unless it clears it away.**  When a run gets
as far as launching its generator, the document that the path of the
specification led to is still there, unchanged, exactly if clearing does not
remove it: if it does not lie below the output directory, or if its path from
there or that of a directory around it is on the list.  And the path still leads
to the document if clearing removes no directory and no link on the way to it
either. -/
theorem launch_keeps_specification (hw : w.root.WellFormed)
    (hresolve : file.resolve w base client given = .ok s)
    (hlaunch : s.Launches w program args before) :
    ∃ l content executable, w.locate s.specPath true = .ok (.present l (.file content executable)) ∧
      (before.root.at? l = some (.file content executable) ↔ ¬ s.Removes w l) ∧
      ((∀ k ∈ w.passedBy s.specPath, ¬ s.Removes w k) →
        before.readBytes s.specPath = .ok content) := by
  obtain ⟨l, content, executable, hlocate⟩ := exists_locate_of_isFile (isFile_of_resolve hresolve)
  obtain ⟨command, report, -, hprepare, -, -⟩ := launches_iff.mp hlaunch
  have hold : w.root.nodeAt? l = some (.file content executable) :=
    Entry.nodeAt?_eq_file_iff.mpr (at?_of_locate hlocate)
  refine ⟨l, content, executable, hlocate, ?_, fun hway => ?_⟩
  · rw [← Entry.nodeAt?_eq_file_iff]
    constructor
    · intro hthere hremoved
      exact nodeAt?_of_removed hw hprepare hremoved (by simp) hthere
    · intro hkept
      exact nodeAt?_of_prepared hw hprepare hold hkept
  · obtain ⟨e, hthere, hnode⟩ := locate_of_passed hlocate (cwd_of_prepared hw hprepare)
      fun k hk node hnode => nodeAt?_of_prepared hw hprepare hnode (hway k hk)
    rw [World.readBytes, World.entry?, World.find, hthere]
    cases e with
    | file content' executable' =>
        cases hnode
        rfl
    | link target => cases hnode
    | dir es => cases hnode

/-! ## A project whose output directory is its own directory -/

theorem locate_projectSpec : projectWorld.locate ⟨"/w/api-docs/index.yaml"⟩ true =
    .ok (.present ["w", "api-docs", "index.yaml"] (.file ⟨#[2]⟩ false)) := by
  have hspells : (⟨"/w/api-docs/index.yaml"⟩ : Path).Spells ["w", "api-docs", "index.yaml"] := by
    decide
  exact locate_of_spells hspells rfl (by simp) true

/-- The settings of the project are resolved without a configuration file. -/
theorem resolve_projectWorld {output : Path} {asked : Option Path}
    (houtput : ConfigFile.empty.outputDir projectWorld.cwdPath ⟨"/w"⟩ .php asked = .ok output)
    (hvalid : (projectSettings output).validate = .ok ()) :
    ConfigFile.empty.resolve projectWorld ⟨"/w"⟩ .php ⟨none, asked, none⟩ =
      .ok (projectSettings output) := by
  have hpath : ConfigFile.empty.specPath ⟨"/w"⟩ none = ⟨"/w/api-docs/index.yaml"⟩ := by
    decide
  have hfile : projectWorld.isFile ⟨"/w/api-docs/index.yaml"⟩ = true := by
    rw [World.isFile, World.entry?, World.find, locate_projectSpec]
    rfl
  have hroot : ConfigFile.empty.rootDir ⟨"/w"⟩ = .ok ⟨"/"⟩ := by decide
  have hsettings : ConfigFile.empty.settings ⟨"/w"⟩ .php ⟨none, asked, none⟩ output ⟨"/"⟩ [] =
      projectSettings output := by
    rw [ConfigFile.settings, hpath]
    rfl
  refine ConfigFile.resolve_eq_ok_iff.mpr
    ⟨hpath ▸ hfile, output, ⟨"/"⟩, [], houtput, hroot, rfl, ?_, hsettings⟩
  rw [hsettings]
  exact hvalid

/-- The project with its own directory cleared. -/
def lostProject : World :=
  projectWorld.withRoot (projectWorld.root.put ["w"] (.dir []))

theorem prepareOutput_ownDirectory :
    (projectSettings ⟨"/w"⟩).prepareOutput projectWorld = .ok ⟨1, 1, []⟩ lostProject := by
  have hspells : (projectSettings ⟨"/w"⟩).outputDir.Spells ["w"] := by decide
  have hends : World.withoutEndSlashes (projectSettings ⟨"/w"⟩).outputDir =
      (projectSettings ⟨"/w"⟩).outputDir := by
    decide
  have hw : projectWorld.root.WellFormed := by decide
  exact prepareOutput_of_spells hw hspells hends rfl

/-- The project's own directory is accepted as its output directory, because it
lies inside the output root; the generator is then launched without the
specification that it is to read. -/
theorem launch_loses_specification :
    ConfigFile.load projectWorld none = .ok (.empty, ⟨"/w"⟩) ∧
      ConfigFile.empty.resolve projectWorld ⟨"/w"⟩ .php ⟨none, some ⟨"."⟩, none⟩ =
        .ok (projectSettings ⟨"/w"⟩) ∧
      projectWorld.readBytes (projectSettings ⟨"/w"⟩).specPath = .ok ⟨#[2]⟩ ∧
      (projectSettings ⟨"/w"⟩).Launches projectWorld projectCommand.program
        (projectSettings ⟨"/w"⟩).arguments lostProject ∧
      lostProject.readBytes (projectSettings ⟨"/w"⟩).specPath = .error .notFound := by
  have houtput : ConfigFile.empty.outputDir projectWorld.cwdPath ⟨"/w"⟩ .php (some ⟨"."⟩) =
      .ok ⟨"/w"⟩ := by
    decide +kernel
  have hvalid : (projectSettings ⟨"/w"⟩).validate.toOption = some () := by decide +kernel
  have hdefault : projectWorld.cwdPath.join ⟨ConfigFile.defaultName⟩ =
      ⟨"/w/openapi-client-generator.yaml"⟩ := by
    decide +kernel
  have hconfig : (⟨"/w/openapi-client-generator.yaml"⟩ : Path).Spells
      (["w"] ++ ["openapi-client-generator.yaml"]) := by
    decide +kernel
  have hnone : projectWorld.isFile ⟨"/w/openapi-client-generator.yaml"⟩ = false := by
    rw [World.isFile, World.entry?, World.find, locate_vacant_of_spells hconfig rfl rfl]
  have hspec : (⟨"/w/api-docs/index.yaml"⟩ : Path).Spells ["w", "api-docs", "index.yaml"] := by
    decide +kernel
  refine ⟨?_, resolve_projectWorld houtput (eq_ok_of_toOption hvalid), ?_, ?_, ?_⟩
  · unfold ConfigFile.load
    dsimp only
    rw [hdefault, hnone]
    rfl
  · change projectWorld.readBytes ⟨"/w/api-docs/index.yaml"⟩ = _
    rw [World.readBytes, World.entry?, World.find, locate_projectSpec]
  · exact launches_iff.mpr ⟨projectCommand, _, command_projectSettings (eq_ok_of_toOption hvalid),
      prepareOutput_ownDirectory, rfl, rfl⟩
  · change lostProject.readBytes ⟨"/w/api-docs/index.yaml"⟩ = _
    have hlost : lostProject.root.at? ["w"] = some (.dir []) := rfl
    have hsteps := List.forall_mem_cons.mp hspec.isStep
    have hfirst : ∀ n ∈ ["w"], IsStep n := by simpa using hsteps.1
    have hsecond : IsStep "api-docs" := hsteps.2 _ List.mem_cons_self
    have hwalk : walk lostProject.root true linkLimit [] ["w", "api-docs", "index.yaml"] =
        .error .notFound := by
      change walk lostProject.root true linkLimit [] (["w"] ++ ["api-docs", "index.yaml"]) = _
      rw [walk_append_of_dir hlost hfirst]
      exact walk_missing hlost hsecond rfl (by simp)
    rw [World.readBytes, World.entry?, World.find, locate_eq_walk hspec, hwalk]

theorem launch_keeps_specification_project :
    ∃ before, (projectSettings projectOutput).Launches projectWorld projectCommand.program
        (projectSettings projectOutput).arguments before ∧
      ∃ l content executable,
        projectWorld.locate (projectSettings projectOutput).specPath true =
          .ok (.present l (.file content executable)) ∧
        (before.root.at? l = some (.file content executable) ↔
          ¬ (projectSettings projectOutput).Removes projectWorld l) ∧
        ((∀ k ∈ projectWorld.passedBy (projectSettings projectOutput).specPath,
          ¬ (projectSettings projectOutput).Removes projectWorld k) →
            before.readBytes (projectSettings projectOutput).specPath = .ok content) := by
  have houtput : ConfigFile.empty.outputDir projectWorld.cwdPath ⟨"/w"⟩ .php none =
      .ok projectOutput := by
    decide +kernel
  have hvalid : (projectSettings projectOutput).validate.toOption = some () := by
    decide +kernel
  have hw : projectWorld.root.WellFormed := by decide
  have hlaunch : (projectSettings projectOutput).Launches projectWorld projectCommand.program
      (projectSettings projectOutput).arguments clearedProject :=
    launches_iff.mpr ⟨projectCommand, _, command_projectOutput, prepareOutput_projectOutput,
      rfl, rfl⟩
  exact ⟨clearedProject, hlaunch, launch_keeps_specification hw
    (resolve_projectWorld houtput (eq_ok_of_toOption hvalid)) hlaunch⟩

end Settings

end ClientRegen
