import ClientRegen.Proofs.Config.Guard

/-!
# What resolved settings promise

Whatever a configuration file and a command line say, and however they spell
it, the paths in the settings that they lead to are the root and names, and the
output directory lies strictly inside the output root (`resolve_promises`).

Without an output root in the file and without an output directory on the
command line, the output directory lies in the output root by itself: only the
specification, the last name of the template or a parameter can be at fault
(`resolve_default_layout`).
-/

namespace ClientRegen

namespace ConfigFile

open Config

variable {file : ConfigFile} {w : World} {base : Path} {client : Client} {given : Overrides}
  {n : String}

/-! ## The base of a file -/

/-- A file that is read is taken from an absolute directory. -/
theorem isAbsolute_of_read {p : Path} (h : read w p = .ok (file, base)) :
    base.isAbsolute = true := by
  unfold read at h
  split at h
  · cases h
  · split at h
    · cases h
    · cases h
      exact (Path.isResolved_absolutize _ w.isAbsolute_cwdPath).isAbsolute

/-- Whether the file is asked for, found or left out, its base is absolute. -/
theorem isAbsolute_of_load {asked : Option Path} (h : load w asked = .ok (file, base)) :
    base.isAbsolute = true := by
  unfold load at h
  split at h
  · split at h
    · exact isAbsolute_of_read h
    · cases h
  · dsimp only at h
    split at h
    · exact isAbsolute_of_read h
    · cases h
      exact w.isAbsolute_cwdPath

/-! ## The default layout -/

/-- A generator name that is left out or blank is replaced by the default one, so the name is
never blank. -/
theorem isBlankText_generatorName (generator : Option String) (client : Client) :
    isBlankText ((meaningful? generator).getD client.defaultGenerator) = false := by
  refine isBlankText_meaningful?_getD ?_
  cases client <;> decide

/-- Settings of the default layout are accepted. -/
theorem validate_of_layout {cs : List Component} {params : List (String × String)}
    (hcs : Path.AreNormal true cs) (hn : IsEntryName n) :
    (file.settings base client given (Path.ofComponents true (cs ++ [.name n]))
      (Path.ofComponents true cs) params).validate = .ok () := by
  have hout := hcs.concat hn
  have hcomponents := Path.components_ofComponents hcs
  have hcomponents' := Path.components_ofComponents hout
  refine Settings.validate_eq_ok_iff.mpr ⟨isBlankText_generatorName _ _, Or.inl ?_⟩
  rw [settings]
  dsimp only
  rw [Path.normalize_ofComponents hcs, Path.normalize_ofComponents hout]
  refine ⟨Path.isAbsolute_ofComponents hout, Path.isAbsolute_ofComponents hcs, ?_, ?_⟩
  · rw [hcomponents, hcomponents']
    exact ⟨[.name n], by simp⟩
  · rw [hcomponents, hcomponents']
    simp

/-- Settings of the default layout are resolved when nothing is missing. -/
theorem exists_resolve_of_layout (hbase : base.isAbsolute = true) (hroot : file.outputRoot = none)
    (hasked : given.outputDir = none)
    (hfile : w.isFile (file.specPath base given.apidocDir) = true)
    (hn : file.outputTemplate.fileName? = some n)
    (hparams : ∃ texts, paramTexts (file.sectionOf client).params = .ok texts) :
    ∃ s, file.resolve w base client given = .ok s ∧
      s.outputDir = s.outputRoot.join ⟨n ++ "-" ++ client.suffix⟩ := by
  obtain ⟨texts, htexts⟩ := hparams
  obtain ⟨cs, hcs, hrootDir, houtputDir⟩ := exists_layout hbase hroot hn w.cwdPath client
  have hname := isEntryName_withEnding (Path.isEntryName_of_fileName? hn) client
  refine ⟨_, resolve_eq_ok_iff.mpr ⟨hfile, _, _, texts, hasked ▸ houtputDir, hrootDir, htexts,
    validate_of_layout hcs hname, rfl⟩, ?_⟩
  exact (Path.join_ofComponents hcs hname).symm

/-- **The default layout passes its own guard.**  Without a configured output
root and without an output directory on the command line, settings are resolved
unless the specification is no file, the template has no last name, or a
parameter is no scalar; the output directory is then the output root joined with
the last name of the template and the ending of the client. -/
theorem resolve_default_layout (hbase : base.isAbsolute = true) (hroot : file.outputRoot = none)
    (hasked : given.outputDir = none) (w : World) (client : Client) :
    (w.isFile (file.specPath base given.apidocDir) = false ∧
      file.resolve w base client given =
        .error (.configuration (.missingSpecification (file.specPath base given.apidocDir)))) ∨
    (w.isFile (file.specPath base given.apidocDir) = true ∧
      file.outputTemplate.fileName? = none ∧
      file.resolve w base client given =
        .error (.configuration (.noFinalName file.outputTemplate))) ∨
    (w.isFile (file.specPath base given.apidocDir) = true ∧
      ∃ n, file.outputTemplate.fileName? = some n ∧
        ((∃ before p after, (file.sectionOf client).params = before ++ p :: after ∧
            (∀ q ∈ before, ∃ text, IsScalarText q.2 text) ∧ (∀ text, ¬ IsScalarText p.2 text) ∧
            file.resolve w base client given =
              .error (.configuration (.compositeParameter p.1))) ∨
          ((∀ p ∈ (file.sectionOf client).params, ∃ text, IsScalarText p.2 text) ∧
            ∃ s, file.resolve w base client given = .ok s ∧
              s.outputDir = s.outputRoot.join ⟨n ++ "-" ++ client.suffix⟩))) := by
  cases hfile : w.isFile (file.specPath base given.apidocDir) with
  | false => exact Or.inl ⟨rfl, resolve_of_missing hfile⟩
  | true =>
      refine Or.inr ?_
      cases hn : file.outputTemplate.fileName? with
      | none =>
          refine Or.inl ⟨rfl, rfl, ?_⟩
          rw [resolve_of_isFile hfile, hasked, outputDir_of_noFinalName hn]
          rfl
      | some n =>
          refine Or.inr ⟨rfl, n, rfl, ?_⟩
          obtain ⟨cs, -, hrootDir, houtputDir⟩ := exists_layout hbase hroot hn w.cwdPath client
          rcases paramTexts_cases (file.sectionOf client).params with
            ⟨hscalars, htexts⟩ | ⟨before, p, after, hparams, hbefore, hp, hfault⟩
          · exact Or.inr ⟨hscalars,
              exists_resolve_of_layout hbase hroot hasked hfile hn htexts⟩
          · refine Or.inl ⟨before, p, after, hparams, hbefore, hp, ?_⟩
            rw [resolve_of_isFile hfile, hasked, houtputDir, hrootDir, hfault]
            rfl

/-- A file with a template that wanders, and with a section for PHP. -/
def wanderingFile : ConfigFile :=
  { ConfigFile.empty with
    outputDirTemplate := some ⟨"..//lib/../api/."⟩
    licenseTemplate := some ⟨"./LICENSE"⟩
    phpArgs := ⟨none, [("gem", .null), ("strict", .bool true)], some ⟨"../../templates"⟩,
      [".\\keep//me", "."], []⟩ }

/-- The last name of the template is found behind all the detours. -/
theorem fileName?_wanderingFile : wanderingFile.outputTemplate.fileName? = some "api" := by
  decide

/-- The specification of the file is there. -/
theorem isFile_wanderingFile :
    Settings.projectWorld.isFile (wanderingFile.specPath ⟨"/w"⟩ none) = true := by
  have hpath : wanderingFile.specPath ⟨"/w"⟩ none = ⟨"/w/api-docs/index.yaml"⟩ := by
    decide
  rw [hpath, World.isFile, World.entry?, World.find, Settings.locate_projectSpec]
  rfl

/-- The settings of the file are resolved. -/
theorem exists_resolve_wanderingFile :
    ∃ s, wanderingFile.resolve Settings.projectWorld ⟨"/w"⟩ .php ⟨none, none, none⟩ = .ok s := by
  have habs : Path.isAbsolute ⟨"/w"⟩ = true := by decide
  have hroot : wanderingFile.outputRoot = none := rfl
  have hparams : paramTexts (wanderingFile.sectionOf .php).params =
      .ok [("gem", ""), ("strict", "true")] := rfl
  have hasked : (⟨none, none, none⟩ : Overrides).outputDir = none := rfl
  obtain ⟨s, hs, -⟩ := exists_resolve_of_layout habs hroot hasked isFile_wanderingFile
    fileName?_wanderingFile ⟨_, hparams⟩
  exact ⟨s, hs⟩

/-- A template that wanders leads to an output directory right below the output root. -/
theorem resolve_default_layout_wandering :
    ∃ s, wanderingFile.resolve Settings.projectWorld ⟨"/w"⟩ .php ⟨none, none, none⟩ = .ok s ∧
      s.outputDir = s.outputRoot.join ⟨"api-php"⟩ := by
  have habs : Path.isAbsolute ⟨"/w"⟩ = true := by decide
  have hroot : wanderingFile.outputRoot = none := rfl
  have hasked : (⟨none, none, none⟩ : Overrides).outputDir = none := rfl
  have hending : "api" ++ "-" ++ Client.php.suffix = "api-php" := by decide
  rcases resolve_default_layout habs hroot hasked Settings.projectWorld .php with
    ⟨hmissing, -⟩ | ⟨-, hnone, -⟩ | ⟨-, n, hn, hparams⟩
  · rw [isFile_wanderingFile] at hmissing
    cases hmissing
  · rw [fileName?_wanderingFile] at hnone
    cases hnone
  · rw [fileName?_wanderingFile] at hn
    cases hn
    rcases hparams with ⟨before, p, after, -, -, -, hfault⟩ | ⟨-, hresolved⟩
    · obtain ⟨s, hs⟩ := exists_resolve_wanderingFile
      rw [hs] at hfault
      cases hfault
    · rw [hending] at hresolved
      exact hresolved

/-! ## What holds of all settings -/

/-- What the settings of a client promise of its section. -/
structure Promises (part : ClientSection) (s : Settings) : Prop where
  /-- The output directory is the root and names. -/
  outputDir : s.outputDir.IsResolved
  /-- So is the output root. -/
  outputRoot : s.outputRoot.IsResolved
  /-- The output directory lies inside the output root. -/
  strictlyInside : s.outputDir.StrictlyInside s.outputRoot
  /-- A directory of templates is the root and names. -/
  templateDir : ∀ p, s.templateDir = some p → p.IsResolved
  /-- So is a licence. -/
  licenseTemplate : ∀ p, s.licenseTemplate = some p → p.IsResolved
  /-- There is a generator. -/
  generatorName : isBlankText s.generatorName = false
  /-- What is kept is not empty, and is kept as it is compared. -/
  ignored : ∀ t ∈ s.ignored, t ≠ "" ∧ plainRelative t = t
  /-- The parameters are those of the section, in its order, with the texts of
  scalars. -/
  params : List.Forall₂ (fun p q => q.1 = p.1 ∧ IsScalarText p.2 q.2) part.params s.params

/-- A path that is made absolute is the root and names. -/
theorem isResolved_of_map {asked : Option Path} {p : Path} (hbase : base.isAbsolute = true)
    (h : asked.map (·.absolutize base) = some p) : p.IsResolved := by
  obtain ⟨q, -, rfl⟩ := Option.map_eq_some_iff.mp h
  exact Path.isResolved_absolutize q hbase

/-- What is accepted lies inside, because its output root is absolute. -/
theorem strictlyInside_of_validate {output root : List Component}
    {params : List (String × String)} (houtput : Path.AreNormal true output)
    (hroot : Path.AreNormal true root)
    (h : (file.settings base client given (Path.ofComponents true output)
      (Path.ofComponents true root) params).validate = .ok ()) :
    (Path.ofComponents true output).StrictlyInside (Path.ofComponents true root) := by
  have hinside := (Settings.validate_eq_ok_iff.mp h).2
  rw [settings] at hinside
  dsimp only at hinside
  rw [Path.normalize_ofComponents houtput, Path.normalize_ofComponents hroot] at hinside
  refine hinside.resolve_right fun hempty => ?_
  have habs := Path.isAbsolute_ofComponents hroot
  rw [hempty.2] at habs
  cases habs

/-- **Settings that are resolved keep what they promise,** whatever the file and
the command line say.  The base that a file is loaded with is absolute. -/
theorem resolve_promises (w : World) :
    (∀ asked file base, load w asked = .ok (file, base) → base.isAbsolute = true) ∧
      ∀ file base client given s, base.isAbsolute = true →
        resolve file w base client given = .ok s → Promises (file.sectionOf client) s := by
  refine ⟨fun asked file base h => isAbsolute_of_load h, ?_⟩
  intro file base client given s hbase h
  obtain ⟨-, outputDir, outputRoot, params, houtput, hroot, hparams, hvalid, rfl⟩ :=
    resolve_eq_ok_iff.mp h
  obtain ⟨os, hos, rfl⟩ := exists_outputDir w.isAbsolute_cwdPath hbase houtput
  obtain ⟨rs, hrs, rfl⟩ := exists_rootDir hbase hroot
  exact {
    outputDir := Path.isResolved_ofComponents hos
    outputRoot := Path.isResolved_ofComponents hrs
    strictlyInside := strictlyInside_of_validate hos hrs hvalid
    templateDir := fun p hp => isResolved_of_map hbase hp
    licenseTemplate := fun p hp => isResolved_of_map hbase hp
    generatorName := isBlankText_generatorName _ client
    ignored := fun t ht => plain_of_mem_ignoredPaths ht
    params := paramTexts_eq_ok_iff.mp hparams }

/-- Without a file in the project the defaults are loaded. -/
theorem load_projectWorld : load Settings.projectWorld none = .ok (.empty, ⟨"/w"⟩) := by
  have hdefault : Settings.projectWorld.cwdPath.join ⟨defaultName⟩ =
      ⟨"/w/openapi-client-generator.yaml"⟩ := by
    decide
  have hspells : (⟨"/w/openapi-client-generator.yaml"⟩ : Path).Spells
      (["w"] ++ ["openapi-client-generator.yaml"]) := by
    decide
  have hnone : Settings.projectWorld.isFile ⟨"/w/openapi-client-generator.yaml"⟩ = false := by
    rw [World.isFile, World.entry?, World.find, locate_vacant_of_spells hspells rfl rfl]
  rw [load, hdefault, hnone]
  rfl

/-- The promises hold of settings from spellings that wander. -/
theorem resolve_promises_wandering :
    Path.isAbsolute ⟨"/w"⟩ = true ∧
      ∃ s, wanderingFile.resolve Settings.projectWorld ⟨"/w"⟩ .php ⟨none, none, none⟩ = .ok s ∧
        Promises wanderingFile.phpArgs s := by
  have habs : Path.isAbsolute ⟨"/w"⟩ = true :=
    (resolve_promises Settings.projectWorld).1 none _ _ load_projectWorld
  obtain ⟨s, hs⟩ := exists_resolve_wanderingFile
  exact ⟨habs, s, hs, (resolve_promises Settings.projectWorld).2 _ _ _ _ _ habs hs⟩

end ConfigFile

end ClientRegen
