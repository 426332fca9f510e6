import ClientRegen.Config.Settings
import ClientRegen.Proofs.Outcomes
import ClientRegen.Proofs.Path.NormalForm

/-!
# How settings are resolved

Settings are put together from an output directory, an output root and the
texts of parameters, each of which may be missing, and then have to be accepted
(`resolve_eq_ok_iff`).  All paths but that of the specification are normal
forms from the root: their components are the root and names.
-/

namespace ClientRegen

/-- A path from the root on which only names follow. -/
structure Path.IsResolved (p : Path) : Prop where
  /-- The path starts at the root. -/
  isAbsolute : p.isAbsolute = true
  /-- No component is a dot. -/
  current_notMem : Component.current ∉ p.components
  /-- No component is a double dot. -/
  parent_notMem : Component.parent ∉ p.components

/-- A path that is made of names from the root on is resolved. -/
theorem Path.isResolved_ofComponents {cs : List Component} (h : AreNormal true cs) :
    (ofComponents true cs).IsResolved := by
  have hcases : ∀ c ∈ (ofComponents true cs).components, c = .root ∨ ∃ n, c = .name n := by
    intro c hc
    rw [components_ofComponents h, if_pos rfl, List.singleton_append, List.mem_cons] at hc
    refine hc.imp_right fun hc => ?_
    rcases h c hc with ⟨habs, -⟩ | ⟨n, -, hname⟩
    · cases habs
    · exact ⟨n, hname⟩
  refine ⟨isAbsolute_ofComponents h, ?_, ?_⟩
  · intro hmem
    rcases hcases _ hmem with hroot | ⟨n, hname⟩
    · cases hroot
    · cases hname
  · intro hmem
    rcases hcases _ hmem with hroot | ⟨n, hname⟩
    · cases hroot
    · cases hname

/-- **A path taken from an absolute base is resolved.** -/
theorem Path.isResolved_absolutize (p : Path) {base : Path} (hbase : base.isAbsolute = true) :
    (p.absolutize base).IsResolved := by
  obtain ⟨cs, hcs, heq⟩ := exists_absolutize p hbase
  rw [heq]
  exact isResolved_ofComponents hcs

/-- The working directory is an absolute path. -/
theorem World.isAbsolute_cwdPath (w : World) : w.cwdPath.isAbsolute = true := by
  rw [cwdPath, Path.isAbsolute, String.toList_append]
  rfl

/-! ## The texts that are kept -/

/-- What `plainRelative` compares: the moves of the text with its backslashes
turned. -/
theorem toList_plainRelative (s : String) : (plainRelative s).toList = Path.slashed
    (Path.movePieces (s.toList.map fun c => if c = '\\' then '/' else c)) := by
  rw [plainRelative, String.toList_ofList]
  rfl

/-- **A path as it is compared is left alone.** -/
theorem plainRelative_plainRelative (s : String) :
    plainRelative (plainRelative s) = plainRelative s := by
  have htext := toList_plainRelative s
  generalize hcs : (s.toList.map fun c => if c = '\\' then '/' else c) = cs at htext
  have hturned : '\\' ∉ cs := by
    rw [← hcs, List.mem_map]
    intro ⟨c, _, hc⟩
    split at hc
    · cases hc
    · rename_i hne
      exact hne hc
  have hpieces : ∀ piece ∈ Path.movePieces cs, '/' ∉ piece ∧ Path.isMove piece = true := by
    intro piece hpiece
    obtain ⟨hmem, hmove⟩ := List.mem_filter.mp hpiece
    exact ⟨sep_notMem_of_mem_splitAt hmem, hmove⟩
  have hplain : '\\' ∉ Path.slashed (Path.movePieces cs) := by
    rw [Path.mem_slashed_iff (by decide)]
    intro ⟨piece, hpiece, hc⟩
    apply hturned
    rw [← slashed_splitAt cs, Path.mem_slashed_iff (by decide)]
    exact ⟨piece, List.mem_of_mem_filter hpiece, hc⟩
  have hsame : ((plainRelative s).toList.map fun c => if c = '\\' then '/' else c) =
      (plainRelative s).toList := by
    rw [htext]
    refine (List.map_congr_left fun c hc => if_neg ?_).trans (List.map_id _)
    intro heq
    exact hplain (heq ▸ hc)
  rw [← String.toList_inj, toList_plainRelative, hsame, htext, Path.movePieces_slashed hpieces]

namespace Config

/-- A text that is put into a set is in it, with all that was there. -/
theorem mem_insertText {text t : String} {ts : List String} :
    t ∈ insertText text ts ↔ t = text ∨ t ∈ ts := by
  induction ts with
  | nil => simp [insertText]
  | cons u ts ih =>
      rw [insertText]
      split
      · rename_i heq
        simp [heq]
      · split
        · simp
        · rw [List.mem_cons, ih, List.mem_cons]
          tauto

/-- A set of texts holds just the texts that it is made of. -/
theorem mem_textSet {t : String} {texts : List String} : t ∈ textSet texts ↔ t ∈ texts := by
  have hfold : ∀ set, t ∈ texts.foldl (fun set u => insertText u set) set ↔
      t ∈ set ∨ t ∈ texts := by
    induction texts with
    | nil => simp
    | cons u texts ih =>
        intro set
        rw [List.foldl_cons, ih, mem_insertText, List.mem_cons]
        tauto
  rw [textSet, hfold]
  simp

/-- What is kept is not empty, and is kept as it is compared. -/
theorem plain_of_mem_ignoredPaths {t : String} {files : List String} (h : t ∈ ignoredPaths files) :
    t ≠ "" ∧ plainRelative t = t := by
  rw [ignoredPaths, mem_textSet, List.mem_filter, List.mem_map] at h
  obtain ⟨⟨file, -, rfl⟩, hne⟩ := h
  exact ⟨of_decide_eq_true hne, plainRelative_plainRelative file⟩

/-! ## The texts of parameters -/

/-- A text is that of a scalar: null has the empty text, a string its own, and
truth values and numbers are written out. -/
inductive IsScalarText : Value → String → Prop where
  | null : IsScalarText .null ""
  | bool (b : Bool) : IsScalarText (.bool b) (if b then "true" else "false")
  | number (n : Number) : IsScalarText (.number n) n.text
  | string (text : String) : IsScalarText (.string text) text

/-- A parameter has a text exactly if it is a scalar, and then it is that of the scalar. -/
theorem paramText_eq_ok_iff {name text : String} {v : Value} :
    paramText name v = .ok text ↔ IsScalarText v text := by
  constructor
  · intro h
    cases v with
    | null =>
        cases h
        exact .null
    | bool b =>
        cases h
        exact .bool b
    | number n =>
        cases h
        exact .number n
    | string own =>
        cases h
        exact .string text
    | array items => cases h
    | object fields => cases h
  · intro h
    cases h <;> rfl

/-- A parameter that is no scalar is refused by its name. -/
theorem paramText_of_composite {name : String} {v : Value} (h : ∀ text, ¬ IsScalarText v text) :
    paramText name v = .error (.configuration (.compositeParameter name)) := by
  cases v with
  | null => exact absurd .null (h _)
  | bool b => exact absurd (.bool b) (h _)
  | number n => exact absurd (.number n) (h _)
  | string own => exact absurd (.string own) (h _)
  | array items => rfl
  | object fields => rfl

/-- Parameters have texts exactly if all of them are scalars; they keep their names and their
order. -/
theorem paramTexts_eq_ok_iff {params : List (String × Value)} {texts : List (String × String)} :
    paramTexts params = .ok texts ↔
      List.Forall₂ (fun p q => q.1 = p.1 ∧ IsScalarText p.2 q.2) params texts := by
  have hparam : ∀ (p : String × Value) (q : String × String),
      (paramText p.1 p.2).map (p.1, ·) = .ok q ↔ q.1 = p.1 ∧ IsScalarText p.2 q.2 := by
    intro p ⟨name, text⟩
    rw [map_eq_ok_iff]
    simp only [paramText_eq_ok_iff, Prod.mk.injEq]
    constructor
    · intro ⟨t, ht, hname, heq⟩
      exact ⟨hname.symm, heq ▸ ht⟩
    · intro ⟨hname, htext⟩
      exact ⟨text, htext, hname.symm, rfl⟩
  rw [paramTexts, mapM_eq_ok_iff]
  simp only [hparam]

/-- Parameters have texts unless one of them is no scalar; then the first such
is refused by its name. -/
theorem paramTexts_cases (params : List (String × Value)) :
    ((∀ p ∈ params, ∃ text, IsScalarText p.2 text) ∧ ∃ texts, paramTexts params = .ok texts) ∨
      ∃ before p after, params = before ++ p :: after ∧
        (∀ q ∈ before, ∃ text, IsScalarText q.2 text) ∧ (∀ text, ¬ IsScalarText p.2 text) ∧
        paramTexts params = .error (.configuration (.compositeParameter p.1)) := by
  induction params with
  | nil => exact Or.inl ⟨by simp, [], rfl⟩
  | cons p params ih =>
      by_cases hp : ∃ text, IsScalarText p.2 text
      · obtain ⟨text, htext⟩ := hp
        have hfirst : paramText p.1 p.2 = .ok text := paramText_eq_ok_iff.mpr htext
        have hcons : paramTexts (p :: params) =
            (paramTexts params).map ((p.1, text) :: ·) := by
          rw [paramTexts, List.mapM_cons, hfirst]
          rfl
        rcases ih with ⟨hscalars, texts, htexts⟩ | ⟨before, q, after, rfl, hbefore, hq, hfault⟩
        · refine Or.inl ⟨List.forall_mem_cons.mpr ⟨⟨text, htext⟩, hscalars⟩, ?_⟩
          exact ⟨(p.1, text) :: texts, by rw [hcons, htexts]; rfl⟩
        · refine Or.inr ⟨p :: before, q, after, rfl, ?_, hq, by rw [hcons, hfault]; rfl⟩
          exact List.forall_mem_cons.mpr ⟨⟨text, htext⟩, hbefore⟩
      · have hnone : ∀ text, ¬ IsScalarText p.2 text := not_exists.mp hp
        refine Or.inr ⟨[], p, params, rfl, by simp, hnone, ?_⟩
        rw [paramTexts, List.mapM_cons, paramText_of_composite hnone]
        rfl

end Config

/-! ## Putting settings together -/

/-- What is taken instead of a blank text is not blank. -/
theorem isBlankText_meaningful?_getD {text : Option String} {default : String}
    (h : isBlankText default = false) : isBlankText ((meaningful? text).getD default) = false := by
  cases hmeant : meaningful? text with
  | none => exact h
  | some t =>
      have ht := (Option.filter_eq_some_iff.mp hmeant).2
      simpa using ht

namespace ConfigFile

open Config

variable {file : ConfigFile} {w : World} {base cwd root output : Path} {client : Client}
  {given : Overrides} {s : Settings} {n : String} {asked : Option Path}

/-- The settings for a client whose output directory, output root and texts of
parameters are known. -/
def settings (file : ConfigFile) (base : Path) (client : Client) (given : Overrides)
    (outputDir outputRoot : Path) (params : List (String × String)) : Settings where
  client := client
  specPath := file.specPath base given.apidocDir
  outputDir := outputDir
  outputRoot := outputRoot
  generatorName := (meaningful? (file.sectionOf client).generator).getD client.defaultGenerator
  generatorBin := given.generatorBin.or file.generatorBin
  templateDir := (file.sectionOf client).templateDir.map (·.absolutize base)
  params := params
  gitUser := file.gitUser
  gitRepo := (meaningful? file.gitRepoTemplate).map (· ++ "-" ++ client.suffix)
  gitHost := file.gitHost
  ignored := ignoredPaths (file.sectionOf client).filesForIgnore
  licenseTemplate := file.licenseTemplate.map (·.absolutize base)
  sourcePatches := (file.sectionOf client).sourcePatches

/-- A configuration whose specification is not there is refused with its path. -/
theorem resolve_of_missing (h : w.isFile (file.specPath base given.apidocDir) = false) :
    file.resolve w base client given =
      .error (.configuration (.missingSpecification (file.specPath base given.apidocDir))) := by
  unfold resolve
  dsimp only
  rw [h]
  rfl

/-- With a specification, settings are put together of what may be missing, and
then checked. -/
theorem resolve_of_isFile (h : w.isFile (file.specPath base given.apidocDir) = true) :
    file.resolve w base client given = (do
      let outputDir ← file.outputDir w.cwdPath base client given.outputDir
      let outputRoot ← file.rootDir base
      let params ← paramTexts (file.sectionOf client).params
      (file.settings base client given outputDir outputRoot params).validate
      return file.settings base client given outputDir outputRoot params) := by
  unfold resolve
  dsimp only
  rw [h]
  rfl

/-- **Settings are resolved if there is a specification, none of their parts is
missing, and they are accepted.** -/
theorem resolve_eq_ok_iff : file.resolve w base client given = .ok s ↔
    w.isFile (file.specPath base given.apidocDir) = true ∧ ∃ outputDir outputRoot params,
      file.outputDir w.cwdPath base client given.outputDir = .ok outputDir ∧
      file.rootDir base = .ok outputRoot ∧
      paramTexts (file.sectionOf client).params = .ok params ∧
      (file.settings base client given outputDir outputRoot params).validate = .ok () ∧
      file.settings base client given outputDir outputRoot params = s := by
  by_cases hfile : w.isFile (file.specPath base given.apidocDir) = true
  · rw [resolve_of_isFile hfile]
    simp only [bind_eq_ok_iff]
    constructor
    · intro ⟨outputDir, houtput, outputRoot, hroot, params, hparams, u, hvalid, heq⟩
      cases heq
      exact ⟨hfile, outputDir, outputRoot, params, houtput, hroot, hparams, hvalid, rfl⟩
    · intro ⟨_, outputDir, outputRoot, params, houtput, hroot, hparams, hvalid, heq⟩
      exact ⟨outputDir, houtput, outputRoot, hroot, params, hparams, (), hvalid, by rw [heq]; rfl⟩
  · rw [Bool.not_eq_true] at hfile
    rw [resolve_of_missing hfile, hfile]
    simp

/-! ## Where the package lies -/

/-- An output directory is the root and names. -/
theorem exists_outputDir (hcwd : cwd.isAbsolute = true) (hbase : base.isAbsolute = true)
    (h : file.outputDir cwd base client asked = .ok output) :
    ∃ cs, Path.AreNormal true cs ∧ output = Path.ofComponents true cs := by
  cases asked with
  | some given =>
      cases h
      exact Path.exists_absolutize given hcwd
  | none =>
      obtain ⟨p, -, rfl⟩ := map_eq_ok_iff.mp h
      exact Path.exists_absolutize p hbase

/-- An output root is the root of all paths, or it and names. -/
theorem exists_rootDir (hbase : base.isAbsolute = true) (h : file.rootDir base = .ok root) :
    ∃ cs, Path.AreNormal true cs ∧ root = Path.ofComponents true cs := by
  unfold rootDir at h
  split at h
  · cases h
    exact Path.exists_absolutize _ hbase
  · split at h
    · rename_i parent hparent
      cases h
      obtain ⟨cs, hcs, heq⟩ := Path.exists_absolutize file.outputTemplate hbase
      rw [heq] at hparent
      rcases List.eq_nil_or_concat' cs with rfl | ⟨front, c, rfl⟩
      · -- the root itself has no parent
        cases hparent
      · obtain ⟨hfront, hc⟩ := List.forall_mem_append.mp hcs
        rcases List.forall_mem_singleton.mp hc with ⟨habs, -⟩ | ⟨m, -, rfl⟩
        · cases habs
        · rw [Path.parent?_ofComponents hcs] at hparent
          exact ⟨front, hfront, (Option.some.inj hparent).symm⟩
    · cases h

/-- The name of an entry stays one with the ending of a client. -/
theorem isEntryName_withEnding (h : IsEntryName n) (client : Client) :
    IsEntryName (n ++ "-" ++ client.suffix) := by
  have hhyphen : '-' ∈ (n ++ "-" ++ client.suffix).toList := by
    simp [String.toList_append]
  refine ⟨?_, ?_, ?_, ?_⟩
  · intro hempty
    rw [hempty] at hhyphen
    simp at hhyphen
  · have hsuffix : '/' ∉ client.suffix.toList := by
      cases client <;> decide
    simp [String.toList_append, h.slash_notMem, hsuffix]
  · intro hdot
    rw [hdot] at hhyphen
    simp at hhyphen
  · intro hdots
    rw [hdots] at hhyphen
    simp at hhyphen

/-- **The output directory lies in the output root, unless one of them is
configured:** both keep what comes before the last name of the template. -/
theorem exists_layout (hbase : base.isAbsolute = true) (hroot : file.outputRoot = none)
    (hn : file.outputTemplate.fileName? = some n) (cwd : Path) (client : Client) :
    ∃ cs, Path.AreNormal true cs ∧ file.rootDir base = .ok (Path.ofComponents true cs) ∧
      file.outputDir cwd base client none =
        .ok (Path.ofComponents true (cs ++ [.name (n ++ "-" ++ client.suffix)])) := by
  obtain ⟨cs, hcs, htemplate, houtput⟩ := Path.exists_absolutize_withFileName hbase hn
    (isEntryName_withEnding (Path.isEntryName_of_fileName? hn) client)
  refine ⟨cs, hcs.left, ?_, ?_⟩
  · rw [rootDir, hroot]
    dsimp only
    rw [htemplate, Path.parent?_ofComponents hcs]
  · rw [outputDir, withEnding, hn]
    exact congrArg Except.ok houtput

/-- A template without a last name gives no output directory. -/
theorem outputDir_of_noFinalName (hn : file.outputTemplate.fileName? = none) (cwd base : Path)
    (client : Client) :
    file.outputDir cwd base client none =
      .error (.configuration (.noFinalName file.outputTemplate)) := by
  rw [outputDir, withEnding, hn]
  rfl

end ConfigFile

end ClientRegen
