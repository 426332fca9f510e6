import ClientRegen.Proofs.Document.JsonReader
import ClientRegen.Proofs.FileTree.Walking
import ClientRegen.Proofs.Outcomes
import ClientRegen.Proofs.Spec.Caching
import Mathlib.Data.List.Nodup

/-!
# What labelling enum files changes

Every new text is made before the first file is written, so a run that fails
changes nothing, whichever file it fails at.  A run that succeeds has found the
text and the enum of every enum file (`patchedTexts_eq_ok`), and what it found
does not depend on the files before it, because the kept documents make no
difference.  It succeeds whenever there is a text for each enum file
(`exists_patchEnums_eq_ok_iff`).

Writing the texts is a fold over files that stand at different locations.  Each
write is seen at its own location only (`putTextAt_spec`), so in the end each
file holds its own text and everything else is as it was (`textsPut_foldl`).
-/

namespace ClientRegen

variable {w w' : World} {output spec : Path} {f : FoundFile} {g : EnumFile} {l : Location}
  {name typeName text : String} {bytes : ByteArray} {executable : Bool}
  {rs : List (EnumFile × String)} {r : EnumFile × String} {files : List FoundFile}

/-! ## Enum files -/

/-- A name ends in the suffix of enum files, in any mix of cases, and something
stands before it, which spells the name of the type. -/
def NamesEnumFile (name typeName : String) : Prop :=
  ∃ stem ending, name.toList = stem ++ ending ∧ stem ≠ [] ∧
    ending.map Char.toLower = enumFileSuffix ∧ typeName = String.ofList (Text.pascalCase stem)

theorem enumTypeName?_eq_some_iff :
    enumTypeName? name = some typeName ↔ NamesEnumFile name typeName := by
  unfold enumTypeName?
  dsimp only
  constructor
  · intro h
    split at h
    · rename_i hname
      cases h
      exact ⟨_, _, (List.take_append_drop _ _).symm, hname.2, hname.1, rfl⟩
    · cases h
  · rintro ⟨stem, ending, hname, hstem, hending, rfl⟩
    have hlength : name.toList.length - enumFileSuffix.length = stem.length := by
      rw [hname, ← hending, List.length_append, List.length_map, Nat.add_sub_cancel]
    rw [hlength, hname, List.take_left, List.drop_left, if_pos ⟨hending, hstem⟩]

/-! ## Writing texts -/

/-- A text that is written to a file is seen there and nowhere else. -/
theorem putTextAt_spec (hw : w.root.WellFormed)
    (h : w.root.nodeAt? l = some (.file bytes executable)) (text : String) :
    (w.putTextAt l text).root.WellFormed ∧
      (w.putTextAt l text).root.nodeAt? l = some (.file text.toUTF8 executable) ∧
      ∀ k, k ≠ l → (w.putTextAt l text).root.nodeAt? k = w.root.nodeAt? k := by
  have hat := Entry.nodeAt?_eq_file_iff.mp h
  have hreplaced : Entry.Replaced w.root l (.file text.toUTF8 executable)
      (w.putTextAt l text).root :=
    Entry.replaced_update hw hat rfl (.file _ _)
  exact ⟨hreplaced.wellFormed, hreplaced.nodeAt?_of_file hat⟩

/-- A world in which files hold new texts, and nothing else has changed. -/
structure TextsPut (w : World) (rs : List (EnumFile × String)) (w' : World) : Prop where
  /-- The tree is well-formed. -/
  wellFormed : w'.root.WellFormed
  /-- Each file holds its text, with the same right to be run. -/
  nodeAt?_of_mem : ∀ r ∈ rs, ∀ bytes executable,
    w.root.nodeAt? r.1.location = some (.file bytes executable) →
      w'.root.nodeAt? r.1.location = some (.file r.2.toUTF8 executable)
  /-- Nothing changes at other places. -/
  nodeAt?_eq : ∀ l, (∀ r ∈ rs, r.1.location ≠ l) → w'.root.nodeAt? l = w.root.nodeAt? l
  /-- The working directory stays. -/
  cwd_eq : w'.cwd = w.cwd
  /-- The environment stays. -/
  env_eq : w'.env = w.env

/-- **Texts that are written to different files are all there in the end.** -/
theorem textsPut_foldl (hw : w.root.WellFormed)
    (hfile : ∀ r ∈ rs, ∃ bytes executable,
      w.root.nodeAt? r.1.location = some (.file bytes executable))
    (hdistinct : rs.Pairwise fun r r' => r.1.location ≠ r'.1.location) :
    TextsPut w rs (rs.foldl (fun w r => w.putTextAt r.1.location r.2) w) := by
  induction rs generalizing w with
  | nil => exact ⟨hw, by simp, fun l _ => rfl, rfl, rfl⟩
  | cons r rs ih =>
      rw [List.pairwise_cons] at hdistinct
      rw [List.forall_mem_cons] at hfile
      obtain ⟨bytes, executable, hr⟩ := hfile.1
      obtain ⟨hwf, hself, hother⟩ := putTextAt_spec hw hr r.2
      have hsame : ∀ r' ∈ rs, (w.putTextAt r.1.location r.2).root.nodeAt? r'.1.location =
          w.root.nodeAt? r'.1.location := fun r' hr' =>
        hother _ (hdistinct.1 r' hr').symm
      -- the later writes find their files as they were before the first one
      have hrest := ih hwf (fun r' hr' => hsame r' hr' ▸ hfile.2 r' hr') hdistinct.2
      rw [List.foldl_cons]
      refine ⟨hrest.wellFormed, fun r' hr' bytes' executable' h => ?_, fun l hl => ?_,
        hrest.cwd_eq, hrest.env_eq⟩
      · rcases List.mem_cons.mp hr' with rfl | hr'
        · rw [hr] at h
          cases h
          rw [hrest.nodeAt?_eq _ fun q hq => (hdistinct.1 q hq).symm, hself]
        · exact hrest.nodeAt?_of_mem r' hr' bytes' executable' (hsame r' hr' ▸ h)
      · rw [List.forall_mem_cons] at hl
        rw [hrest.nodeAt?_eq l hl.2, hother l hl.1.symm]

/-! ## The texts that are made -/

/-- What a specification that was just opened finds under some names is this
enum. -/
def FindsEnum (w : World) (spec : Path) (names : List String) (m : EnumMetadata) : Prop :=
  ∃ s, Specification.openAt w spec = .ok s ∧ (s.findEnum w names).1 = .ok (.found m)

/-- The text of an enum file with the labels of its enum. -/
def IsLabelledText (w : World) (spec : Path) (typeName old new : String) : Prop :=
  ∃ m, FindsEnum w spec [typeName, typeName ++ "Enum"] m ∧ patchEnumSource old m = .ok new

/-- A file that was met as an enum file, with the text that was made for it. -/
structure Makes (w : World) (spec : Path) (f : FoundFile) (r : EnumFile × String) : Prop where
  /-- The path is that on which the file was met. -/
  path_eq : r.1.path = f.path
  /-- The file stands where it was met. -/
  location_eq : r.1.location = f.location
  /-- The file is named for its enum. -/
  enumTypeName?_eq : enumTypeName? f.name = some r.1.typeName
  /-- The text of the file was read. -/
  textOf_eq : World.textOf f.content = .ok r.1.content
  /-- The new text is the old one with the labels of the enum. -/
  isLabelledText : IsLabelledText w spec r.1.typeName r.1.content r.2

/-- A file that is named for an enum opens as an enum file. -/
theorem enumFile?_eq_some_ok (h : f.enumFile? = some (.ok g)) :
    enumTypeName? f.name = some g.typeName ∧ World.textOf f.content = .ok g.content ∧
      g.path = f.path ∧ g.location = f.location := by
  unfold FoundFile.enumFile? at h
  obtain ⟨typeName, htype, hopen⟩ := Option.map_eq_some_iff.mp h
  cases htext : World.textOf f.content with
  | ok text =>
      simp only [htext, Except.ok.injEq] at hopen
      subst hopen
      exact ⟨htype, rfl, rfl, rfl⟩
  | error fault => simp [htext] at hopen

/-- Enum files that were opened are the files that are named so. -/
theorem forall₂_enumFile? {files : List FoundFile} {gs : List EnumFile}
    (h : (files.filterMap (·.enumFile?)).mapM id = .ok gs) :
    List.Forall₂ (fun f g => f.enumFile? = some (.ok g))
      (files.filter fun f => (enumTypeName? f.name).isSome) gs := by
  rw [mapM_eq_ok_iff] at h
  induction files generalizing gs with
  | nil =>
      cases h
      exact .nil
  | cons f files ih =>
      cases hname : enumTypeName? f.name with
      | none =>
          have hnone : f.enumFile? = none := by rw [FoundFile.enumFile?, hname, Option.map_none]
          rw [List.filterMap_cons_none hnone] at h
          rw [List.filter_cons_of_neg (by simp [hname])]
          exact ih h
      | some typeName =>
          obtain ⟨opened, hsome⟩ : ∃ opened, f.enumFile? = some opened :=
            ⟨_, by rw [FoundFile.enumFile?, hname, Option.map_some]⟩
          rw [List.filterMap_cons_some hsome] at h
          rw [List.filter_cons_of_pos (by simp [hname])]
          cases h with
          | cons hf hfs => exact .cons (hsome.trans (congrArg some hf)) (ih hfs)

/-- **Each new text is made from the file and the specification alone.** -/
theorem forall₂_newTexts {opened s : Specification} {gs : List EnumFile}
    (hopen : Specification.openAt w spec = .ok opened) (hs : Current w s.documents)
    (hroot : s.root = opened.root) (h : EnumFile.newTexts w s gs = .ok rs) :
    List.Forall₂ (fun g r => r.1 = g ∧ IsLabelledText w spec g.typeName g.content r.2) gs rs := by
  induction gs generalizing s rs with
  | nil =>
      cases h
      exact .nil
  | cons g gs ih =>
      have hfresh := Specification.findEnum_fst_eq hs (Specification.current_openAt hopen) hroot
        g.candidates
      have hcurrent := Specification.current_findEnum hs g.candidates
      have hsameRoot := Specification.root_findEnum s w g.candidates
      rw [EnumFile.newTexts] at h
      split at h
      · cases h
      · rename_i found s' hfind
        rw [hfind] at hfresh hcurrent hsameRoot
        split at h
        · cases h
        · rename_i text htext
          obtain ⟨rs', hrs', hcons⟩ := map_eq_ok_iff.mp h
          subst hcons
          refine .cons ⟨rfl, ?_⟩ (ih hcurrent (hsameRoot.trans hroot) hrs')
          cases found with
          | missing => cases htext
          | notEnum fault => cases htext
          | found m =>
              refine ⟨m, ⟨opened, hopen, hfresh.symm⟩, ?_⟩
              rw [EnumFile.labelled] at htext
              split at htext
              · rename_i hpatch
                cases htext
                exact hpatch
              · cases htext

/-- Texts are made if the specification has an enum for each file that fits. -/
theorem exists_newTexts_eq_ok {opened s : Specification} {gs : List EnumFile}
    (hopen : Specification.openAt w spec = .ok opened) (hs : Current w s.documents)
    (hroot : s.root = opened.root)
    (h : ∀ g ∈ gs, ∃ new, IsLabelledText w spec g.typeName g.content new) :
    ∃ rs, EnumFile.newTexts w s gs = .ok rs := by
  induction gs generalizing s with
  | nil => exact ⟨[], rfl⟩
  | cons g gs ih =>
      rw [List.forall_mem_cons] at h
      obtain ⟨⟨new, m, ⟨fresh, hfresh, hfind⟩, hpatch⟩, hrest⟩ := h
      rw [hopen] at hfresh
      cases hfresh
      have hsame := Specification.findEnum_fst_eq hs (Specification.current_openAt hopen) hroot
        g.candidates
      obtain ⟨rs, hrs⟩ := ih (Specification.current_findEnum hs g.candidates)
        ((Specification.root_findEnum s w g.candidates).trans hroot) hrest
      have hfound : s.findEnum w g.candidates =
          (.ok (.found m), (s.findEnum w g.candidates).2) := Prod.ext (hsame.trans hfind) rfl
      refine ⟨(g, new) :: rs, ?_⟩
      rw [EnumFile.newTexts, hfound]
      simp only [EnumFile.labelled, hpatch]
      exact map_eq_ok_iff.mpr ⟨rs, hrs, rfl⟩

/-- The files of a walk, and the texts that were made for the enum files among
them. -/
structure Prepared (w : World) (output spec : Path) (files : List FoundFile)
    (rs : List (EnumFile × String)) : Prop where
  /-- The walk met these files. -/
  walkFiles_eq : walkFiles w output = .ok files
  /-- Each enum file has its text, in the order of the walk. -/
  makes : List.Forall₂ (Makes w spec) (files.filter fun f => (enumTypeName? f.name).isSome) rs

/-- The files whose text changes. -/
def changedTexts (rs : List (EnumFile × String)) : List (EnumFile × String) :=
  rs.filter fun r => r.2 != r.1.content

/-- **What a run is about to write.**  The texts are those of all enum files, in
the order of the walk, and those that differ from the old ones are written. -/
theorem patchedTexts_eq_ok {patched : List (EnumFile × String)}
    (h : patchedTexts w output spec = .ok patched) :
    ∃ files rs, Prepared w output spec files rs ∧ patched = changedTexts rs := by
  unfold patchedTexts at h
  cases hfiles : enumFiles w output with
  | error fault =>
      rw [hfiles] at h
      cases h
  | ok gs =>
      rw [hfiles] at h
      unfold enumFiles at hfiles
      split at hfiles
      · cases hfiles
      · rename_i files hwalk
        have hgs := forall₂_enumFile? hfiles
        cases gs with
        | nil =>
            cases h
            have hnone := List.forall₂_nil_right_iff.mp hgs
            exact ⟨files, [], ⟨hwalk, List.forall₂_nil_right_iff.mpr hnone⟩, rfl⟩
        | cons g gs =>
            dsimp only at h
            split at h
            · cases h
            · rename_i opened hopen
              obtain ⟨rs, hrs, hpatched⟩ := map_eq_ok_iff.mp h
              have htexts := forall₂_newTexts hopen (Specification.current_openAt hopen) rfl hrs
              refine ⟨files, rs, ⟨hwalk, forall₂_trans hgs htexts ?_⟩, hpatched.symm⟩
              rintro f g r hopened ⟨rfl, hlabelled⟩
              obtain ⟨htype, htext, hpath, hlocation⟩ := enumFile?_eq_some_ok hopened
              exact ⟨hpath, hlocation, htype, htext, hlabelled⟩

/-- Enum files open if their bytes are texts. -/
theorem exists_enumFiles_eq_ok (hwalk : walkFiles w output = .ok files)
    (h : ∀ f ∈ files, (enumTypeName? f.name).isSome → ∃ old, World.textOf f.content = .ok old) :
    ∃ gs, enumFiles w output = .ok gs := by
  rw [enumFiles, hwalk]
  refine exists_mapM_eq_ok fun opened hopened => ?_
  obtain ⟨f, hf, hsome⟩ := List.mem_filterMap.mp hopened
  obtain ⟨typeName, htype, rfl⟩ := Option.map_eq_some_iff.mp hsome
  obtain ⟨old, hold⟩ := h f hf (by rw [htype]; rfl)
  rw [hold]
  exact ⟨_, rfl⟩

/-- A run has texts to write if each enum file has one. -/
theorem exists_patchedTexts_eq_ok (hwalk : walkFiles w output = .ok files)
    (h : ∀ f ∈ files, ∀ typeName, enumTypeName? f.name = some typeName →
      ∃ old new, World.textOf f.content = .ok old ∧ IsLabelledText w spec typeName old new) :
    ∃ patched, patchedTexts w output spec = .ok patched := by
  have hgs : ∃ gs, enumFiles w output = .ok gs := by
    refine exists_enumFiles_eq_ok hwalk fun f hf hname => ?_
    obtain ⟨typeName, htype⟩ := Option.isSome_iff_exists.mp hname
    obtain ⟨old, -, hold, -⟩ := h f hf typeName htype
    exact ⟨old, hold⟩
  obtain ⟨gs, hgs⟩ := hgs
  have hlabelled : ∀ g ∈ gs, ∃ new, IsLabelledText w spec g.typeName g.content new := by
    intro g hg
    have hopened := hgs
    rw [enumFiles, hwalk] at hopened
    obtain ⟨f, hf, hsome⟩ := exists_of_mem_right (forall₂_enumFile? hopened) hg
    obtain ⟨htype, htext, -, -⟩ := enumFile?_eq_some_ok hsome
    obtain ⟨old, new, hold, hnew⟩ := h f (List.mem_filter.mp hf).1 _ htype
    rw [htext] at hold
    cases hold
    exact ⟨new, hnew⟩
  cases gs with
  | nil => exact ⟨[], by rw [patchedTexts, hgs]⟩
  | cons g gs =>
      obtain ⟨new, m, ⟨opened, hopen, -⟩, -⟩ := hlabelled g List.mem_cons_self
      obtain ⟨rs, hrs⟩ := exists_newTexts_eq_ok hopen (Specification.current_openAt hopen) rfl
        hlabelled
      rw [patchedTexts, hgs]
      simp only [hopen]
      exact ⟨_, map_eq_ok_iff.mpr ⟨rs, hrs, rfl⟩⟩

namespace Prepared

/-- Each text was made for a file that the walk met. -/
theorem exists_meets (h : Prepared w output spec files rs) (hw : w.root.WellFormed)
    (hr : r ∈ rs) : ∃ f, Meets w output f ∧ Makes w spec f r := by
  obtain ⟨f, hf, hmakes⟩ := exists_of_mem_right h.makes hr
  exact ⟨f, (mem_walkFiles hw h.walkFiles_eq).mp (List.mem_filter.mp hf).1, hmakes⟩

/-- Each enum file that the walk met has a text. -/
theorem exists_makes (h : Prepared w output spec files rs) (hw : w.root.WellFormed)
    (hf : Meets w output f) (hname : NamesEnumFile f.name typeName) :
    ∃ r ∈ rs, Makes w spec f r ∧ r.1.typeName = typeName := by
  have hsome := enumTypeName?_eq_some_iff.mpr hname
  have hmem : f ∈ files.filter fun f => (enumTypeName? f.name).isSome :=
    List.mem_filter.mpr ⟨(mem_walkFiles hw h.walkFiles_eq).mpr hf, by rw [hsome]; rfl⟩
  obtain ⟨r, hr, hmakes⟩ := exists_of_mem_left h.makes hmem
  have htype := hmakes.enumTypeName?_eq
  rw [hsome, Option.some.injEq] at htype
  exact ⟨r, hr, hmakes, htype.symm⟩

/-- No two files of a walk stand at one location, so no two texts are made for
one. -/
theorem nodup_location (h : Prepared w output spec files rs) (hw : w.root.WellFormed) :
    (rs.map (·.1.location)).Nodup := by
  have hsame := map_filter_eq_of_forall₂ (p := fun _ => true) (q := fun _ => true)
    (f := (·.location)) (g := (·.1.location)) h.makes (fun _ _ _ _ _ => rfl)
    fun f r hr => hr.location_eq.symm
  rw [List.filter_true, List.filter_true] at hsame
  rw [← hsame]
  exact List.pairwise_map.mpr
    (((pairwise_walkFiles hw h.walkFiles_eq).filter _).imp FoundFile.Before.location_ne)

/-- The texts that change are all written. -/
theorem textsPut (h : Prepared w output spec files rs) (hw : w.root.WellFormed) :
    TextsPut w (changedTexts rs)
      ((changedTexts rs).foldl (fun w r => w.putTextAt r.1.location r.2) w) := by
  refine textsPut_foldl hw (fun r hr => ?_)
    ((List.pairwise_map.mp (h.nodup_location hw)).filter _)
  obtain ⟨f, hf, hmakes⟩ := h.exists_meets hw (List.mem_filter.mp hr).1
  obtain ⟨executable, hat⟩ := hf.at?_location
  rw [hmakes.location_eq]
  exact ⟨f.content, executable, Entry.nodeAt?_eq_file_iff.mpr hat⟩

/-- After the writes a file holds the text that was made for it, also when that
is its old text. -/
theorem nodeAt?_eq (h : Prepared w output spec files rs) (hw : w.root.WellFormed)
    (hput : TextsPut w (changedTexts rs) w') (hr : r ∈ rs) (hmakes : Makes w spec f r)
    (hf : w.root.nodeAt? f.location = some (.file f.content executable)) :
    w'.root.nodeAt? f.location = some (.file r.2.toUTF8 executable) := by
  by_cases hsame : r.2 = r.1.content
  · have hother : ∀ r' ∈ changedTexts rs, r'.1.location ≠ f.location := by
      intro r' hr' heq
      obtain ⟨hmem, hdiffers⟩ := List.mem_filter.mp hr'
      cases List.inj_on_of_nodup_map (h.nodup_location hw) hmem hr
        (heq.trans hmakes.location_eq.symm)
      simp [hsame] at hdiffers
    rw [hput.nodeAt?_eq _ hother, hf, hsame, toUTF8_of_textOf hmakes.textOf_eq]
  · have hwritten : r ∈ changedTexts rs := List.mem_filter.mpr ⟨hr, by simpa using hsame⟩
    rw [← hmakes.location_eq] at hf ⊢
    exact hput.nodeAt?_of_mem r hwritten _ _ hf

/-- A file differs after the writes exactly if its text does. -/
theorem nodeAt?_ne_iff (h : Prepared w output spec files rs) (hw : w.root.WellFormed)
    (hput : TextsPut w (changedTexts rs) w') (hr : r ∈ rs) (hmakes : Makes w spec f r)
    (hf : w.root.nodeAt? f.location = some (.file f.content executable)) :
    w'.root.nodeAt? f.location ≠ w.root.nodeAt? f.location ↔ r.2 ≠ r.1.content := by
  have hold := toUTF8_of_textOf hmakes.textOf_eq
  rw [h.nodeAt?_eq hw hput hr hmakes hf, hf, ← hold, not_iff_not, Option.some.injEq,
    TreeNode.file.injEq, String.toUTF8_eq_toByteArray, String.toUTF8_eq_toByteArray,
    String.toByteArray_inj]
  exact and_iff_left rfl

/-- What is no enum file that the walk met is as it was. -/
theorem nodeAt?_eq_of_other (h : Prepared w output spec files rs) (hw : w.root.WellFormed)
    (hput : TextsPut w (changedTexts rs) w')
    (hl : ∀ f typeName, Meets w output f → NamesEnumFile f.name typeName → f.location ≠ l) :
    w'.root.nodeAt? l = w.root.nodeAt? l := by
  refine hput.nodeAt?_eq l fun r hr => ?_
  obtain ⟨f, hf, hmakes⟩ := h.exists_meets hw (List.mem_filter.mp hr).1
  rw [hmakes.location_eq]
  exact hl f _ hf (enumTypeName?_eq_some_iff.mp hmakes.enumTypeName?_eq)

/-- **The files whose text changes are those that differ after the writes,** in
the order of the walk. -/
theorem exists_changed (h : Prepared w output spec files rs) (hw : w.root.WellFormed)
    (hput : TextsPut w (changedTexts rs) w') :
    ∃ fs : List FoundFile, (changedTexts rs).map (·.1.path) = fs.map (·.path) ∧
      fs.Pairwise FoundFile.Before ∧
      ∀ f, f ∈ fs ↔ Meets w output f ∧
        w'.root.nodeAt? f.location ≠ w.root.nodeAt? f.location := by
  classical
  refine ⟨(files.filter fun f => (enumTypeName? f.name).isSome).filter fun f =>
    w'.root.nodeAt? f.location ≠ w.root.nodeAt? f.location, ?_, ?_, fun f => ?_⟩
  · refine (map_filter_eq_of_forall₂ h.makes (fun f hf r hr hmakes => ?_) fun f r hmakes =>
      hmakes.path_eq.symm).symm
    have hmeets := (mem_walkFiles hw h.walkFiles_eq).mp (List.mem_filter.mp hf).1
    obtain ⟨executable, hat⟩ := hmeets.at?_location
    have hiff := h.nodeAt?_ne_iff hw hput hr hmakes (Entry.nodeAt?_eq_file_iff.mpr hat)
    rw [Bool.eq_iff_iff, decide_eq_true_eq, bne_iff_ne, hiff]
  · exact ((pairwise_walkFiles hw h.walkFiles_eq).filter _).filter _
  · rw [List.mem_filter, List.mem_filter, decide_eq_true_eq, mem_walkFiles hw h.walkFiles_eq]
    refine ⟨fun hf => ⟨hf.1.1, hf.2⟩, fun hf => ⟨⟨hf.1, ?_⟩, hf.2⟩⟩
    by_contra hname
    -- a file that differs was written, so an enum file stands where it does
    refine hf.2 (h.nodeAt?_eq_of_other hw hput fun f' typeName hf' hname' heq => hname ?_)
    cases hf'.eq_of_location_eq hf.1 heq
    rw [enumTypeName?_eq_some_iff.mpr hname']
    rfl

end Prepared

/-! ## The run -/

/-- A world in which the enum files at a path and below it have been labelled,
and the list of those that changed. -/
structure EnumsLabelled (output spec : Path) (w : World) (changed : List Path) (w' : World) :
    Prop where
  /-- The tree is well-formed. -/
  wellFormed : w'.root.WellFormed
  /-- Each enum file holds its text with the labels of its enum. -/
  enumFile : ∀ f typeName, Meets w output f → NamesEnumFile f.name typeName →
    ∃ old new executable, World.textOf f.content = .ok old ∧
      IsLabelledText w spec typeName old new ∧
      w.root.nodeAt? f.location = some (.file f.content executable) ∧
      w'.root.nodeAt? f.location = some (.file new.toUTF8 executable)
  /-- Every other entry is as it was. -/
  nodeAt?_eq : ∀ l, (∀ f typeName, Meets w output f → NamesEnumFile f.name typeName →
    f.location ≠ l) → w'.root.nodeAt? l = w.root.nodeAt? l
  /-- The working directory stays. -/
  cwd_eq : w'.cwd = w.cwd
  /-- The environment stays. -/
  env_eq : w'.env = w.env
  /-- The list names the files that differ, in the order of the walk. -/
  changed_eq : ∃ files : List FoundFile, changed = files.map (·.path) ∧
    files.Pairwise FoundFile.Before ∧
    ∀ f, f ∈ files ↔ Meets w output f ∧ w'.root.nodeAt? f.location ≠ w.root.nodeAt? f.location
  /-- It names each of them once. -/
  nodup : changed.Nodup

/-- A run writes all the texts that it has made, or none of them. -/
theorem patchEnums_eq (output spec : Path) (w : World) :
    patchEnums output spec w =
      match patchedTexts w output spec with
      | .error fault => .error fault w
      | .ok patched =>
        .ok (patched.map (·.1.path))
          (patched.foldl (fun w r => w.putTextAt r.1.location r.2) w) := by
  unfold patchEnums
  change EStateM.bind (Action.look fun w => patchedTexts w output spec) _ w = _
  rw [EStateM.bind, Action.look]
  cases patchedTexts w output spec with
  | ok patched => rfl
  | error fault => rfl

/-- **What a run writes labels the enum files.** -/
theorem enumsLabelled_of_patchedTexts (hw : w.root.WellFormed) {patched : List (EnumFile × String)}
    (h : patchedTexts w output spec = .ok patched) :
    EnumsLabelled output spec w (patched.map (·.1.path))
      (patched.foldl (fun w r => w.putTextAt r.1.location r.2) w) := by
  obtain ⟨files, rs, hprepared, rfl⟩ := patchedTexts_eq_ok h
  have hput := hprepared.textsPut hw
  generalize (changedTexts rs).foldl (fun w r => w.putTextAt r.1.location r.2) w = w' at hput ⊢
  obtain ⟨fs, hpaths, hsorted, hfs⟩ := hprepared.exists_changed hw hput
  refine ⟨hput.wellFormed, fun f typeName hf hname => ?_,
    fun l hl => hprepared.nodeAt?_eq_of_other hw hput hl, hput.cwd_eq, hput.env_eq,
    ⟨fs, hpaths, hsorted, hfs⟩, ?_⟩
  · obtain ⟨r, hr, hmakes, rfl⟩ := hprepared.exists_makes hw hf hname
    obtain ⟨executable, hat⟩ := hf.at?_location
    have hnode := Entry.nodeAt?_eq_file_iff.mpr hat
    exact ⟨_, _, executable, hmakes.textOf_eq, hmakes.isLabelledText, hnode,
      hprepared.nodeAt?_eq hw hput hr hmakes hnode⟩
  · rw [hpaths]
    refine List.pairwise_map.mpr (hsorted.imp_of_mem ?_)
    intro f f' hf hf' hbefore heq
    cases ((hfs f).mp hf).1.eq_of_path_eq hw ((hfs f').mp hf').1 heq
    exact hbefore.location_ne rfl

/-- **A run succeeds exactly if every enum file can be labelled:** the walk meets
no fault, and each enum file holds a text that fits the enum which the
specification has for it. -/
theorem exists_patchEnums_eq_ok_iff (hw : w.root.WellFormed) :
    (∃ changed w', patchEnums output spec w = .ok changed w') ↔
      (∃ files, walkFiles w output = .ok files) ∧
        ∀ f typeName, Meets w output f → NamesEnumFile f.name typeName →
          ∃ old new, World.textOf f.content = .ok old ∧
            IsLabelledText w spec typeName old new := by
  constructor
  · rintro ⟨changed, w', h⟩
    rw [patchEnums_eq] at h
    cases hpatched : patchedTexts w output spec with
    | error fault =>
        rw [hpatched] at h
        cases h
    | ok patched =>
        obtain ⟨files, rs, hprepared, -⟩ := patchedTexts_eq_ok hpatched
        refine ⟨⟨files, hprepared.walkFiles_eq⟩, fun f typeName hf hname => ?_⟩
        obtain ⟨r, -, hmakes, rfl⟩ := hprepared.exists_makes hw hf hname
        exact ⟨_, _, hmakes.textOf_eq, hmakes.isLabelledText⟩
  · rintro ⟨⟨files, hwalk⟩, h⟩
    obtain ⟨patched, hpatched⟩ := exists_patchedTexts_eq_ok hwalk fun f hf typeName htype =>
      h f typeName ((mem_walkFiles hw hwalk).mp hf) (enumTypeName?_eq_some_iff.mp htype)
    rw [patchEnums_eq, hpatched]
    exact ⟨_, _, rfl⟩

/-- **Labelling the enums in a directory.**  A run that fails changes nothing at
all.  A run that succeeds leaves in each enum file at or below the path the old
text with the labels of its enum, where the enum is what a specification that
was just opened finds, changes nothing else, and answers the paths of the files
that differ, each once and in the order of the walk. -/
theorem patchEnums_labels (hw : w.root.WellFormed) (output spec : Path) :
    match patchEnums output spec w with
    | .error _ w' => w' = w
    | .ok changed w' => EnumsLabelled output spec w changed w' := by
  rw [patchEnums_eq]
  cases h : patchedTexts w output spec with
  | error fault => rfl
  | ok patched => exact enumsLabelled_of_patchedTexts hw h

/-- An enum with two values. -/
def stateSource : String :=
  "export enum A \x7b B = 'x', C = 'y' \x7d"

/-- The enum with its labels. -/
def stateLabelled : String :=
  "export enum A \x7b\n /**\n  * x\n  */\n B = 'x',\n /**\n  * y\n  */\n C = 'y'\n\x7d"

/-- A specification that declares the enum. -/
def stateSpec : String :=
  "\x7b\"definitions\":\x7b\"A\":\x7b\"enum\":[\"x\",\"y\"]\x7d\x7d\x7d"

/-- What the specification holds. -/
def stateDocument : Value :=
  .object [("definitions", .object [("A", .object [("enum", .array [.string "x", .string "y"])])])]

/-- The enum that it declares. -/
def stateEnum : EnumMetadata :=
  ⟨"A", [⟨"x", "x", none⟩, ⟨"y", "y", none⟩]⟩

/-- A world with the specification and three files of the enum: two in directories of their own,
one of which is labelled already. -/
def stateWorld : World :=
  ⟨.dir [("out", .dir [("a-enum.ts", .file stateSource.toUTF8 true),
      ("old", .dir [("a-enum.ts", .file stateLabelled.toUTF8 false)]),
      ("sub", .dir [("a-enum.ts", .file stateSource.toUTF8 false)])]),
    ("s.json", .file stateSpec.toUTF8 false)], [], []⟩

/-- The files, in the order of the walk. -/
def stateFiles : List EnumFile :=
  [⟨⟨"out/a-enum.ts"⟩, ["out", "a-enum.ts"], "A", stateSource⟩,
    ⟨⟨"out/old/a-enum.ts"⟩, ["out", "old", "a-enum.ts"], "A", stateLabelled⟩,
    ⟨⟨"out/sub/a-enum.ts"⟩, ["out", "sub", "a-enum.ts"], "A", stateSource⟩]

theorem parse?_stateSpec : Json.parse? stateSpec = some stateDocument := by
  have hchars : stateSpec.toList =
      '\x7b' :: '"' :: ("definitions".toList ++ '"' :: ':' ::
        '\x7b' :: '"' :: ("A".toList ++ '"' :: ':' ::
          '\x7b' :: '"' :: ("enum".toList ++ '"' :: ':' ::
            '[' :: '"' :: 'x' :: '"' :: ',' :: '"' :: 'y' :: '"' :: ']' ::
              '\x7d' :: '\x7d' :: ['\x7d']))) := by
    decide
  have hread : Json.outcome (Json.readValue Json.depthLimit stateSpec.toList) =
      some (stateDocument, []) := by
    rw [hchars]
    exact Json.outcome_readValue_object (by decide) (Json.outcome_readFields_last rfl
      (Json.outcome_readValue_object (by decide) (Json.outcome_readFields_last rfl
        (Json.outcome_readValue_object (by decide) (Json.outcome_readFields_last rfl
          (Json.outcome_readValue_array (by decide) (Json.outcome_readItems_cons
            (Json.outcome_readValue_string rfl) rfl
            (Json.outcome_readItems_last (Json.outcome_readValue_string rfl) rfl)))
          rfl)) rfl)) rfl)
  exact Json.parse?_eq_some hread rfl

theorem readDocument_stateSpec : readDocument stateWorld ⟨"s.json"⟩ = .ok stateDocument :=
  readDocument_specFile Entry.at?_nil rfl parse?_stateSpec

/-- A current specification has the enum under the name, whatever it keeps. -/
theorem findEnum_stateWorld {s : Specification} (hs : Current stateWorld s.documents)
    (hroot : s.root = ⟨"s.json"⟩) :
    (s.findEnum stateWorld ["A", "AEnum"]).1 = .ok (.found stateEnum) := by
  have hopen := Specification.openAt_specFile readDocument_stateSpec
  rw [Specification.findEnum_fst_eq hs (Specification.current_openAt hopen) hroot]
  exact eq_ok_of_toOption (by decide +kernel)

/-- Files of the enum are all labelled, one after the other. -/
theorem newTexts_stateWorld {s : Specification} (hs : Current stateWorld s.documents)
    (hroot : s.root = ⟨"s.json"⟩) {gs : List EnumFile}
    (hgs : ∀ g ∈ gs, g.typeName = "A" ∧
      patchEnumSource g.content stateEnum = .ok stateLabelled) :
    EnumFile.newTexts stateWorld s gs = .ok (gs.map fun g => (g, stateLabelled)) := by
  induction gs generalizing s with
  | nil => rfl
  | cons g gs ih =>
      obtain ⟨⟨htype, hpatch⟩, hrest⟩ := List.forall_mem_cons.mp hgs
      have hcandidates : g.candidates = ["A", "AEnum"] := by
        rw [EnumFile.candidates, htype]
        rfl
      have hfound : s.findEnum stateWorld g.candidates =
          (.ok (.found stateEnum), (s.findEnum stateWorld g.candidates).2) :=
        Prod.ext (hcandidates ▸ findEnum_stateWorld hs hroot) rfl
      have hothers := ih (Specification.current_findEnum hs g.candidates)
        ((Specification.root_findEnum s stateWorld g.candidates).trans hroot) hrest
      rw [EnumFile.newTexts, hfound]
      simp only [EnumFile.labelled, hpatch, hothers]
      rfl

/-- The walk meets the three files. -/
theorem enumFiles_stateWorld : enumFiles stateWorld ⟨"out"⟩ = .ok stateFiles := by
  have hlocate : stateWorld.locate ⟨"out"⟩ false = .ok (.present ["out"]
      (.dir [("a-enum.ts", .file stateSource.toUTF8 true),
        ("old", .dir [("a-enum.ts", .file stateLabelled.toUTF8 false)]),
        ("sub", .dir [("a-enum.ts", .file stateSource.toUTF8 false)])])) :=
    locate_name (by decide) (by decide) (by decide) Entry.at?_nil rfl (by simp) false
  have hname : enumTypeName? "a-enum.ts" = some "A" := by decide +kernel
  have hpaths : (⟨"out"⟩ : Path).join ⟨"a-enum.ts"⟩ = ⟨"out/a-enum.ts"⟩ ∧
      ((⟨"out"⟩ : Path).join ⟨"old"⟩).join ⟨"a-enum.ts"⟩ = ⟨"out/old/a-enum.ts"⟩ ∧
      ((⟨"out"⟩ : Path).join ⟨"sub"⟩).join ⟨"a-enum.ts"⟩ = ⟨"out/sub/a-enum.ts"⟩ := by
    decide +kernel
  simp only [enumFiles, walkFiles, hlocate, filesOf, filesBelow, List.append_nil,
    List.singleton_append, FoundFile.enumFile?, List.filterMap_cons, List.filterMap_nil, hname,
    Option.map_some, hpaths, textOf_toUTF8]
  rfl

/-- The texts of two of them change. -/
theorem patchedTexts_stateWorld : patchedTexts stateWorld ⟨"out"⟩ ⟨"s.json"⟩ =
    .ok [(⟨⟨"out/a-enum.ts"⟩, ["out", "a-enum.ts"], "A", stateSource⟩, stateLabelled),
      (⟨⟨"out/sub/a-enum.ts"⟩, ["out", "sub", "a-enum.ts"], "A", stateSource⟩, stateLabelled)] := by
  have hopen := Specification.openAt_specFile readDocument_stateSpec
  have hsource : patchEnumSource stateSource stateEnum = .ok stateLabelled :=
    eq_ok_of_toOption (by decide +kernel)
  have hlabelled : patchEnumSource stateLabelled stateEnum = .ok stateLabelled :=
    eq_ok_of_toOption (by decide +kernel)
  have hall : ∀ g ∈ stateFiles, g.typeName = "A" ∧
      patchEnumSource g.content stateEnum = .ok stateLabelled := by
    simp [stateFiles, hsource, hlabelled]
  have htexts := newTexts_stateWorld (Specification.current_openAt hopen) rfl hall
  have hdiffers : (stateLabelled != stateSource) = true := by decide +kernel
  have hfiles := enumFiles_stateWorld
  rw [stateFiles] at hfiles htexts
  rw [patchedTexts, hfiles]
  simp [hopen, htexts, Except.map, hdiffers]

/-- Of three enum files one has its labels already, and the other two are written. -/
theorem patchEnums_labels_state :
    stateWorld.root.WellFormed ∧
      ∃ w', patchEnums ⟨"out"⟩ ⟨"s.json"⟩ stateWorld =
          .ok [⟨"out/a-enum.ts"⟩, ⟨"out/sub/a-enum.ts"⟩] w' ∧
        EnumsLabelled ⟨"out"⟩ ⟨"s.json"⟩ stateWorld [⟨"out/a-enum.ts"⟩, ⟨"out/sub/a-enum.ts"⟩]
          w' := by
  have hw : stateWorld.root.WellFormed := by decide
  have hlabels := patchEnums_labels hw ⟨"out"⟩ ⟨"s.json"⟩
  rw [patchEnums_eq, patchedTexts_stateWorld] at hlabels
  refine ⟨hw, _, ?_, hlabels⟩
  rw [patchEnums_eq, patchedTexts_stateWorld]
  rfl

end ClientRegen
