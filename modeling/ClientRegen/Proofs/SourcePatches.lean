import ClientRegen.Proofs.FileTree.Confinement
import ClientRegen.Proofs.Outcomes
import ClientRegen.Proofs.Text.Replacing
import ClientRegen.SourcePatch

/-!
# What source patches change

A patch that is applied reads one file, replaces in its text and writes it back
(`exists_of_apply_eq_ok`), and one that fails has changed nothing
(`eq_of_apply_eq_error`).  So patches that are applied one after the other
change each file as the patches say that name it, in their order: the file
itself carries the text from one patch to the next (`patchesApplied_of_mapM`).

The path of a patch goes on below the output directory by names alone, and in a
tree without links it stays there.  This has two consequences.  Two spellings
name the same file only if their components agree, so each file is answered
once (`file?_eq_iff_components`).  And what a patch does can be told from the
entries of the output directory, whatever else is in the world
(`confined_applyPatches`).
-/

namespace ClientRegen

variable {α β : Type} {w w' v : World} {output path : Path} {patch patch' : SourcePatch}
  {patches : List SourcePatch} {l l' lo : Location} {es : List (String × Entry)}
  {paths : List Path} {fault : Failure}

/-! ## The files that patches name -/

/-- A location below the directory that a path leads to. -/
def World.IsBelow (w : World) (p : Path) (l : Location) : Prop :=
  ∃ lo es r, w.directory? p = some (lo, es) ∧ r ≠ [] ∧ l = lo ++ r

/-- The location of the file that a patch names. -/
def SourcePatch.file? (w : World) (output : Path) (patch : SourcePatch) : Option Location :=
  match patch.target output with
  | .error _ => none
  | .ok path =>
    match w.locate path true with
    | .ok (.present l (.file _ _)) => some l
    | _ => none

/-- The file of a patch stands where its target leads. -/
theorem file?_eq_some_iff : patch.file? w output = some l ↔
    ∃ path content executable, patch.target output = .ok path ∧
      w.locate path true = .ok (.present l (.file content executable)) := by
  unfold SourcePatch.file?
  cases patch.target output with
  | error fault => simp
  | ok path =>
      dsimp only
      split
      · rename_i k content executable hlocate
        rw [Option.some.injEq]
        constructor
        · rintro rfl
          exact ⟨path, content, executable, rfl, hlocate⟩
        · rintro ⟨path', content', executable', hpath, hlocate'⟩
          cases hpath
          rw [hlocate] at hlocate'
          cases hlocate'
          rfl
      · rename_i hother
        refine iff_of_false (by simp) ?_
        rintro ⟨path', content, executable, hpath, hlocate⟩
        cases hpath
        exact hother l content executable hlocate

/-- A patch that has a target goes on below the output directory. -/
theorem descends_of_target (h : patch.target output = .ok path) :
    path = output.join ⟨patch.file⟩ ∧ Path.Descends ⟨patch.file⟩ := by
  unfold SourcePatch.target at h
  split at h
  · cases h
  · rename_i hrefused
    cases h
    obtain ⟨hblank, hescapes⟩ : isBlankText patch.file = false ∧
        SourcePatch.escapes ⟨patch.file⟩ = false := by
      simpa using hrefused
    rw [SourcePatch.escapes, List.any_eq_false, Path.components_eq] at hescapes
    refine ⟨rfl, ?_, ?_, ?_⟩
    · by_contra habs
      rw [Bool.not_eq_false] at habs
      exact hescapes .root (by simp [habs]) rfl
    · intro hempty
      change patch.file = "" at hempty
      rw [hempty] at hblank
      exact absurd hblank (by decide)
    · intro c hc
      rcases Path.moves_cases hc with rfl | hname
      · exact absurd rfl (hescapes .parent (by simp [hc]))
      · exact Or.inr hname

/-- **A file that a patch names lies below the output directory,** at the names
that the patch gives. -/
theorem exists_below_of_file? (houtput : output.text ≠ "") (hfree : LinkFreeBelow w output)
    (h : patch.file? w output = some l) :
    ∃ lo es r, w.directory? output = some (lo, es) ∧ r ≠ [] ∧ l = lo ++ r ∧
      r.map Component.name = Path.moves ⟨patch.file⟩ := by
  obtain ⟨path, content, executable, htarget, hlocate⟩ := file?_eq_some_iff.mp h
  obtain ⟨rfl, hdescends⟩ := descends_of_target htarget
  cases hdir : w.directory? output with
  | none =>
      obtain ⟨fault, hfault⟩ := exists_locate_join_eq_error houtput hdescends hdir
      rw [hfault] at hlocate
      cases hlocate
  | some d =>
      obtain ⟨lo, es⟩ := d
      rw [locate_join hdescends hdir (hfree lo es hdir)] at hlocate
      obtain ⟨place, hplace, hunder⟩ := map_eq_ok_iff.mp hlocate
      cases place with
      | vacant r n => cases hunder
      | present r e =>
          cases hunder
          obtain ⟨hat, hmoves⟩ := at?_of_locateIn (hfree lo es hdir) hdescends hplace
          refine ⟨lo, es, r, rfl, ?_, rfl, hmoves⟩
          rintro rfl
          cases hat

/-- **Two patches name the same file only if their paths have the same
components.** -/
theorem file?_eq_iff_components (houtput : output.text ≠ "") (hfree : LinkFreeBelow w output)
    {path' : Path} (htarget : patch.target output = .ok path)
    (htarget' : patch'.target output = .ok path') (h : patch.file? w output = some l)
    (h' : patch'.file? w output = some l') :
    path.components = path'.components ↔ l = l' := by
  obtain ⟨rfl, hdescends⟩ := descends_of_target htarget
  obtain ⟨rfl, hdescends'⟩ := descends_of_target htarget'
  obtain ⟨lo, es, r, hdir, -, rfl, hmoves⟩ := exists_below_of_file? houtput hfree h
  obtain ⟨lo', es', r', hdir', -, rfl, hmoves'⟩ := exists_below_of_file? houtput hfree h'
  rw [hdir] at hdir'
  cases hdir'
  have hinjective : Function.Injective Component.name := fun m n h => Component.name.inj h
  rw [Path.components_join_eq_iff houtput hdescends.isAbsolute_eq hdescends'.isAbsolute_eq,
    ← hmoves, ← hmoves', (List.map_injective_iff.mpr hinjective).eq_iff,
    List.append_cancel_left_eq]

/-- A patch names the file that it named. -/
theorem FilesRewritten.file?_eq (hw : w.root.WellFormed) (h : FilesRewritten w w') :
    patch.file? w' output = patch.file? w output := by
  have hnamed : ∀ {w w'}, FilesRewritten w w' → ∀ l, patch.file? w output = some l →
      patch.file? w' output = some l := by
    intro w w' h l hfile
    obtain ⟨path, content, executable, htarget, hlocate⟩ := file?_eq_some_iff.mp hfile
    obtain ⟨content', hlocate'⟩ := h.exists_locate_file hlocate
    exact file?_eq_some_iff.mpr ⟨path, content', executable, htarget, hlocate'⟩
  exact Option.ext fun l => ⟨hnamed (h.symm hw) l, hnamed h l⟩

/-! ## One patch -/

/-- A patch that finds its text in a text, and what the text is after it. -/
structure SourcePatch.Changes (patch : SourcePatch) (old new : String) : Prop where
  /-- The patch searches for something. -/
  search_ne : patch.search ≠ ""
  /-- The searched text is in the old text. -/
  found : patch.search.toList <:+: old.toList
  /-- It is replaced at each place. -/
  replacedAll : Text.ReplacedAll patch.search.toList patch.replace.toList old.toList new.toList

/-- A text that is patched was read and holds what the patch searches for. -/
theorem exists_of_patchedText_eq_ok {new : String} (h : patch.patchedText w path = .ok new) :
    ∃ old, w.readText path = .ok old ∧ patch.Changes old new := by
  unfold SourcePatch.patchedText at h
  split at h
  · cases h
  · rename_i hsearch
    split at h
    · cases h
    · rename_i old hold
      split at h
      · rename_i hoccurs
        cases h
        have hne : patch.search.toList ≠ [] := fun hnil =>
          hsearch (String.toList_eq_nil_iff.mp hnil)
        refine ⟨old, hold, hsearch, Text.occursIn_iff.mp hoccurs, ?_⟩
        rw [SourcePatch.changed, String.toList_ofList]
        exact Text.replacedAll_replaceAll hne _ _
      · cases h

/-- **A patch is applied by writing the patched text to its target.** -/
theorem apply_eq_ok_iff {path : Path} : patch.apply output w = .ok path w' ↔
    patch.target output = .ok path ∧ ∃ text, patch.patchedText w path = .ok text ∧
      Action.writeText path text w = .ok () w' := by
  simp only [SourcePatch.apply, Action.bind_eq_ok_iff, Action.look_eq_ok_iff,
    Action.pure_eq_ok_iff]
  constructor
  · rintro ⟨p, w₁, ⟨htarget, rfl⟩, text, w₂, ⟨htext, rfl⟩, u, w₃, hwrite, rfl, rfl⟩
    exact ⟨htarget, text, htext, hwrite⟩
  · rintro ⟨htarget, text, htext, hwrite⟩
    exact ⟨path, w, ⟨htarget, rfl⟩, text, w, ⟨htext, rfl⟩, (), w', hwrite, rfl, rfl⟩

/-- A patch applies if it finds what it searches for. -/
theorem apply_eq_ok {old : String} {executable : Bool} (htarget : patch.target output = .ok path)
    (hlocate : w.locate path true = .ok (.present l (.file old.toUTF8 executable)))
    (hsearch : patch.search ≠ "") (hfound : patch.search.toList <:+: old.toList) :
    patch.apply output w =
      .ok path (w.withRoot (w.root.put l (.file (patch.changed old).toUTF8 executable))) := by
  refine apply_eq_ok_iff.mpr ⟨htarget, patch.changed old, ?_, writeText_eq_ok hlocate _⟩
  rw [SourcePatch.patchedText, if_neg hsearch,
    readText_eq_ok_iff.mpr ⟨l, executable, hlocate⟩]
  exact if_pos (Text.occursIn_iff.mpr hfound)

/-- A world in which a patch has changed the text of the file that it names, and
nothing else has changed. -/
structure SourcePatch.Rewrote (output : Path) (patch : SourcePatch) (w : World) (l : Location)
    (old new : String) (executable : Bool) (w' : World) : Prop where
  /-- The patch names the file. -/
  file?_eq : patch.file? w output = some l
  /-- It changes the one text to the other. -/
  changes : patch.Changes old new
  /-- The file held the old text. -/
  before : w.root.nodeAt? l = some (.file old.toUTF8 executable)
  /-- It holds the new one, with the same right to be run. -/
  after : w'.root.nodeAt? l = some (.file new.toUTF8 executable)
  /-- Nothing changes at other places. -/
  nodeAt?_eq : ∀ k, k ≠ l → w'.root.nodeAt? k = w.root.nodeAt? k
  /-- Nothing comes or goes. -/
  rewritten : FilesRewritten w w'

/-- **A patch that is applied changes the file that it names** and nothing
else. -/
theorem exists_of_apply_eq_ok (hw : w.root.WellFormed) (h : patch.apply output w = .ok path w') :
    patch.target output = .ok path ∧
      ∃ l old new executable, patch.Rewrote output w l old new executable w' := by
  obtain ⟨htarget, new, htext, hwrite⟩ := apply_eq_ok_iff.mp h
  obtain ⟨old, hread, hchanges⟩ := exists_of_patchedText_eq_ok htext
  obtain ⟨l, executable, hlocate⟩ := readText_eq_ok_iff.mp hread
  obtain ⟨after, hdone, hrewritten, hself, hother⟩ := exists_writeText_eq_ok hw hlocate new
  rw [hwrite] at hdone
  cases hdone
  have hfile : patch.file? w output = some l :=
    file?_eq_some_iff.mpr ⟨path, _, executable, htarget, hlocate⟩
  have hold := Entry.nodeAt?_eq_file_iff.mpr (at?_of_locate hlocate)
  exact ⟨htarget, l, old, new, executable, hfile, hchanges, hold, hself, hother, hrewritten⟩

/-- **A patch that fails has changed nothing:** it fails before it writes,
because writing to a file that was read does not fail. -/
theorem eq_of_apply_eq_error (hw : w.root.WellFormed)
    (h : patch.apply output w = .error fault w') : w' = w := by
  rw [SourcePatch.apply] at h
  rcases Action.bind_eq_error_iff.mp h with hlook | ⟨path, between, hlook, h⟩
  · exact (Action.look_eq_error_iff.mp hlook).2.symm
  · obtain ⟨-, rfl⟩ := Action.look_eq_ok_iff.mp hlook
    rcases Action.bind_eq_error_iff.mp h with hlook' | ⟨text, between, hlook', h⟩
    · exact (Action.look_eq_error_iff.mp hlook').2.symm
    · obtain ⟨htext, rfl⟩ := Action.look_eq_ok_iff.mp hlook'
      obtain ⟨old, hread, -⟩ := exists_of_patchedText_eq_ok htext
      obtain ⟨l, executable, hlocate⟩ := readText_eq_ok_iff.mp hread
      obtain ⟨after, hwrite, -⟩ := exists_writeText_eq_ok hw hlocate text
      rcases Action.bind_eq_error_iff.mp h with hfailed | ⟨u, between, -, hpure⟩
      · rw [hwrite] at hfailed
        cases hfailed
      · cases hpure

/-- A text before and after patches that are applied to it in their order. -/
inductive Patched : List SourcePatch → String → String → Prop
  | nil (text : String) : Patched [] text text
  | cons {patch : SourcePatch} {patches : List SourcePatch} {old mid new : String}
      (hfirst : patch.Changes old mid) (hrest : Patched patches mid new) :
      Patched (patch :: patches) old new

/-- A world in which patches have been applied to the files that they name, and
nothing else has changed. -/
structure PatchesApplied (output : Path) (patches : List SourcePatch) (w w' : World) : Prop where
  /-- Each patch names a file that holds a text. -/
  names : ∀ patch ∈ patches, ∃ (l : Location) (text : String) (executable : Bool),
    patch.file? w output = some l ∧ w.root.nodeAt? l = some (.file text.toUTF8 executable)
  /-- The patches that name a file are applied to its text in their order. -/
  patched : ∀ (l : Location) (old : String) (executable : Bool),
    w.root.nodeAt? l = some (.file old.toUTF8 executable) → ∃ new : String,
      w'.root.nodeAt? l = some (.file new.toUTF8 executable) ∧
        Patched (patches.filter fun patch => patch.file? w output = some l) old new
  /-- Nothing changes where no patch names a file. -/
  nodeAt?_eq : ∀ l, (∀ patch ∈ patches, patch.file? w output ≠ some l) →
    w'.root.nodeAt? l = w.root.nodeAt? l
  /-- Nothing comes or goes. -/
  rewritten : FilesRewritten w w'

/-- A patch that is applied comes before the others. -/
theorem PatchesApplied.cons {old mid : String} {executable : Bool} (hw : w.root.WellFormed)
    (hfirst : patch.Rewrote output w l old mid executable v)
    (hrest : PatchesApplied output patches v w') :
    PatchesApplied output (patch :: patches) w w' := by
  have hsame : ∀ q : SourcePatch, q.file? v output = q.file? w output := fun q =>
    hfirst.rewritten.file?_eq hw
  refine ⟨fun q hq => ?_, fun k text executable' hk => ?_, fun k hk => ?_,
    hfirst.rewritten.trans hrest.rewritten⟩
  · rcases List.mem_cons.mp hq with rfl | hq
    · exact ⟨l, old, executable, hfirst.file?_eq, hfirst.before⟩
    · obtain ⟨k, text, executable', hk, hnode⟩ := hrest.names q hq
      rw [hsame] at hk
      by_cases hkl : k = l
      · exact ⟨l, old, executable, hkl ▸ hk, hfirst.before⟩
      · exact ⟨k, text, executable', hk, hfirst.nodeAt?_eq k hkl ▸ hnode⟩
  · by_cases hkl : k = l
    · -- the first patch names this file, and the others find what it has left
      subst hkl
      rw [hfirst.before, Option.some.injEq, TreeNode.file.injEq] at hk
      obtain ⟨hbytes, rfl⟩ := hk
      obtain rfl := String.toByteArray_inj.mp hbytes
      obtain ⟨new, hnew, hpatched⟩ := hrest.patched k mid executable hfirst.after
      simp only [hsame] at hpatched
      refine ⟨new, hnew, ?_⟩
      rw [List.filter_cons_of_pos (by simpa using hfirst.file?_eq)]
      exact .cons hfirst.changes hpatched
    · obtain ⟨new, hnew, hpatched⟩ :=
        hrest.patched k text executable' ((hfirst.nodeAt?_eq k hkl).trans hk)
      simp only [hsame] at hpatched
      refine ⟨new, hnew, ?_⟩
      have hne : patch.file? w output ≠ some k := by
        rw [hfirst.file?_eq]
        exact fun h => hkl (Option.some.inj h).symm
      rwa [List.filter_cons_of_neg (by simpa using hne)]
  · obtain ⟨hnamed, hothers⟩ := List.forall_mem_cons.mp hk
    have hkl : k ≠ l := by
      rintro rfl
      exact hnamed hfirst.file?_eq
    rw [hrest.nodeAt?_eq k fun q hq => hsame q ▸ hothers q hq, hfirst.nodeAt?_eq k hkl]

/-- The path of a patch that names a file. -/
def SourcePatch.HasPath (w : World) (output : Path) (patch : SourcePatch) (path : Path) : Prop :=
  patch.target output = .ok path ∧ ∃ l, patch.file? w output = some l

/-- **Patches that are applied one after the other** change the files that they
name, each by the patches that name it. -/
theorem patchesApplied_of_mapM (hw : w.root.WellFormed)
    (h : patches.mapM (SourcePatch.apply output) w = .ok paths w') :
    PatchesApplied output patches w w' ∧
      List.Forall₂ (SourcePatch.HasPath w output) patches paths := by
  induction patches generalizing w paths with
  | nil =>
      obtain ⟨rfl, rfl⟩ := Action.mapM_nil_eq_ok_iff.mp h
      exact ⟨⟨by simp, fun l old executable hl => ⟨old, hl, .nil old⟩, fun l _ => rfl, .refl hw⟩,
        .nil⟩
  | cons patch patches ih =>
      obtain ⟨path, between, paths, hfirst, hrest, rfl⟩ := Action.mapM_cons_eq_ok_iff.mp h
      obtain ⟨htarget, l, old, mid, executable, hdone⟩ := exists_of_apply_eq_ok hw hfirst
      obtain ⟨happlied, hpaths⟩ := ih hdone.rewritten.wellFormed hrest
      refine ⟨happlied.cons hw hdone, .cons ⟨htarget, l, hdone.file?_eq⟩ ?_⟩
      refine hpaths.imp fun q p hq => ?_
      rw [SourcePatch.HasPath, hdone.rewritten.file?_eq hw] at hq
      exact hq

/-! ## The paths that are answered -/

/-- Paths that are added one after the other lose their repetitions, told by their components. -/
theorem foldl_addPath (seen : List Path) : paths.foldl addPath seen.reverse =
    List.eraseDupsBy.loop (fun p q => p.components == q.components) paths seen := by
  induction paths generalizing seen with
  | nil => rfl
  | cons p paths ih =>
      have hany : seen.reverse.any (·.components == p.components) =
          seen.any fun q => p.components == q.components := by
        rw [List.any_reverse]
        simp only [BEq.comm (a := p.components)]
      rw [List.foldl_cons, addPath, hany, List.eraseDupsBy.loop]
      cases seen.any fun q => p.components == q.components with
      | true => exact ih seen
      | false =>
          rw [if_neg Bool.false_ne_true, ← List.reverse_cons]
          exact ih (p :: seen)

/-- The patches that are the first to name their files. -/
def firstPatches (w : World) (output : Path) (patches : List SourcePatch) : List SourcePatch :=
  patches.eraseDupsBy fun patch patch' => patch.file? w output == patch'.file? w output

/-- **Each patched file is answered once,** as the first patch spells it that
names it, and in the order of these patches. -/
theorem forall₂_firstPatches (houtput : output.text ≠ "") (hfree : LinkFreeBelow w output)
    (h : List.Forall₂ (SourcePatch.HasPath w output) patches paths) :
    List.Forall₂ (SourcePatch.HasPath w output) (firstPatches w output patches)
      (paths.foldl addPath []) := by
  have herase : paths.foldl addPath [] =
      paths.eraseDupsBy fun p q => p.components == q.components := foldl_addPath []
  rw [herase]
  refine forall₂_eraseDupsBy h ?_
  rintro patch path patch' path' ⟨htarget, l, hl⟩ ⟨htarget', l', hl'⟩
  have hsame := file?_eq_iff_components houtput hfree htarget htarget' hl hl'
  rw [Bool.eq_iff_iff, beq_iff_eq, beq_iff_eq, hl, hl', Option.some.injEq, hsame]

/-- Patches succeed when each does, in order; their files are listed without repetitions. -/
theorem applyPatches_eq_ok_iff : applyPatches output patches w = .ok paths w' ↔
    ∃ each, patches.mapM (SourcePatch.apply output) w = .ok each w' ∧
      each.foldl addPath [] = paths := by
  rw [applyPatches, Action.bind_eq_ok_iff]
  simp only [Action.pure_eq_ok_iff]
  constructor
  · rintro ⟨each, between, heach, hpaths, rfl⟩
    exact ⟨each, heach, hpaths⟩
  · rintro ⟨each, heach, hpaths⟩
    exact ⟨each, w', heach, hpaths, rfl⟩

/-- They fail where one of them does. -/
theorem applyPatches_eq_error_iff : applyPatches output patches w = .error fault w' ↔
    patches.mapM (SourcePatch.apply output) w = .error fault w' := by
  rw [applyPatches, Action.bind_eq_error_iff]
  refine or_iff_left ?_
  rintro ⟨each, between, -, hpure⟩
  cases hpure

/-! ## What matters to patches -/

/-- Nothing matters to a patch but the output directory. -/
theorem confined_apply (output : Path) (patch : SourcePatch) :
    Confined output (SourcePatch.apply output patch) := by
  intro w v h
  refine sameResult_bind (sameResult_look h rfl) fun path w₁ v₁ hlook h₁ => ?_
  obtain ⟨rfl, hdescends⟩ := descends_of_target (Action.look_eq_ok_iff.mp hlook).1
  have hread := readText_join hdescends h₁
  have htext : patch.patchedText w₁ (output.join ⟨patch.file⟩) =
      patch.patchedText v₁ (output.join ⟨patch.file⟩) := by
    rw [SourcePatch.patchedText, SourcePatch.patchedText, hread]
  refine sameResult_bind (sameResult_look h₁ htext) fun text w₂ v₂ hlook' h₂ => ?_
  obtain ⟨hpatched, rfl⟩ := Action.look_eq_ok_iff.mp hlook'
  obtain ⟨old, hold, -⟩ := exists_of_patchedText_eq_ok hpatched
  exact sameResult_bind (sameResult_writeText hdescends h₂ hold text) fun _ w₃ v₃ _ h₃ =>
    confined_pure _ w₃ v₃ h₃

/-- **Nothing but the entries of the output directory matters to patches.** -/
theorem confined_applyPatches (output : Path) (patches : List SourcePatch) :
    Confined output (applyPatches output patches) := fun w v h =>
  sameResult_bind (confined_mapM (confined_apply output) patches w v h) fun _ w₁ v₁ _ h₁ =>
    confined_pure _ w₁ v₁ h₁

/-- A file that is not below the output directory is none that a patch names. -/
theorem isBelow_of_file? (houtput : output.text ≠ "") (hfree : LinkFreeBelow w output)
    (h : patch.file? w output = some l) : w.IsBelow output l := by
  obtain ⟨lo, es, r, hdir, hr, hl, -⟩ := exists_below_of_file? houtput hfree h
  exact ⟨lo, es, r, hdir, hr, hl⟩

/-! ## What a run of patches does -/

/-- Patches that are all applied change the files that they name, and answer
each of these files once. -/
theorem patchesApplied_of_applyPatches (hw : w.root.WellFormed) (houtput : output.text ≠ "")
    (hfree : LinkFreeBelow w output) (h : applyPatches output patches w = .ok paths w') :
    PatchesApplied output patches w w' ∧
      List.Forall₂ (SourcePatch.HasPath w output) (firstPatches w output patches) paths := by
  obtain ⟨each, heach, rfl⟩ := applyPatches_eq_ok_iff.mp h
  obtain ⟨happlied, hpaths⟩ := patchesApplied_of_mapM hw heach
  exact ⟨happlied, forall₂_firstPatches houtput hfree hpaths⟩

/-- **Patches fail at one of them,** when those before it are applied. -/
theorem exists_of_applyPatches_eq_error (h : applyPatches output patches w = .error fault w') :
    ∃ front patch back changed between, patches = front ++ patch :: back ∧
      applyPatches output front w = .ok changed between ∧
      patch.apply output between = .error fault w' := by
  obtain ⟨front, patch, back, each, between, rfl, hfront, hfault⟩ :=
    Action.exists_of_mapM_eq_error (applyPatches_eq_error_iff.mp h)
  exact ⟨front, patch, back, _, between, rfl, applyPatches_eq_ok_iff.mpr ⟨each, hfront, rfl⟩,
    hfault⟩

/-- **What source patches do,** if no link stands below the output directory.

* When they all apply, the text of each file is what the patches that name it
  make of its old text in their order, each finding what it searches for; nothing
  else has changed; and each of these files is answered once, as the first patch
  spells it.
* When one fails, the world is as the patches before it have left it.
* Only files below the output directory are named by a patch, whatever its path
  is, only such files are written, and nothing else in the world has a say in
  what the patches answer or in what they leave there. -/
theorem applyPatches_patches_files (hw : w.root.WellFormed) (houtput : output.text ≠ "")
    (hfree : LinkFreeBelow w output) (patches : List SourcePatch) :
    (∀ changed w', applyPatches output patches w = .ok changed w' →
      PatchesApplied output patches w w' ∧
        List.Forall₂ (SourcePatch.HasPath w output) (firstPatches w output patches) changed) ∧
    (∀ fault w', applyPatches output patches w = .error fault w' →
      ∃ front patch back changed, patches = front ++ patch :: back ∧
        applyPatches output front w = .ok changed w' ∧ PatchesApplied output front w w' ∧
        patch.apply output w' = .error fault w') ∧
    (∀ (patch : SourcePatch) (l : Location), patch.file? w output = some l →
      w.IsBelow output l) ∧
    (∀ l, ¬ w.IsBelow output l →
      (worldAfter (applyPatches output patches w)).root.nodeAt? l = w.root.nodeAt? l) ∧
    ∀ v, SameDirectory output w v →
      SameResult output (applyPatches output patches w) (applyPatches output patches v) := by
  have hok : ∀ {patches changed w'}, applyPatches output patches w = .ok changed w' →
      PatchesApplied output patches w w' ∧
        List.Forall₂ (SourcePatch.HasPath w output) (firstPatches w output patches) changed :=
    fun h => patchesApplied_of_applyPatches hw houtput hfree h
  have herror : ∀ fault w', applyPatches output patches w = .error fault w' →
      ∃ front patch back changed, patches = front ++ patch :: back ∧
        applyPatches output front w = .ok changed w' ∧ PatchesApplied output front w w' ∧
        patch.apply output w' = .error fault w' := by
    intro fault w' h
    obtain ⟨front, patch, back, changed, between, rfl, hfront, hfault⟩ :=
      exists_of_applyPatches_eq_error h
    have happlied := (hok hfront).1
    have hsame := eq_of_apply_eq_error happlied.rewritten.wellFormed hfault
    subst hsame
    exact ⟨front, patch, back, changed, rfl, hfront, happlied, hfault⟩
  have hbelow : ∀ (patch : SourcePatch) (l : Location), patch.file? w output = some l →
      w.IsBelow output l := fun patch l => isBelow_of_file? houtput hfree
  refine ⟨fun changed w' => hok, herror, hbelow, fun l hl => ?_,
    confined_applyPatches output patches w⟩
  have hunnamed : ∀ (patches : List SourcePatch), ∀ patch ∈ patches,
      patch.file? w output ≠ some l := fun _ patch _ h => hl (hbelow patch l h)
  cases hresult : applyPatches output patches w with
  | ok changed w' => exact (hok hresult).1.nodeAt?_eq l (hunnamed patches)
  | error fault w' =>
      obtain ⟨front, -, -, -, -, -, happlied, -⟩ := herror fault w' hresult
      exact happlied.nodeAt?_eq l (hunnamed front)

/-- A world with two files in an output directory. -/
def clientWorld (a b : String) : World :=
  ⟨.dir [("out", .dir [("a", .file a.toUTF8 false), ("d", .dir [("b", .file b.toUTF8 true)])])],
    [], []⟩

/-- Patches of which the last finds what the first has put into a file, and
spells the file in another way. -/
def clientPatches : List SourcePatch :=
  [⟨"d/b", "x", "yy"⟩, ⟨"a", "x", "z"⟩, ⟨"./d//b", "yyy", "w"⟩]

theorem linkFree_clientWorld (a b : String) : (clientWorld a b).root.LinkFree := by
  refine .dir (List.forall_mem_singleton.mpr (.dir (List.forall_mem_cons.mpr ⟨.file _ _, ?_⟩)))
  exact List.forall_mem_singleton.mpr (.dir (List.forall_mem_singleton.mpr (.file _ _)))

/-- The other spelling leads to the file. -/
theorem locate_clientWorld (a b : String) : (clientWorld a b).locate ⟨"/out/./d//b"⟩ true =
    .ok (.present ["out", "d", "b"] (.file b.toUTF8 true)) := by
  have hsteps : stepsOf "/out/./d//b" = ["out", ".", "d", "b"] := by decide
  have hlimits : "out".utf8ByteSize ≤ nameLimit ∧ "d".utf8ByteSize ≤ nameLimit ∧
      "b".utf8ByteSize ≤ nameLimit := by decide
  rw [locate_eq_ok_iff, hsteps]
  refine ⟨by decide, by decide, by decide, ?_⟩
  rw [if_pos (by decide)]
  simp [walk, clientWorld, Entry.at?, Entry.entries, List.lookup_cons, Nat.not_lt.mpr hlimits.1,
    Nat.not_lt.mpr hlimits.2.1, Nat.not_lt.mpr hlimits.2.2]

/-- The three patches change both files, the first of them twice. -/
theorem applyPatches_clientPatches : applyPatches ⟨"/out"⟩ clientPatches (clientWorld "x" "xy") =
    .ok [⟨"/out/d/b"⟩, ⟨"/out/a"⟩] (clientWorld "z" "w") := by
  have hb : (clientWorld "x" "xy").locate ⟨"/out/d/b"⟩ true =
      .ok (.present ["out", "d", "b"] (.file "xy".toUTF8 true)) :=
    locate_of_spells (by decide) rfl (by simp) true
  have ha : (clientWorld "x" "yyy").locate ⟨"/out/a"⟩ true =
      .ok (.present ["out", "a"] (.file "x".toUTF8 false)) :=
    locate_of_spells (by decide) rfl (by simp) true
  have hchanged : SourcePatch.changed ⟨"d/b", "x", "yy"⟩ "xy" = "yyy" ∧
      SourcePatch.changed ⟨"a", "x", "z"⟩ "x" = "z" ∧
      SourcePatch.changed ⟨"./d//b", "yyy", "w"⟩ "yyy" = "w" := by
    simp [SourcePatch.changed, Text.replaceAll, Text.replaceEach, Text.dropStart?]
  have hfirst : SourcePatch.apply ⟨"/out"⟩ ⟨"d/b", "x", "yy"⟩ (clientWorld "x" "xy") =
      .ok ⟨"/out/d/b"⟩ (clientWorld "x" "yyy") := by
    rw [apply_eq_ok (by decide) hb (by decide) (by decide), hchanged.1]
    rfl
  have hsecond : SourcePatch.apply ⟨"/out"⟩ ⟨"a", "x", "z"⟩ (clientWorld "x" "yyy") =
      .ok ⟨"/out/a"⟩ (clientWorld "z" "yyy") := by
    rw [apply_eq_ok (by decide) ha (by decide) (by decide), hchanged.2.1]
    rfl
  have hthird : SourcePatch.apply ⟨"/out"⟩ ⟨"./d//b", "yyy", "w"⟩ (clientWorld "z" "yyy") =
      .ok ⟨"/out/./d//b"⟩ (clientWorld "z" "w") := by
    rw [apply_eq_ok (by decide) (locate_clientWorld "z" "yyy") (by decide) (by decide),
      hchanged.2.2]
    rfl
  refine applyPatches_eq_ok_iff.mpr ⟨[⟨"/out/d/b"⟩, ⟨"/out/a"⟩, ⟨"/out/./d//b"⟩], ?_, by decide⟩
  refine Action.mapM_cons_eq_ok_iff.mpr ⟨_, _, _, hfirst, ?_, rfl⟩
  refine Action.mapM_cons_eq_ok_iff.mpr ⟨_, _, _, hsecond, ?_, rfl⟩
  exact Action.mapM_cons_eq_ok_iff.mpr
    ⟨_, _, _, hthird, Action.mapM_nil_eq_ok_iff.mpr ⟨rfl, rfl⟩, rfl⟩

/-- Three patches to two files, one of which they spell in two ways. -/
theorem applyPatches_patches_files_spellings :
    (clientWorld "x" "xy").root.WellFormed ∧ (⟨"/out"⟩ : Path).text ≠ "" ∧
      LinkFreeBelow (clientWorld "x" "xy") ⟨"/out"⟩ ∧
      applyPatches ⟨"/out"⟩ clientPatches (clientWorld "x" "xy") =
        .ok [⟨"/out/d/b"⟩, ⟨"/out/a"⟩] (clientWorld "z" "w") ∧
      PatchesApplied ⟨"/out"⟩ clientPatches (clientWorld "x" "xy") (clientWorld "z" "w") ∧
      List.Forall₂ (SourcePatch.HasPath (clientWorld "x" "xy") ⟨"/out"⟩)
        (firstPatches (clientWorld "x" "xy") ⟨"/out"⟩ clientPatches)
        [⟨"/out/d/b"⟩, ⟨"/out/a"⟩] := by
  have hw : (clientWorld "x" "xy").root.WellFormed := by decide
  have houtput : (⟨"/out"⟩ : Path).text ≠ "" := by decide
  have hfree : LinkFreeBelow (clientWorld "x" "xy") ⟨"/out"⟩ := fun l es hdir =>
    (linkFree_clientWorld "x" "xy").of_at? (at?_of_directory? hdir)
  have hrun := applyPatches_clientPatches
  exact ⟨hw, houtput, hfree, hrun,
    (applyPatches_patches_files hw houtput hfree clientPatches).1 _ _ hrun⟩

end ClientRegen
