import ClientRegen.EnumFiles
import ClientRegen.Proofs.FileTree.Locating

/-!
# The files that a walk meets

A walk meets the regular files of the tree that its path leads to, each where
it stands (`mem_walkFiles`).  `Meets` says this by locations alone: below the
start no link is followed, because only directories hold anything.

Files are met depth first and by the order of names, which is the order of
their locations (`pairwise_walkFiles`), so no file is met twice.  Names hold no
slash, so no path is met twice either (`Path.below_injective`).
-/

namespace ClientRegen

variable {root e : Entry} {es : List (String × Entry)} {links : Nat} {here l r s : Location}
  {steps : List String} {w : World} {p : Path} {n : String} {f g : FoundFile}
  {files : List FoundFile}

/-! ## Paths below a path -/

namespace Path

/-- The path of what stands at a location below a path. -/
def below (p : Path) (r : Location) : Path :=
  r.foldl (fun p n => p.join ⟨n⟩) p

theorem stem_join (p : Path) (hn : IsEntryName n) :
    (p.join ⟨n⟩).stem = p.stem ++ (n.toList ++ ['/']) := by
  have htext := toList_join p (isAbsolute_name hn.slash_notMem)
  have hne : n.toList ≠ [] := fun h => hn.ne_empty (String.toList_eq_nil_iff.mp h)
  have hopen : ¬ ((p.join ⟨n⟩).text = "" ∨ (p.join ⟨n⟩).text.toList.getLast? = some '/') := by
    rintro (h | h)
    · rw [h] at htext
      exact hne (List.append_eq_nil_iff.mp htext.symm).2
    · rw [htext, List.getLast?_append_of_ne_nil _ hne] at h
      exact hn.slash_notMem (List.mem_of_getLast? h)
  rw [stem, if_neg hopen, htext, List.append_assoc]

theorem stem_below (p : Path) (hr : ∀ n ∈ r, IsEntryName n) :
    (p.below r).stem = p.stem ++ r.flatMap fun n => n.toList ++ ['/'] := by
  induction r generalizing p with
  | nil => simp [below]
  | cons n r ih =>
      rw [List.forall_mem_cons] at hr
      have hrest := ih (p.join ⟨n⟩) hr.2
      rw [stem_join p hr.1] at hrest
      rw [List.flatMap_cons, ← List.append_assoc]
      exact hrest

/-- A slash ends a name. -/
theorem takeWhile_name (hn : IsEntryName n) (rest : List Char) :
    (n.toList ++ '/' :: rest).takeWhile (· ≠ '/') = n.toList := by
  have hall : ∀ c ∈ n.toList, decide (c ≠ '/') = true := by
    intro c hc
    rw [decide_eq_true_eq]
    rintro rfl
    exact hn.slash_notMem hc
  rw [List.takeWhile_append_of_pos hall, List.takeWhile_cons_of_neg (by simp), List.append_nil]

/-- Names that end in slashes are told apart. -/
theorem flatMap_slashed_injective (hr : ∀ n ∈ r, IsEntryName n) (hs : ∀ n ∈ s, IsEntryName n)
    (h : (r.flatMap fun n => n.toList ++ ['/']) = s.flatMap fun n => n.toList ++ ['/']) :
    r = s := by
  induction r generalizing s with
  | nil =>
      cases s with
      | nil => rfl
      | cons m s => simp at h
  | cons n r ih =>
      cases s with
      | nil => simp at h
      | cons m s =>
          rw [List.forall_mem_cons] at hr hs
          simp only [List.flatMap_cons, List.append_assoc, List.singleton_append] at h
          have hname := congrArg (List.takeWhile (· ≠ '/')) h
          rw [takeWhile_name hr.1, takeWhile_name hs.1] at hname
          rw [hname] at h
          have hrest := (List.cons.inj (List.append_cancel_left h)).2
          rw [String.toList_inj.mp hname, ih hr.2 hs.2 hrest]

/-- **Different locations have different paths.** -/
theorem below_injective (hr : ∀ n ∈ r, IsEntryName n) (hs : ∀ n ∈ s, IsEntryName n)
    (h : p.below r = p.below s) : r = s := by
  have hstem := stem_below p hr
  rw [h, stem_below p hs] at hstem
  exact flatMap_slashed_injective hr hs (List.append_cancel_left hstem).symm

end Path

/-! ## The files of a tree -/

/-- Whether one file comes before another depth first and by the order of
names. -/
def FoundFile.Before (f g : FoundFile) : Prop :=
  List.Lex (· < ·) f.location g.location

theorem FoundFile.Before.location_ne (h : f.Before g) : f.location ≠ g.location := by
  intro heq
  rw [FoundFile.Before, heq] at h
  exact List.lex_irrefl String.lt_irrefl _ h

theorem filesBelow_eq (p : Path) (l : Location) (es : List (String × Entry)) :
    filesBelow p l es = es.flatMap fun q => filesOf (p.join ⟨q.1⟩) (l ++ [q.1]) q.1 q.2 := by
  induction es with
  | nil => rw [filesBelow, List.flatMap_nil]
  | cons q es ih => rw [filesBelow, ih, List.flatMap_cons]

/-- The files below a directory are those of its entries. -/
theorem mem_filesBelow (hordered : Ordered es) :
    f ∈ filesBelow p l es ↔
      ∃ n e, es.lookup n = some e ∧ f ∈ filesOf (p.join ⟨n⟩) (l ++ [n]) n e := by
  rw [filesBelow_eq, List.mem_flatMap]
  constructor
  · rintro ⟨⟨n, e⟩, hmem, hf⟩
    exact ⟨n, e, hordered.lookup_eq hmem, hf⟩
  · rintro ⟨n, e, hlookup, hf⟩
    exact ⟨(n, e), mem_of_lookup hlookup, hf⟩

/-- **The files of a tree are the files at its locations.** -/
theorem mem_filesOf (h : e.WellFormed) :
    f ∈ filesOf p l n e ↔ ∃ r content executable,
      e.at? r = some (.file content executable) ∧
        f = ⟨p.below r, l ++ r, r.getLastD n, content⟩ := by
  induction h generalizing p l n with
  | file content executable =>
      rw [filesOf, List.mem_singleton]
      constructor
      · rintro rfl
        exact ⟨[], content, executable, Entry.at?_nil, by simp [Path.below]⟩
      · rintro ⟨r, content', executable', hr, rfl⟩
        cases r with
        | nil =>
            rw [Entry.at?_nil] at hr
            cases hr
            simp [Path.below]
        | cons m r => simp [Entry.at?_cons, Entry.entries] at hr
  | link target =>
      rw [filesOf]
      refine iff_of_false List.not_mem_nil ?_
      rintro ⟨r, content, executable, hr, -⟩
      cases r with
      | nil => simp at hr
      | cons m r => simp [Entry.at?_cons, Entry.entries] at hr
  | @dir es hordered hname hentry ih =>
      rw [filesOf, mem_filesBelow hordered]
      constructor
      · rintro ⟨m, d, hd, hf⟩
        obtain ⟨r, content, executable, hr, rfl⟩ := (ih _ (mem_of_lookup hd)).mp hf
        refine ⟨m :: r, content, executable, ?_, ?_⟩
        · rw [Entry.at?_cons, Entry.entries, hd]
          exact hr
        · rw [List.getLastD_cons, List.append_assoc]
          rfl
      · rintro ⟨r, content, executable, hr, rfl⟩
        cases r with
        | nil => simp at hr
        | cons m r =>
            rw [Entry.at?_cons, Entry.entries] at hr
            obtain ⟨d, hd, hr⟩ := Option.bind_eq_some_iff.mp hr
            refine ⟨m, d, hd, (ih _ (mem_of_lookup hd)).mpr ⟨r, content, executable, hr, ?_⟩⟩
            rw [List.getLastD_cons, List.append_assoc]
            rfl

/-- The files of a tree stand where the tree does or below. -/
theorem location_of_mem_filesOf (h : e.WellFormed) (hf : f ∈ filesOf p l n e) :
    ∃ r, f.location = l ++ r := by
  obtain ⟨r, content, executable, -, rfl⟩ := (mem_filesOf h).mp hf
  exact ⟨r, rfl⟩

/-- **The files of a tree come in the order of their locations.** -/
theorem pairwise_filesOf (h : e.WellFormed) : (filesOf p l n e).Pairwise FoundFile.Before := by
  induction h generalizing p l n with
  | file content executable =>
      rw [filesOf]
      exact List.pairwise_singleton _ _
  | link target =>
      rw [filesOf]
      exact .nil
  | @dir es hordered hname hentry ih =>
      rw [filesOf, filesBelow_eq, List.pairwise_flatMap]
      refine ⟨fun q hq => ih q hq, hordered.imp_of_mem fun {q q'} hq hq' hlt f hf g hg => ?_⟩
      obtain ⟨r, hr⟩ := location_of_mem_filesOf (hentry q hq) hf
      obtain ⟨s, hs⟩ := location_of_mem_filesOf (hentry q' hq') hg
      rw [FoundFile.Before, hr, hs, List.append_assoc, List.append_assoc]
      exact List.append_left_lt (.rel hlt)

/-! ## The walk -/

/-- A file that stands at a path or below it: the path leads to the file itself,
or to a directory and the file stands below, where no link is followed. -/
inductive Meets (w : World) (p : Path) : FoundFile → Prop
  | here {l : Location} {content : ByteArray} {executable : Bool}
      (h : w.locate p false = .ok (.present l (.file content executable))) :
      Meets w p ⟨p, l, p.fileName?.getD p.text, content⟩
  | below {l : Location} {es : List (String × Entry)} {n : String} {r : Location}
      {content : ByteArray} {executable : Bool} (h : w.directory? p = some (l, es))
      (hfile : (Entry.dir es).at? (n :: r) = some (.file content executable)) :
      Meets w p ⟨p.below (n :: r), l ++ n :: r, r.getLastD n, content⟩

/-- A file that was met is the file that stands at its location. -/
theorem Meets.at?_location (h : Meets w p f) :
    ∃ executable, w.root.at? f.location = some (.file f.content executable) := by
  cases h with
  | @here l content executable h => exact ⟨executable, at?_of_locate h⟩
  | @below l es n r content executable h hfile =>
      refine ⟨executable, ?_⟩
      rw [Entry.at?_append, at?_of_directory? h]
      exact hfile

/-- A walk that ends at no link ends there also when it may follow one. -/
theorem walk_follow (h : walk root false links here steps = .ok (.present l e))
    (he : ∀ target, e ≠ .link target) :
    walk root true links here steps = .ok (.present l e) := by
  fun_induction walk root false links here steps with
  | case1 links here e' hhere =>
      cases h
      rw [walk, hhere]
  | case6 links here rest es hhere ih =>
      rw [walk, hhere]
      simpa using ih h
  | case7 links here rest es hhere hdot ih =>
      rw [walk, hhere]
      simpa [hdot] using ih h
  | case11 links here step es hhere hdot hdots hlimit content executable hstep =>
      cases h
      rw [walk, hhere]
      simp [hdot, hdots, hlimit, hstep]
  | case13 links here step rest es hhere hdot hdots hlimit es' hstep ih =>
      rw [walk, hhere]
      simpa [hdot, hdots, hlimit, hstep] using ih h
  -- the one place where the two walks differ: a link at the end
  | case14 links here step rest es hhere hdot hdots hlimit target hstep hend =>
      cases h
      exact absurd rfl (he target)
  | case16 here step rest es hhere hdot hdots hlimit target hstep hend links ih =>
      rw [walk, hhere]
      simpa [hdot, hdots, hlimit, hstep] using ih h
  | _ => cases h

theorem locate_follow (h : w.locate p false = .ok (.present l e))
    (he : ∀ target, e ≠ .link target) : w.locate p true = .ok (.present l e) := by
  obtain ⟨hnul, hempty, hlong, hwalk⟩ := locate_eq_ok_iff.mp h
  exact locate_eq_ok_iff.mpr ⟨hnul, hempty, hlong, walk_follow hwalk he⟩

theorem directory?_eq_none (h : w.locate p true = .ok (.present l e)) (he : e.isDir = false) :
    w.directory? p = none := by
  rw [World.directory?, h]
  cases e with
  | file content executable => rfl
  | link target => rfl
  | dir es => cases he

/-- Below a directory a walk meets the files of its entries. -/
theorem mem_filesBelow_iff_meets (hw : w.root.WellFormed) (hdir : w.directory? p = some (l, es))
    (hhere : ∀ k content executable,
      w.locate p false ≠ .ok (.present k (.file content executable))) :
    f ∈ filesBelow p l es ↔ Meets w p f := by
  have hwf : (Entry.dir es).WellFormed := hw.of_at? (at?_of_directory? hdir)
  have hfiles : f ∈ filesBelow p l es ↔ f ∈ filesOf p l "" (.dir es) := by rw [filesOf]
  rw [hfiles, mem_filesOf hwf]
  constructor
  · rintro ⟨r, content, executable, hr, rfl⟩
    cases r with
    | nil => simp at hr
    | cons n r =>
        rw [List.getLastD_cons]
        exact .below hdir hr
  · rintro (⟨h⟩ | ⟨h, hfile⟩)
    · exact absurd h (hhere _ _ _)
    · rw [hdir] at h
      cases h
      exact ⟨_, _, _, hfile, by rw [List.getLastD_cons]⟩

/-- **A walk meets the files at its path and below it.** -/
theorem mem_walkFiles (hw : w.root.WellFormed) (h : walkFiles w p = .ok files) :
    f ∈ files ↔ Meets w p f := by
  unfold walkFiles at h
  split at h
  · cases h
  · cases h
  · rename_i k target hlink
    have hhere : ∀ k' content executable,
        w.locate p false ≠ .ok (.present k' (.file content executable)) := by
      intro k' content executable
      rw [hlink]
      simp
    split at h
    · cases h
    · cases h
    · rename_i l e hlocate
      cases h
      cases e with
      | dir es => exact mem_filesBelow_iff_meets hw (directory?_eq_some_iff.mpr hlocate) hhere
      | file | link =>
          change f ∈ filesBelow p l [] ↔ Meets w p f
          rw [filesBelow]
          refine iff_of_false List.not_mem_nil ?_
          rintro (⟨h⟩ | ⟨h, -⟩)
          · exact hhere _ _ _ h
          · rw [directory?_eq_none hlocate rfl] at h
            cases h
  · rename_i l e hnolink hlocate
    cases h
    cases e with
    | link target => exact absurd rfl (hnolink target)
    | dir es =>
        rw [filesOf]
        refine mem_filesBelow_iff_meets hw
          (directory?_eq_some_iff.mpr (locate_follow hlocate ?_)) ?_
        · simp
        · simp [hlocate]
    | file content executable =>
        rw [filesOf, List.mem_singleton]
        constructor
        · rintro rfl
          exact .here hlocate
        · rintro (⟨h⟩ | ⟨h, -⟩)
          · rw [hlocate] at h
            cases h
            rfl
          · rw [directory?_eq_none (locate_follow hlocate (by simp)) rfl] at h
            cases h

/-- **A walk goes depth first and by the order of names.** -/
theorem pairwise_walkFiles (hw : w.root.WellFormed) (h : walkFiles w p = .ok files) :
    files.Pairwise FoundFile.Before := by
  unfold walkFiles at h
  split at h
  · cases h
  · cases h
  · split at h
    · cases h
    · cases h
    · rename_i l e hlocate
      cases h
      cases e with
      | dir es =>
          have hsorted := pairwise_filesOf (p := p) (l := l) (n := "")
            (hw.of_at? (at?_of_locate hlocate))
          rwa [filesOf] at hsorted
      | file | link =>
          change (filesBelow p l []).Pairwise FoundFile.Before
          rw [filesBelow]
          exact .nil
  · rename_i hlocate
    cases h
    exact pairwise_filesOf (hw.of_at? (at?_of_locate hlocate))

/-- A path does not lead both to a file and to a directory. -/
theorem directory?_ne_some {content : ByteArray} {executable : Bool}
    (h : w.locate p false = .ok (.present s (.file content executable))) :
    w.directory? p ≠ some (l, es) := by
  rw [directory?_eq_none (locate_follow h (by simp)) rfl]
  simp

/-- **A file is met once.** -/
theorem Meets.eq_of_location_eq (hf : Meets w p f) (hg : Meets w p g)
    (h : f.location = g.location) : f = g := by
  cases hf with
  | here hlocate =>
      cases hg with
      | here hlocate' =>
          rw [hlocate] at hlocate'
          cases hlocate'
          rfl
      | below hdir => exact absurd hdir (directory?_ne_some hlocate)
  | below hdir hfile =>
      cases hg with
      | here hlocate => exact absurd hdir (directory?_ne_some hlocate)
      | below hdir' hfile' =>
          rw [hdir] at hdir'
          cases hdir'
          cases List.append_cancel_left h
          rw [hfile] at hfile'
          cases hfile'
          rfl

/-- **A path is met once.** -/
theorem Meets.eq_of_path_eq (hw : w.root.WellFormed) (hf : Meets w p f) (hg : Meets w p g)
    (h : f.path = g.path) : f = g := by
  refine hf.eq_of_location_eq hg ?_
  cases hf with
  | here hlocate =>
      cases hg with
      | here hlocate' =>
          rw [hlocate] at hlocate'
          cases hlocate'
          rfl
      | below hdir => exact absurd hdir (directory?_ne_some hlocate)
  | @below l es n r _ _ hdir hfile =>
      cases hg with
      | here hlocate => exact absurd hdir (directory?_ne_some hlocate)
      | @below l' es' m s _ _ hdir' hfile' =>
          rw [hdir] at hdir'
          cases hdir'
          have hwf : (Entry.dir es).WellFormed := hw.of_at? (at?_of_directory? hdir)
          have hsame : n :: r = m :: s :=
            Path.below_injective (hwf.isEntryName hfile) (hwf.isEntryName hfile') h
          change l ++ n :: r = l ++ m :: s
          rw [hsame]

end ClientRegen
