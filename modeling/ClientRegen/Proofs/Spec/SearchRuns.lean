import ClientRegen.Proofs.FileTree.Resolution
import ClientRegen.Proofs.FileTree.Walking
import ClientRegen.Proofs.Spec.Lookups

/-!
# Runs of the search over documents

The search goes on as long as anything is pending.  A run of it (`SearchRun`) is
told without a bound on the documents, and says into which ones it looks.

A run exists from every state of the walk (`exists_searchRun`): a step either
looks into a document where the search has not been, of which there are finitely
many, or makes the list of what is pending shorter.  No run looks into a document
twice (`SearchRun.nodup`), and with enough documents allowed for the search does
what the run does (`SearchRun.searchFrom_eq`).

In a tree without links a document that can be reached from the root goes by one
path only, the one that is spelled as its location (`Reachable.exists_location`).
So a run looks into no more documents than there are files
(`searchReachable_ends`).
-/

namespace ClientRegen

variable {w : World} {root p : Path} {name : String} {visited pending ps : List Path}
  {docs docs' : Documents} {v : Value} {first : EnumLookup} {fault : Failure}
  {r : EStateM.Result Failure Documents EnumLookup} {fuel : ℕ}

/-! ## Runs -/

/-- Looks into a document: reads it, and looks for a name among its keys. -/
def lookInto (w : World) (name : String) (p : Path) : Loading (Value × EnumLookup) := do
  let document ← fetch w p
  let first ← searchKeys w p (namedValues document) name
  pure (document, first)

/-- What a search comes to that goes on after a document in which it found no
enum. -/
def goneOn (first : EnumLookup) :
    EStateM.Result Failure Documents EnumLookup → EStateM.Result Failure Documents EnumLookup
  | .ok later docs => .ok (first.orLater later) docs
  | .error fault docs => .error fault docs

/-- A run of the search that has been to the documents `visited` and is still to
go to those in `pending`: from the documents kept at first, it looks into the
documents `ps`, in this order, and comes to the result. -/
inductive SearchRun (w : World) (name : String) :
    (visited pending : List Path) → Documents → (ps : List Path) →
      EStateM.Result Failure Documents EnumLookup → Prop
  /-- Nothing is pending any more. -/
  | done {visited : List Path} {docs : Documents} :
      SearchRun w name visited [] docs [] (.ok .missing docs)
  /-- A document where the search has been is passed over. -/
  | again {visited pending ps : List Path} {p : Path} {docs : Documents}
      {r : EStateM.Result Failure Documents EnumLookup} (hp : p ∈ visited)
      (h : SearchRun w name visited pending docs ps r) :
      SearchRun w name visited (p :: pending) docs ps r
  /-- A document that cannot be looked into ends the search. -/
  | fails {visited pending : List Path} {p : Path} {docs docs' : Documents} {fault : Failure}
      (hp : p ∉ visited) (hlook : lookInto w name p docs = .error fault docs') :
      SearchRun w name visited (p :: pending) docs [p] (.error fault docs')
  /-- An enum ends the search. -/
  | finds {visited pending : List Path} {p : Path} {docs docs' : Documents} {v : Value}
      {m : EnumMetadata} (hp : p ∉ visited)
      (hlook : lookInto w name p docs = .ok (v, .found m) docs') :
      SearchRun w name visited (p :: pending) docs [p] (.ok (.found m) docs')
  /-- The search goes on to the new documents that a document refers to, the last
  of them first. -/
  | goesOn {visited pending ps : List Path} {p : Path} {docs docs' : Documents} {v : Value}
      {first : EnumLookup} {r : EStateM.Result Failure Documents EnumLookup} (hp : p ∉ visited)
      (hlook : lookInto w name p docs = .ok (v, first) docs') (hfirst : ∀ m, first ≠ .found m)
      (h : SearchRun w name (p :: visited)
        ((unvisited (p :: visited) (referredDocuments w p v)).reverse ++ pending) docs' ps r) :
      SearchRun w name visited (p :: pending) docs (p :: ps) (goneOn first r)

theorem continueWith_found (m : EnumMetadata) (next : Loading EnumLookup) :
    (EnumLookup.found m).continueWith next docs = .ok (.found m) docs := by
  rfl

/-- What is not found is looked for in what comes next. -/
theorem continueWith_of_ne_found (hfirst : ∀ m, first ≠ .found m) (next : Loading EnumLookup) :
    first.continueWith next docs = goneOn first (next docs) := by
  cases first with
  | found m => exact absurd rfl (hfirst m)
  | notEnum fault | missing =>
      change EStateM.bind next _ docs = _
      rw [EStateM.bind]
      cases next docs <;> rfl

/-- A step of the search looks into a document and goes on from there. -/
theorem searchFrom_eq_lookInto (fuel : ℕ) (hp : p ∉ visited) :
    searchFrom w name (fuel + 1) visited (p :: pending) = lookInto w name p >>= fun looked =>
      looked.2.continueWith (searchFrom w name fuel (p :: visited)
        ((unvisited (p :: visited) (referredDocuments w p looked.1)).reverse ++ pending)) := by
  rw [searchFrom_of_notMem fuel hp, lookInto]
  simp only [bind_assoc, pure_bind, unvisited]

/-- **With enough documents allowed for, the search does what a run does.** -/
theorem SearchRun.searchFrom_eq (h : SearchRun w name visited pending docs ps r)
    (hfuel : ps.length ≤ fuel) : searchFrom w name fuel visited pending docs = r := by
  induction h generalizing fuel with
  | done =>
      rw [searchFrom]
      rfl
  | again hp _ ih =>
      rw [searchFrom_of_mem fuel hp]
      exact ih hfuel
  | fails hp hlook =>
      obtain ⟨fuel, rfl⟩ := Nat.exists_eq_add_one_of_ne_zero (Nat.pos_iff_ne_zero.mp hfuel)
      rw [searchFrom_eq_lookInto fuel hp]
      exact bind_eq_of_error hlook
  | finds hp hlook =>
      obtain ⟨fuel, rfl⟩ := Nat.exists_eq_add_one_of_ne_zero (Nat.pos_iff_ne_zero.mp hfuel)
      rw [searchFrom_eq_lookInto fuel hp, bind_eq_of_ok hlook]
      exact continueWith_found _ _
  | goesOn hp hlook hfirst _ ih =>
      rw [List.length_cons] at hfuel
      obtain ⟨fuel, rfl⟩ := Nat.exists_eq_add_one_of_ne_zero (by omega : fuel ≠ 0)
      rw [searchFrom_eq_lookInto fuel hp, bind_eq_of_ok hlook,
        continueWith_of_ne_found hfirst, ih (Nat.le_of_succ_le_succ hfuel)]

/-! ## What a run looks into -/

/-- Looking into a document reads it, and leaves current documents behind. -/
theorem read_of_lookInto (hdocs : Current w docs)
    (hlook : lookInto w name p docs = .ok (v, first) docs') :
    readDocument w p = .ok v ∧ Current w docs' := by
  obtain ⟨between, hbetween, hfetch⟩ := answers_fetch w p docs hdocs
  unfold lookInto at hlook
  cases hread : readDocument w p with
  | error fault =>
      rw [hread] at hfetch
      rw [bind_eq_of_error hfetch] at hlook
      cases hlook
  | ok u =>
      rw [hread] at hfetch
      rw [bind_eq_of_ok hfetch] at hlook
      obtain ⟨y, hy⟩ := hasAnswer_searchKeys w p (namedValues u) name
      obtain ⟨after, hafter, hkeys⟩ := hy between hbetween
      cases y with
      | error fault =>
          rw [bind_eq_of_error hkeys] at hlook
          cases hlook
      | ok found =>
          rw [bind_eq_of_ok hkeys] at hlook
          cases hlook
          exact ⟨rfl, hafter⟩

/-- **A run looks into no document twice,** and into none that cannot be reached. -/
theorem SearchRun.nodup (h : SearchRun w name visited pending docs ps r) (hdocs : Current w docs)
    (hpending : ∀ p ∈ pending, Reachable w root p) :
    ps.Nodup ∧ ∀ p ∈ ps, p ∉ visited ∧ Reachable w root p := by
  induction h with
  | done => simp
  | again hp _ ih => exact ih hdocs (List.forall_mem_cons.mp hpending).2
  | fails hp _ | finds hp _ =>
      refine ⟨List.nodup_singleton _, List.forall_mem_singleton.mpr ⟨hp, ?_⟩⟩
      exact hpending _ List.mem_cons_self
  | @goesOn visited pending ps p docs docs' v first r hp hlook hfirst _ ih =>
      obtain ⟨hread, hdocs'⟩ := read_of_lookInto hdocs hlook
      rw [List.forall_mem_cons] at hpending
      obtain ⟨hnodup, hps⟩ := ih hdocs' fun q hq => by
        rcases List.mem_append.mp hq with hq | hq
        · rw [List.mem_reverse, unvisited, List.mem_filter] at hq
          exact hpending.1.of_mem_referredDocuments hread hq.1
        · exact hpending.2 q hq
      refine ⟨List.nodup_cons.mpr ⟨fun hmem => (hps p hmem).1 List.mem_cons_self, hnodup⟩, ?_⟩
      refine List.forall_mem_cons.mpr ⟨⟨hp, hpending.1⟩, fun q hq => ?_⟩
      exact ⟨fun hmem => (hps q hq).1 (List.mem_cons_of_mem _ hmem), (hps q hq).2⟩

/-- **From every state of the walk the search comes to an end.**  The induction is
on the documents that the walk may still look into, and then on the length of
what is pending. -/
theorem exists_searchRun (name : String) (h : WalkState w root fuel visited pending)
    (hdocs : Current w docs) : ∃ ps r, SearchRun w name visited pending docs ps r := by
  fun_induction searchFrom w name fuel visited pending generalizing docs with
  | case1 fuel visited => exact ⟨_, _, .done⟩
  | case2 fuel visited p pending hmem ih =>
      obtain ⟨ps, r, hrun⟩ := ih h.tail hdocs
      exact ⟨ps, r, .again (List.contains_iff_mem.mp hmem) hrun⟩
  | case3 visited p pending hmem =>
      have hp : p ∉ visited := fun hp => hmem (List.contains_iff_mem.mpr hp)
      exact absurd rfl (h.fuel_ne_zero hp)
  | case4 visited p pending hmem fuel ih =>
      have hp : p ∉ visited := fun hp => hmem (List.contains_iff_mem.mpr hp)
      cases hlook : lookInto w name p docs with
      | error fault docs' => exact ⟨_, _, .fails hp hlook⟩
      | ok looked docs' =>
          obtain ⟨v, first⟩ := looked
          obtain ⟨hread, hdocs'⟩ := read_of_lookInto hdocs hlook
          by_cases hfound : ∃ m, first = .found m
          · obtain ⟨m, rfl⟩ := hfound
            exact ⟨_, _, .finds hp hlook⟩
          · obtain ⟨ps, r, hrun⟩ := ih v (h.next hp hread) hdocs'
            exact ⟨_, _, .goesOn hp hlook (fun m hm => hfound ⟨m, hm⟩) hrun⟩

/-! ## Documents and their locations -/

/-- A path that starts at the root, is written with names only and leads to the
file that stands under these names. -/
structure IsFileAt (w : World) (p : Path) (l : Location) : Prop where
  /-- The path is written with the names of the location. -/
  eq_ofComponents : p = Path.ofComponents true (l.map .name)
  /-- The names can be held by directories. -/
  isStep : ∀ n ∈ l, IsStep n
  /-- The path leads to a file. -/
  exists_file : ∃ content executable, w.locate p true = .ok (.present l (.file content executable))

variable {l : Location}

/-- A normal form that leads to a file is written with the names of its location. -/
theorem exists_isFileAt (hlinks : w.root.LinkFree) (habs : p.isAbsolute = true)
    (hnormal : p.normalize = p) (hfile : w.isFile p = true) : ∃ l, IsFileAt w p l := by
  obtain ⟨l, content, executable, hlocate⟩ := exists_locate_of_isFile hfile
  obtain ⟨heq, hl⟩ := normalize_of_locate hlinks habs hlocate
  exact ⟨l, hnormal ▸ heq, hl, content, executable, hlocate⟩

theorem IsFileAt.isAbsolute (h : IsFileAt w p l) : p.isAbsolute = true := by
  rw [h.eq_ofComponents]
  exact Path.isAbsolute_ofComponents (areNormal_map_name h.isStep)

/-- A file does not stand at the root. -/
theorem IsFileAt.ne_nil (h : IsFileAt w p l) : l ≠ [] := by
  rintro rfl
  obtain ⟨content, executable, hlocate⟩ := h.exists_file
  obtain ⟨es, hroot⟩ := exists_root_dir h.isAbsolute hlocate
  have hat := at?_of_locate hlocate
  rw [Entry.at?_nil, hroot] at hat
  cases hat

/-- The directory of a file starts at the root, too. -/
theorem IsFileAt.isAbsolute_directory (h : IsFileAt w p l) : p.directory.isAbsolute = true := by
  obtain ⟨front, n, rfl⟩ : ∃ front n, l = front ++ [n] := by
    rcases List.eq_nil_or_concat' l with rfl | hconcat
    · exact absurd rfl h.ne_nil
    · exact hconcat
  have hnormal := areNormal_map_name h.isStep
  have heq := h.eq_ofComponents
  rw [List.map_append, List.map_singleton] at hnormal heq
  rw [Path.directory, heq, Path.parent?_ofComponents hnormal]
  exact Path.isAbsolute_ofComponents hnormal.left

/-- **In a tree without links a document that can be reached goes by one path
only:** the names of its location. -/
theorem Reachable.exists_location (hlinks : w.root.LinkFree) (habs : root.isAbsolute = true)
    (hnormal : root.normalize = root) (hroot : w.isFile root = true) (h : Reachable w root p) :
    ∃ l, IsFileAt w p l := by
  induction h with
  | root => exact exists_isFileAt hlinks habs hnormal hroot
  | @referred p v text _ _ _ hfile hthere ih =>
      obtain ⟨l, hl⟩ := ih
      have hdocument : (Reference.ofText text).document p =
          (p.directory.join ⟨(Reference.ofText text).file⟩).normalize := by
        rw [Reference.document, if_neg hfile]
      rw [hdocument] at hthere ⊢
      refine exists_isFileAt hlinks ?_ (Path.normalize_normalize _) hthere
      -- an absolute reference starts at the root, and any other one in the directory
      rw [Path.isAbsolute_normalize]
      by_cases hfileAbs : Path.isAbsolute ⟨(Reference.ofText text).file⟩ = true
      · rw [Path.join, if_pos hfileAbs, hfileAbs]
      · rw [Bool.not_eq_true] at hfileAbs
        rw [Path.isAbsolute_join _ hfileAbs, hl.isAbsolute_directory]

/-- Different files go by different paths, so files that stand at the places of
some paths are as many as the paths. -/
theorem exists_locations (hps : ps.Nodup) (h : ∀ p ∈ ps, ∃ l, IsFileAt w p l) :
    ∃ ls : List Location, List.Forall₂ (IsFileAt w) ps ls ∧ ls.Nodup := by
  induction ps with
  | nil => exact ⟨[], .nil, List.nodup_nil⟩
  | cons p ps ih =>
      rw [List.nodup_cons] at hps
      rw [List.forall_mem_cons] at h
      obtain ⟨l, hl⟩ := h.1
      obtain ⟨ls, hls, hnodup⟩ := ih hps.2 h.2
      refine ⟨l :: ls, .cons hl hls, List.nodup_cons.mpr ⟨fun hmem => hps.1 ?_, hnodup⟩⟩
      obtain ⟨q, hq, hql⟩ := exists_of_mem_right hls hmem
      rwa [hl.eq_ofComponents, ← hql.eq_ofComponents]

/-! ## The search from the root -/

/-- All files of a tree. -/
def World.files (w : World) : List FoundFile :=
  filesOf ⟨"/"⟩ [] "" w.root

/-- Different files are no more than there are files in the tree. -/
theorem length_le_files (hw : w.root.WellFormed) {ls : List Location} (hnodup : ls.Nodup)
    (h : List.Forall₂ (IsFileAt w) ps ls) : ps.length ≤ w.files.length := by
  have hsub : ls ⊆ w.files.map FoundFile.location := by
    intro l hl
    obtain ⟨p, -, hp⟩ := exists_of_mem_right h hl
    obtain ⟨content, executable, hlocate⟩ := hp.exists_file
    exact List.mem_map.mpr ⟨_, (mem_filesOf hw).mpr
      ⟨l, content, executable, at?_of_locate hlocate, rfl⟩, rfl⟩
  have hlength := (hnodup.subperm hsub).length_le
  rwa [List.length_map, ← h.length_eq] at hlength

/-- **The search ends, and looks into no document twice.**  In a tree without
links the search that starts at an absolute root comes to an end, whatever
documents are kept and however the references run.  It does what its run does,
which looks into documents that can be reached, each at another location, and so
into no more than there are files. -/
theorem searchReachable_ends (hw : w.root.WellFormed) (hlinks : w.root.LinkFree)
    (habs : p.isAbsolute = true) {s : Specification} (hopen : Specification.openAt w p = .ok s)
    (hdocs : Current w docs) (name : String) :
    (∃ ps r, SearchRun w name [] [s.root] docs ps r) ∧
      ∀ ps r, SearchRun w name [] [s.root] docs ps r →
        searchReachable w s.root name docs = r ∧ (∀ q ∈ ps, Reachable w s.root q) ∧
        (∃ ls : List Location, List.Forall₂ (fun q l => ∃ content executable,
          w.locate q true = .ok (.present l (.file content executable))) ps ls ∧ ls.Nodup) ∧
        ps.length ≤ w.files.length := by
  obtain ⟨v, hread, rfl⟩ := Specification.openAt_eq_ok_iff.mp hopen
  have hroot : w.isFile p.normalize = true := by
    obtain ⟨l, content, executable, hlocate⟩ := exists_locate_of_readDocument hread
    rw [World.isFile, World.entry?, World.find, hlocate]
    rfl
  have hlocation : ∀ q, Reachable w p.normalize q → ∃ l, IsFileAt w q l := fun q hq =>
    hq.exists_location hlinks ((Path.isAbsolute_normalize p).trans habs)
      (Path.normalize_normalize p) hroot
  have hstart : ∀ q ∈ [p.normalize], Reachable w p.normalize q :=
    List.forall_mem_singleton.mpr .root
  constructor
  · have hstate : WalkState w p.normalize w.files.length [] [p.normalize] := by
      refine ⟨List.nodup_nil, by simp, hstart, fun qs hqs hreach => ?_⟩
      obtain ⟨ls, hls, hnodup⟩ := exists_locations hqs fun q hq => hlocation q (hreach q hq)
      rw [List.length_nil, Nat.zero_add]
      exact length_le_files hw hnodup hls
    exact exists_searchRun name hstate hdocs
  · intro ps r hrun
    obtain ⟨hnodup, hreach⟩ := hrun.nodup hdocs hstart
    obtain ⟨ls, hls, hdistinct⟩ := exists_locations hnodup fun q hq => hlocation q (hreach q hq).2
    have hshort : ∀ q ∈ ps, q.text.utf8ByteSize ≤ pathLimit := by
      intro q hq
      obtain ⟨l, hl⟩ := hlocation q (hreach q hq).2
      obtain ⟨content, executable, hlocate⟩ := hl.exists_file
      exact (locate_eq_ok_iff.mp hlocate).2.2.1
    refine ⟨?_, fun q hq => (hreach q hq).2, ⟨ls, hls.imp fun q l hl => hl.exists_file, hdistinct⟩,
      length_le_files hw hdistinct hls⟩
    have hfuel := length_le_pathCount hnodup hshort
    unfold searchReachable
    generalize pathCount = fuel at hfuel ⊢
    exact hrun.searchFrom_eq hfuel

/-! ## A cycle of two documents -/

theorem isFile_mutualWorld : mutualWorld.isFile ⟨"/s.json"⟩ = true ∧
    mutualWorld.isFile ⟨"/t.json"⟩ = true := by
  have hisFile : ∀ (q : Path) (l : Location) (content : ByteArray) (executable : Bool),
      q.Spells l → mutualWorld.root.at? l = some (.file content executable) →
        mutualWorld.isFile q = true := by
    intro q l content executable hq hat
    exact isFile_of_locate (locate_of_spells hq hat (by simp) true)
  exact ⟨hisFile _ ["s.json"] _ _ (by decide +kernel) rfl,
    hisFile _ ["t.json"] _ _ (by decide +kernel) rfl⟩

theorem referredDocuments_mutualWorld :
    referredDocuments mutualWorld ⟨"/s.json"⟩ firstDocument = [⟨"/t.json"⟩] ∧
      referredDocuments mutualWorld ⟨"/t.json"⟩ secondDocument = [⟨"/s.json"⟩] := by
  have hfirst : ((((references firstDocument).map Reference.ofText).filter (·.file ≠ "")).map
      (·.document ⟨"/s.json"⟩)) = [⟨"/t.json"⟩] := by decide +kernel
  have hsecond : ((((references secondDocument).map Reference.ofText).filter (·.file ≠ "")).map
      (·.document ⟨"/t.json"⟩)) = [⟨"/s.json"⟩] := by decide +kernel
  obtain ⟨hs, ht⟩ := isFile_mutualWorld
  rw [referredDocuments, hfirst, referredDocuments, hsecond]
  simp [hs, ht]

/-- A document without the name is looked into when it is read. -/
theorem lookInto_of_unnamed (hfetch : fetch w p docs = .ok v docs')
    (hkeys : ∀ entry ∈ namedValues v, isSchemaNamed name entry = false) :
    lookInto w name p docs = .ok (v, .missing) docs' := by
  have hnone : (namedValues v).filter (isSchemaNamed name) = [] := by
    simpa [List.filter_eq_nil_iff] using hkeys
  rw [lookInto, bind_eq_of_ok hfetch, searchKeys, hnone]
  rfl

/-- The search for a name that is not there goes from the one document to the
other, and not back again. -/
theorem searchRun_mutualWorld :
    SearchRun mutualWorld "D" [] [⟨"/s.json"⟩] mutualOpened.documents
      [⟨"/s.json"⟩, ⟨"/t.json"⟩]
      (.ok .missing [(⟨"/t.json"⟩, secondDocument), (⟨"/s.json"⟩, firstDocument)]) := by
  obtain ⟨hfirst, hsecond⟩ := referredDocuments_mutualWorld
  have hlook : lookInto mutualWorld "D" ⟨"/s.json"⟩ mutualOpened.documents =
      .ok (firstDocument, .missing) mutualOpened.documents :=
    lookInto_of_unnamed rfl (by decide +kernel)
  have hlook' : lookInto mutualWorld "D" ⟨"/t.json"⟩ mutualOpened.documents =
      .ok (secondDocument, .missing)
        [(⟨"/t.json"⟩, secondDocument), (⟨"/s.json"⟩, firstDocument)] := by
    refine lookInto_of_unnamed ?_ (by decide +kernel)
    have hnew : mutualOpened.documents.lookup ⟨"/t.json"⟩ = none := rfl
    rw [fetch, hnew, readDocument_mutualWorld.2]
    rfl
  refine .goesOn (r := .ok .missing _) (by simp) hlook (by simp) ?_
  rw [hfirst]
  refine .goesOn (r := .ok .missing _) (by decide) hlook' (by simp) ?_
  rw [hsecond]
  exact .done

/-- Two documents that refer to each other are searched once each. -/
theorem searchReachable_ends_mutual :
    mutualWorld.root.WellFormed ∧ mutualWorld.root.LinkFree ∧
      Path.isAbsolute ⟨"/s.json"⟩ = true ∧
      Specification.openAt mutualWorld ⟨"/s.json"⟩ = .ok mutualOpened ∧
      ∃ docs ls, searchReachable mutualWorld ⟨"/s.json"⟩ "D" mutualOpened.documents =
        .ok .missing docs ∧ List.Forall₂ (fun q l => ∃ content executable,
          mutualWorld.locate q true = .ok (.present l (.file content executable)))
          [⟨"/s.json"⟩, ⟨"/t.json"⟩] ls ∧ ls.Nodup := by
  have hw : mutualWorld.root.WellFormed := by decide
  have hlinks : mutualWorld.root.LinkFree := by
    refine .dir (List.forall_mem_cons.mpr ⟨.file _ _, ?_⟩)
    exact List.forall_mem_singleton.mpr (.file _ _)
  have habs : Path.isAbsolute ⟨"/s.json"⟩ = true := by decide
  have hopen := Specification.openAt_mutualWorld
  obtain ⟨-, hruns⟩ := searchReachable_ends hw hlinks habs hopen
    (Specification.current_openAt hopen) "D"
  obtain ⟨hsearch, -, ⟨ls, hls, hdistinct⟩, -⟩ := hruns _ _ searchRun_mutualWorld
  exact ⟨hw, hlinks, habs, hopen, _, ls, hsearch, hls, hdistinct⟩

end ClientRegen
