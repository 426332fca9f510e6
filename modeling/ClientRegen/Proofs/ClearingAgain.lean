import ClientRegen.Proofs.ClearReport
import ClientRegen.Proofs.FileTree.Ways

/-!
# Clearing again

When some of the entries are gone already that clearing may remove, clearing
ends in the same tree.  What is protected depends on entries on the list alone,
and those are protected themselves, so it does not change when others go
(`PartlyCleared.unprotected_iff`).  The state that an interrupted run leaves is
such a tree, and so is the cleared one.

The directory has to be found again by its path.  A path may lead through an
entry that clearing removes, and leads nowhere then (`clear_loses_directory`).
-/

namespace ClientRegen

variable {ignored : List String} {w w' v : World} {p : Path} {k m l r : Location}
  {es : List (String × Entry)} {report : ClearReport} {gone : Location → Prop}
  {root root' mid : Entry} {done : List Change}

/-! ## What is protected -/

/-- Around an entry there are entries up to the root. -/
theorem isSome_at?_above (hpre : k <+: m) (hm : (root.at? m).isSome) : (root.at? k).isSome := by
  obtain ⟨s, rfl⟩ := hpre
  rw [Entry.at?_append] at hm
  cases hk : root.at? k with
  | none => simp [hk] at hm
  | some x => rfl

/-- What is in an entry that is not protected is not protected either. -/
theorem Unprotected.of_above (h : Unprotected ignored w p k) (hpre : k <+: m)
    (hm : (w.root.at? m).isSome) : Unprotected ignored w p m := by
  obtain ⟨l, es, r, hdir, hr, rfl, hgone⟩ := h
  obtain ⟨s, rfl⟩ := hpre
  rw [List.append_assoc] at hm ⊢
  refine ⟨l, es, r ++ s, hdir, by simp [hr], rfl, fun hstays => hgone ?_⟩
  rcases hstays with ⟨a, ha, hpre, hmem⟩ | ⟨t, ht, hsome, hmem⟩
  · rcases List.prefix_or_prefix_of_prefix hpre (List.prefix_append r s) with hbefore | hbelow
    · exact Or.inl ⟨a, ha, hbefore, hmem⟩
    · -- the entry on the list is in the one that goes
      obtain ⟨t, rfl⟩ := hbelow
      by_cases ht : t = []
      · subst ht
        rw [List.append_nil] at hmem
        exact Or.inl ⟨r, hr, List.prefix_rfl, hmem⟩
      · have hthere : (w.root.at? (l ++ (r ++ t))).isSome :=
          isSome_at?_above (List.prefix_append_right_inj l |>.mpr hpre) hm
        exact Or.inr ⟨t, ht, hthere, hmem⟩
  · exact Or.inr ⟨s ++ t, by simp [ht], by simpa using hsome, by simpa using hmem⟩

/-- An entry on the list is protected. -/
theorem not_unprotected_of_mem (hdir : w.directory? p = some (l, es)) (hr : r ≠ [])
    (hmem : pathBelow r ∈ ignored) : ¬ Unprotected ignored w p (l ++ r) := by
  intro h
  obtain ⟨r', -, heq, hgone⟩ := (unprotected_iff_of_directory? hdir).mp h
  rw [List.append_cancel_left_eq] at heq
  exact hgone (Or.inl ⟨r, hr, heq ▸ List.prefix_rfl, hmem⟩)

/-- An entry of the directory that holds nothing is not protected unless it is
on the list. -/
theorem unprotected_of_empty {n : String} {x : Entry} (hdir : w.directory? p = some (l, es))
    (hat : w.root.at? (l ++ [n]) = some x) (hentries : x.entries = [])
    (hmem : pathBelow [n] ∉ ignored) : Unprotected ignored w p (l ++ [n]) := by
  refine ⟨l, es, [n], hdir, by simp, rfl, ?_⟩
  rintro (⟨a, ha, hpre, hlisted⟩ | ⟨s, hs, hsome, -⟩)
  · obtain ⟨m, a, rfl⟩ := List.exists_cons_of_ne_nil ha
    obtain ⟨rfl, hnil⟩ := List.cons_prefix_cons.mp hpre
    rw [List.prefix_nil.mp hnil] at hlisted
    exact hmem hlisted
  · obtain ⟨m, s, rfl⟩ := List.exists_cons_of_ne_nil hs
    rw [← List.append_assoc, Entry.at?_append, hat, Option.bind_some, Entry.at?_cons,
      hentries] at hsome
    cases hsome

/-! ## A world that is partly cleared -/

/-- A world from which some entries are gone that are not protected. -/
structure PartlyCleared (ignored : List String) (w : World) (p : Path) (w' : World) : Prop where
  /-- The tree is well-formed. -/
  wellFormed : w'.root.WellFormed
  /-- What is protected is as it was. -/
  nodeAt?_eq : ∀ k, ¬ Unprotected ignored w p k → w'.root.nodeAt? k = w.root.nodeAt? k
  /-- What is left is as it was. -/
  nodeAt?_of_some : ∀ k node, w'.root.nodeAt? k = some node → w.root.nodeAt? k = some node
  /-- The working directory stays. -/
  cwd_eq : w'.cwd = w.cwd
  /-- The environment stays. -/
  env_eq : w'.env = w.env

/-- There is an entry just where there is a node. -/
theorem isSome_at?_iff : (root.at? k).isSome ↔ (root.nodeAt? k).isSome := by
  rw [Entry.nodeAt?, Option.isSome_map]

/-- Entries that are not protected may go, each with everything in it. -/
theorem partlyCleared_of_without (hgone : ∀ k, gone k → Unprotected ignored w p k)
    (h : w.root.Without gone root') : PartlyCleared ignored w p (w.withRoot root') := by
  refine ⟨h.wellFormed, fun k hk => ?_, fun k node => h.nodeAt?_of_some, rfl, rfl⟩
  cases hold : w.root.nodeAt? k with
  | none =>
      cases hnew : root'.nodeAt? k with
      | none => exact hnew
      | some node =>
          rw [h.nodeAt?_of_some hnew] at hold
          cases hold
  | some node =>
      have hout : ∀ l, gone l → ¬ l <+: k := by
        intro l hl hpre
        exact hk ((hgone l hl).of_above hpre (isSome_at?_iff.mpr (by rw [hold]; rfl)))
      exact (h.nodeAt?_eq k hout).trans hold

/-- What is cleared is partly cleared. -/
theorem ClearedAt.partlyCleared (h : ClearedAt ignored w p w') : PartlyCleared ignored w p w' := by
  refine ⟨h.wellFormed, h.nodeAt?_eq, fun k node hk => ?_, h.cwd_eq, h.env_eq⟩
  by_cases hgone : Unprotected ignored w p k
  · rw [h.nodeAt?_eq_none k hgone] at hk
    cases hk
  · rw [← h.nodeAt?_eq k hgone, hk]

/-- **The state that an interrupted run leaves** is partly cleared. -/
theorem partlyCleared_of_trace (hw : w.root.WellFormed)
    (h : clear w p ignored = .ok (report, v)) (hdone : done <+: clearSteps w p ignored)
    (hmid : RemovalTrace w.root done mid) : PartlyCleared ignored w p (w.withRoot mid) := by
  refine partlyCleared_of_without ?_ (hmid.without hw)
  rintro k ⟨c, hc, hk⟩
  have hthere := hmid.isSome_of_mem hw hc hk
  have hend : v.root.nodeAt? k = none :=
    ((clear_trace hw h).without hw).nodeAt?_eq_none k k ⟨c, hdone.subset hc, hk⟩ List.prefix_rfl
  by_contra hprotected
  rw [← (clearedAt_of_clear hw h).nodeAt?_eq k hprotected, hend] at hthere
  cases hthere

namespace PartlyCleared

/-- The directory is found where it was, if its path leads through nothing that
clearing may remove. -/
theorem exists_directory? (h : PartlyCleared ignored w p w')
    (hdir : w.directory? p = some (l, es))
    (hway : ∀ k ∈ w.passedBy p, ¬ Unprotected ignored w p k) :
    ∃ es', w'.directory? p = some (l, es') := by
  have hlocate := directory?_eq_some_iff.mp hdir
  obtain ⟨e', hlocate', hnode⟩ := locate_of_passed hlocate h.cwd_eq fun k hk node hold =>
    (h.nodeAt?_eq k (hway k hk)).trans hold
  cases e' with
  | file | link => cases hnode
  | dir es' => exact ⟨es', directory?_eq_some_iff.mpr hlocate'⟩

/-- The same entries survive in what is partly cleared. -/
theorem survives_iff (h : PartlyCleared ignored w p w') (hdir : w.directory? p = some (l, es)) :
    Survives ignored w'.root l r ↔ Survives ignored w.root l r := by
  refine or_congr_right (exists_congr fun s => and_congr_right fun hs =>
    and_congr_left fun hmem => ?_)
  have hprotected : ¬ Unprotected ignored w p (l ++ (r ++ s)) :=
    not_unprotected_of_mem hdir (by simp [hs]) hmem
  rw [isSome_at?_iff, isSome_at?_iff, h.nodeAt?_eq _ hprotected]

/-- **What is protected does not change.** -/
theorem unprotected_iff (h : PartlyCleared ignored w p w') (hdir : w.directory? p = some (l, es))
    (hway : ∀ k ∈ w.passedBy p, ¬ Unprotected ignored w p k) :
    Unprotected ignored w' p k ↔ Unprotected ignored w p k := by
  obtain ⟨es', hdir'⟩ := h.exists_directory? hdir hway
  rw [unprotected_iff_of_directory? hdir, unprotected_iff_of_directory? hdir']
  exact exists_congr fun r => and_congr_right fun _ => and_congr_right fun _ =>
    not_congr (h.survives_iff hdir)

/-- The same entries are listed. -/
theorem topListed_iff (h : PartlyCleared ignored w p w') (hdir : w.directory? p = some (l, es))
    (hway : ∀ k ∈ w.passedBy p, ¬ Unprotected ignored w p k) :
    TopListed ignored w' p r ↔ TopListed ignored w p r := by
  obtain ⟨es', hdir'⟩ := h.exists_directory? hdir hway
  have hsome : r ≠ [] → pathBelow r ∈ ignored →
      ((w'.root.at? (l ++ r)).isSome ↔ (w.root.at? (l ++ r)).isSome) := by
    intro hr hmem
    rw [isSome_at?_iff, isSome_at?_iff, h.nodeAt?_eq _ (not_unprotected_of_mem hdir hr hmem)]
  rw [topListed_iff_of_directory? hdir, topListed_iff_of_directory? hdir']
  refine and_congr_right fun hr => and_congr_left fun hlisted => ?_
  exact hsome hr hlisted.1

end PartlyCleared

/-- A path that is spelled as the location of a directory leads through nothing
that clearing may remove. -/
theorem not_unprotected_of_spells (h : p.Spells l) (hat : w.root.at? l = some (.dir es))
    (hk : k ∈ w.passedBy p) : ¬ Unprotected ignored w p k := by
  have hdir : w.directory? p = some (l, es) :=
    directory?_eq_some_iff.mpr (locate_of_spells h hat (by simp) true)
  have hpre : k <+: l := by
    unfold World.passedBy at hk
    rw [h.isAbsolute_eq, if_pos rfl, h.stepsOf_eq] at hk
    have hstart : w.root.at? ([] ++ l) = some (.dir es) := hat
    exact prefix_of_mem_passed hstart h.isStep hk
  intro hgone
  obtain ⟨r, hr, rfl, -⟩ := (unprotected_iff_of_directory? hdir).mp hgone
  exact hr (by simpa using hpre.length_le)

/-! ## Clearing what is left -/

/-- A world is known by its nodes, its working directory and its environment. -/
theorem World.eq_of_nodeAt?_eq (hw : w.root.WellFormed) (hw' : w'.root.WellFormed)
    (hnode : ∀ k, w.root.nodeAt? k = w'.root.nodeAt? k) (hcwd : w.cwd = w'.cwd)
    (henv : w.env = w'.env) : w = w' := by
  have hroot := hw.ext hw' hnode
  cases w
  cases w'
  simp_all

/-- **Clearing ends in the same world** whatever is gone already, and lists the
same entries. -/
theorem clear_of_partlyCleared (hw : w.root.WellFormed)
    (h : clear w p ignored = .ok (report, v))
    (hway : ∀ k ∈ w.passedBy p, ¬ Unprotected ignored w p k)
    (hpart : PartlyCleared ignored w p w') :
    ∃ report', clear w' p ignored = .ok (report', v) ∧ report'.kept = report.kept := by
  cases hdir : w.directory? p with
  | none =>
      have heq : w' = w := World.eq_of_nodeAt?_eq hpart.wellFormed hw
        (fun k => hpart.nodeAt?_eq k (not_unprotected_of_directory? hdir)) hpart.cwd_eq
        hpart.env_eq
      exact ⟨report, heq ▸ h, rfl⟩
  | some found =>
      obtain ⟨l, es⟩ := found
      obtain ⟨es', hdir'⟩ := hpart.exists_directory? hdir hway
      obtain ⟨report', v', h'⟩ : ∃ report' v', clear w' p ignored = .ok (report', v') := by
        rw [clear, hdir']
        exact ⟨_, _, rfl⟩
      have hcleared := clearedAt_of_clear hw h
      have hcleared' := clearedAt_of_clear hpart.wellFormed h'
      have heq : v' = v := by
        refine World.eq_of_nodeAt?_eq hcleared'.wellFormed hcleared.wellFormed (fun k => ?_)
          (by rw [hcleared'.cwd_eq, hpart.cwd_eq, hcleared.cwd_eq])
          (by rw [hcleared'.env_eq, hpart.env_eq, hcleared.env_eq])
        have hiff := hpart.unprotected_iff (k := k) hdir hway
        by_cases hk : Unprotected ignored w p k
        · rw [hcleared.nodeAt?_eq_none k hk, hcleared'.nodeAt?_eq_none k (hiff.mpr hk)]
        · rw [hcleared.nodeAt?_eq k hk, hcleared'.nodeAt?_eq k fun hk' => hk (hiff.mp hk'),
            hpart.nodeAt?_eq k hk]
      obtain ⟨kept, hkept, hsorted, hmem⟩ := kept_clear hw h
      obtain ⟨kept', hkept', hsorted', hmem'⟩ := kept_clear hpart.wellFormed h'
      have hsame : kept' = kept := hsorted'.eq_of_mem_iff hsorted fun r => by
        rw [hmem, hmem', hpart.topListed_iff hdir hway]
      exact ⟨report', heq ▸ h', by rw [hkept, hkept', hsame]⟩

/-- A trace that leads back to its tree removes nothing. -/
theorem RemovalTrace.eq_nil {steps : List Change} (h : RemovalTrace root steps root)
    (hroot : root.WellFormed) : steps = [] := by
  cases h with
  | nil => rfl
  | @cons root x root' l steps hl hat hentries tail =>
      have hthere : (root.nodeAt? l).isSome := isSome_at?_iff.mp (by rw [hat]; rfl)
      have hgone : root.nodeAt? l = none :=
        ((RemovalTrace.cons hl hat hentries tail).without hroot).nodeAt?_eq_none l l
          ⟨_, List.mem_cons_self, removesAt_removal.mpr rfl⟩ List.prefix_rfl
      rw [hgone] at hthere
      cases hthere

/-- A cleared directory is cleared again by removing nothing. -/
theorem clear_again (hw : w.root.WellFormed) (h : clear w p ignored = .ok (report, v))
    (hway : ∀ k ∈ w.passedBy p, ¬ Unprotected ignored w p k) :
    clear v p ignored = .ok (⟨0, 0, report.kept⟩, v) := by
  have hcleared := clearedAt_of_clear hw h
  obtain ⟨report', h', hkept⟩ := clear_of_partlyCleared hw h hway hcleared.partlyCleared
  have hnone := (clear_trace hcleared.wellFormed h').eq_nil hcleared.wellFormed
  obtain ⟨hfiles, hdirs⟩ := counts_clear h'
  rw [hnone] at hfiles hdirs
  obtain ⟨files, dirs, listed⟩ := report'
  rw [h', ← hkept]
  simp_all

/-- **Clearing converges.**  Whatever is gone already of what is not protected,
clearing ends in the same world as it does at first; so it does after a run that
was interrupted before any of its removals, and clearing once more removes
nothing and lists the same entries.  The path of the directory is one that leads
through nothing that clearing may remove. -/
theorem clear_converges (hw : w.root.WellFormed) (hp : w.exists? p = true → w.isDir p = true)
    (hway : ∀ k ∈ w.passedBy p, ¬ Unprotected ignored w p k) :
    ∃ report v, clear w p ignored = .ok (report, v) ∧
      (∀ (gone : Location → Prop) (root' : Entry), (∀ k, gone k → Unprotected ignored w p k) →
        w.root.Without gone root' →
          ∃ report', clear (w.withRoot root') p ignored = .ok (report', v)) ∧
      RemovalTrace w.root (clearSteps w p ignored) v.root ∧
      (∀ (done : List Change) (mid : Entry), done <+: clearSteps w p ignored →
        RemovalTrace w.root done mid →
          ∃ report', clear (w.withRoot mid) p ignored = .ok (report', v)) ∧
      clear v p ignored = .ok (⟨0, 0, report.kept⟩, v) := by
  obtain ⟨report, v, h⟩ : ∃ report v, clear w p ignored = .ok (report, v) := by
    unfold clear
    split
    · exact ⟨_, _, rfl⟩
    · rename_i hdir
      have habsent : ¬ w.exists? p = true := by
        intro hthere
        obtain ⟨l, es, hdir'⟩ := isDir_iff.mp (hp hthere)
        rw [hdir] at hdir'
        cases hdir'
      rw [if_neg habsent]
      exact ⟨_, _, rfl⟩
  refine ⟨report, v, h, fun gone root' hgone hroot' => ?_, clear_trace hw h,
    fun done mid hdone hmid => ?_, clear_again hw h hway⟩
  · obtain ⟨report', h', -⟩ :=
      clear_of_partlyCleared hw h hway (partlyCleared_of_without hgone hroot')
    exact ⟨report', h'⟩
  · obtain ⟨report', h', -⟩ :=
      clear_of_partlyCleared hw h hway (partlyCleared_of_trace hw h hdone hmid)
    exact ⟨report', h'⟩

/-- A directory from which a link has gone is cleared to the same world. -/
theorem clear_converges_link :
    outputWorld.root.WellFormed ∧
      (outputWorld.exists? ⟨"/out"⟩ = true → outputWorld.isDir ⟨"/out"⟩ = true) ∧
      (∀ k ∈ outputWorld.passedBy ⟨"/out"⟩, ¬ Unprotected ["a/k"] outputWorld ⟨"/out"⟩ k) ∧
      ∃ report v, clear outputWorld ⟨"/out"⟩ ["a/k"] = .ok (report, v) ∧
        (∃ report', clear (outputWorld.withRoot (outputWorld.root.remove ["out", "c"])) ⟨"/out"⟩
          ["a/k"] = .ok (report', v)) ∧
        clear v ⟨"/out"⟩ ["a/k"] = .ok (⟨0, 0, report.kept⟩, v) := by
  have hw : outputWorld.root.WellFormed := by decide
  have hspells : (⟨"/out"⟩ : Path).Spells ["out"] := by decide +kernel
  have hat : outputWorld.root.at? ["out"] = some (.dir outputEntries) := rfl
  have hlocate := locate_of_spells (w := outputWorld) hspells hat (by simp) true
  have hp : outputWorld.exists? ⟨"/out"⟩ = true → outputWorld.isDir ⟨"/out"⟩ = true := by
    intro _
    rw [World.isDir, World.entry?, World.find, hlocate]
    rfl
  have hway : ∀ k ∈ outputWorld.passedBy ⟨"/out"⟩,
      ¬ Unprotected ["a/k"] outputWorld ⟨"/out"⟩ k := fun k hk =>
    not_unprotected_of_spells hspells hat hk
  obtain ⟨report, v, h, hgone, -, -, hagain⟩ := clear_converges hw hp hway
  refine ⟨hw, hp, hway, report, v, h, hgone (· = ["out", "c"]) _ ?_ ?_, hagain⟩
  · rintro _ rfl
    have hdir : outputWorld.directory? ⟨"/out"⟩ = some (["out"], outputEntries) := by
      rw [World.directory?, hlocate]
    exact unprotected_of_empty hdir (n := "c") rfl rfl (by decide +kernel)
  · exact Entry.without_remove hw (by simp) rfl

/-! ## A directory that is not found again -/

/-- A directory with a file on the list, another one and an empty directory. -/
def detourEntries : List (String × Entry) :=
  [("a", .file ⟨#[1]⟩ false), ("keep", .file ⟨#[2]⟩ false), ("x", .dir [])]

/-- A world with this directory. -/
def detourWorld : World :=
  ⟨.dir [("out", .dir detourEntries)], [], []⟩

/-- The path that leads through the empty directory and back. -/
def detour : Path := ⟨"/out/x/.."⟩

/-- The detour is walked down two names and up again. -/
theorem locate_detour (w : World) (follow : Bool) :
    w.locate detour follow = walk w.root follow linkLimit [] (["out", "x"] ++ [".."]) := by
  have hsteps : stepsOf detour.text = ["out", "x"] ++ [".."] := by decide
  have habsolute : detour.isAbsolute = true := by decide
  rw [World.locate, if_neg (by decide), if_neg (by decide),
    if_neg (by decide), habsolute, if_pos rfl, hsteps]

/-- The detour leads to the directory while the empty directory is there. -/
theorem directory?_detour (hx : w.root.at? ["out", "x"] = some (.dir []))
    (hout : w.root.at? ["out"] = some (.dir es)) : w.directory? detour = some (["out"], es) := by
  have hnames : ∀ n ∈ ["out", "x"], IsStep n := by decide
  have hup : walk w.root true linkLimit ["out", "x"] [".."] =
      .ok (.present ["out"] (.dir es)) := by
    rw [walk, hx]
    simp only [if_neg (by decide : ¬ ".." = "."), if_true]
    change walk w.root true linkLimit ["out"] [] = _
    rw [walk, hout]
  rw [World.directory?, locate_detour, walk_append_of_dir hx hnames, List.nil_append, hup]

/-- It leads nowhere without that directory. -/
theorem clear_detour (hout : w.root.at? ["out"] = some (.dir es)) (hx : es.lookup "x" = none)
    (ignored : List String) : clear w detour ignored = .ok (.empty, w) := by
  have hnames : ∀ n ∈ ["out"], IsStep n := by decide
  have hlocate : w.locate detour true = .error .notFound := by
    rw [locate_detour, List.cons_append, ← List.singleton_append,
      walk_append_of_dir hout hnames, List.nil_append]
    exact walk_missing hout (by decide) hx (by simp)
  have hdir : w.directory? detour = none := by rw [World.directory?, hlocate]
  have habsent : w.exists? detour = false := by
    rw [World.exists?, World.entry?, World.find, hlocate]
  rw [clear, hdir, habsent]
  rfl

/-- A directory is lost by a path through an entry that clearing removes.
Clearing again finds nothing and lists nothing; where the entry is gone already,
nothing is cleared at all. -/
theorem clear_loses_directory :
    ∃ v, clear detourWorld detour ["keep"] = .ok (⟨1, 1, ["keep"]⟩, v) ∧
      clear v detour ["keep"] = .ok (⟨0, 0, []⟩, v) ∧
      Unprotected ["keep"] detourWorld detour ["out", "x"] ∧
      ∃ report u, clear (detourWorld.withRoot (detourWorld.root.remove ["out", "x"])) detour
        ["keep"] = .ok (report, u) ∧ u.root ≠ v.root := by
  have hdir : detourWorld.directory? detour = some (["out"], detourEntries) :=
    directory?_detour rfl rfl
  have hclear : clear detourWorld detour ["keep"] = .ok (⟨1, 1, ["keep"]⟩,
      detourWorld.withRoot (.dir [("out", .dir [("keep", .file ⟨#[2]⟩ false)])])) := by
    rw [clear, hdir]
    rfl
  have hout : (detourWorld.withRoot (detourWorld.root.remove ["out", "x"])).root.at? ["out"] =
      some (.dir [("a", .file ⟨#[1]⟩ false), ("keep", .file ⟨#[2]⟩ false)]) :=
    rfl
  refine ⟨_, hclear, clear_detour rfl rfl _,
    unprotected_of_empty hdir (n := "x") rfl rfl (by decide +kernel), .empty, _,
    clear_detour hout rfl _, ?_⟩
  intro heq
  have hthere := congrArg (fun e => (e.at? ["out", "a"]).isSome) heq
  cases hthere

end ClientRegen
