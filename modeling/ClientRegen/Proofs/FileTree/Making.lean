import ClientRegen.Proofs.FileTree.Locating

/-!
# Making directories

A path that leads to a vacant name leads to a name that a directory can take up
(`exists_dir_of_vacant`), so making a directory there adds it and changes
nothing else (`dirsAdded_put`).  Making a directory with those around it does
this several times at most: it may add directories where nothing stood, and
leaves every entry that is there as it is (`dirsAdded_makeDirAll`).
-/

namespace ClientRegen

variable {root root' e : Entry} {follow : Bool} {links : Nat} {here l k : Location}
  {steps : List String} {w w' w'' : World} {p : Path} {es : List (String × Entry)}
  {n text : String} {node : TreeNode}

/-! ## Names on a path -/

/-- A step of a path is a text without slashes. -/
def IsPathStep (step : String) : Prop :=
  step ≠ "" ∧ '/' ∉ step.toList

instance (step : String) : Decidable (IsPathStep step) :=
  inferInstanceAs (Decidable (_ ∧ _))

/-- The steps of a path are texts between slashes. -/
theorem isPathStep_of_mem_stepsOf {step : String} (h : step ∈ stepsOf text) : IsPathStep step := by
  have hpieces : ∀ step ∈ ((Text.splitAt '/' text.toList).filter (· != [])).map String.ofList,
      IsPathStep step := by
    intro step hstep
    obtain ⟨piece, hpiece, rfl⟩ := List.mem_map.mp hstep
    obtain ⟨hpiece, hne⟩ := List.mem_filter.mp hpiece
    exact ⟨by simpa using hne, by simpa using sep_notMem_of_mem_splitAt hpiece⟩
  unfold stepsOf at h
  dsimp only at h
  split at h
  · rcases List.mem_append.mp h with h | h
    · exact hpieces step h
    · rw [List.mem_singleton.mp h]
      decide
  · exact hpieces step h

/-- A walk that finds a name vacant has found a directory that can take it up. -/
theorem exists_dir_of_walk (h : walk root follow links here steps = .ok (.vacant l n))
    (hsteps : ∀ step ∈ steps, IsPathStep step) :
    ∃ es, root.at? l = some (.dir es) ∧ es.lookup n = none ∧ IsEntryName n := by
  fun_induction walk root follow links here steps with
  | case6 links here rest es hhere ih => exact ih h (List.forall_mem_cons.mp hsteps).2
  | case7 links here rest es hhere hdot ih => exact ih h (List.forall_mem_cons.mp hsteps).2
  | case9 links here step es hhere hdot hdots hlimit hstep =>
      cases h
      obtain ⟨hempty, hslash⟩ := (List.forall_mem_cons.mp hsteps).1
      exact ⟨es, hhere, hstep, hempty, hslash, hdot, hdots⟩
  | case13 links here step rest es hhere hdot hdots hlimit es' hstep ih =>
      exact ih h (List.forall_mem_cons.mp hsteps).2
  | case16 here step rest es hhere hdot hdots hlimit target hstep hend links ih =>
      refine ih h (List.forall_mem_append.mpr ⟨fun step hstep => ?_, ?_⟩)
      · exact isPathStep_of_mem_stepsOf hstep
      · exact (List.forall_mem_cons.mp hsteps).2
  | _ => cases h

/-- **A vacant name can be taken up.** -/
theorem exists_dir_of_vacant (h : w.locate p follow = .ok (.vacant l n)) :
    ∃ es, w.root.at? l = some (.dir es) ∧ es.lookup n = none ∧ IsEntryName n :=
  exists_dir_of_walk (locate_eq_ok_iff.mp h).2.2.2 fun _ hstep => isPathStep_of_mem_stepsOf hstep

/-! ## A new entry -/

namespace Entry

variable {y : Entry} {change : Option Entry → Option Entry}

/-- A directory that takes up a vacant name holds the new entry under it. -/
theorem replaced_alter_vacant (h : (Entry.dir es).WellFormed) (hn : es.lookup n = none)
    (hname : IsEntryName n) (hy : change none = some y) (hwf : y.WellFormed) :
    Replaced (.dir es) [n] y (.dir (alter n change es)) := by
  cases h with
  | dir hordered hnames hentry =>
      have hlookup := lookup_alter hordered n change
      have hsorted := hordered.alter n change
      refine ⟨.dir hsorted (fun p hp => ?_) (fun p hp => ?_), fun r => ?_, fun k hk => ?_⟩
      · rcases mem_alter hp with hp | hp
        · exact hnames p hp
        · exact hp ▸ hname
      · have hfound := hsorted.lookup_eq hp
        rw [hlookup] at hfound
        by_cases hpn : p.1 = n
        · rw [if_pos hpn, hn, hy, Option.some.injEq] at hfound
          exact hfound ▸ hwf
        · rw [if_neg hpn] at hfound
          exact hentry _ (mem_of_lookup hfound)
      · rw [List.singleton_append, at?_cons, entries, hlookup, if_pos rfl, hn, hy,
          Option.bind_some]
      · cases k with
        | nil => rfl
        | cons m k =>
            have hm : m ≠ n := by
              rintro rfl
              exact hk (List.cons_prefix_cons.mpr ⟨rfl, List.nil_prefix⟩)
            rw [nodeAt?_dir_cons, nodeAt?_dir_cons, hlookup, if_neg hm]

/-- **A new entry is seen where it is put and nowhere else.** -/
theorem replaced_update_vacant (h : e.WellFormed) (hl : e.at? l = some (.dir es))
    (hn : es.lookup n = none) (hname : IsEntryName n) (hy : change none = some y)
    (hwf : y.WellFormed) : Replaced e (l ++ [n]) y (e.update change (l ++ [n])) := by
  induction l generalizing e with
  | nil =>
      rw [at?_nil, Option.some.injEq] at hl
      subst hl
      exact replaced_alter_vacant h hn hname hy hwf
  | cons m l ih =>
      obtain ⟨es', d, rfl, hd, hl⟩ := exists_dir_of_at?_cons hl
      have hr := ih (h.of_lookup hd).2 hl
      rw [List.cons_append, update.eq_3 _ _ _ _ (by simp)]
      exact hr.alter h hd rfl

end Entry

/-! ## Directories that are added -/

/-- A world that has more directories, and everything else as it was. -/
structure DirsAdded (w w' : World) : Prop where
  /-- The tree is well-formed. -/
  wellFormed : w'.root.WellFormed
  /-- What stands somewhere stays there, and where nothing stood there may be a
  directory. -/
  nodeAt?_eq : ∀ k, w'.root.nodeAt? k = w.root.nodeAt? k ∨
    w.root.nodeAt? k = none ∧ w'.root.nodeAt? k = some .dir
  /-- The working directory stays. -/
  cwd_eq : w'.cwd = w.cwd
  /-- The environment stays. -/
  env_eq : w'.env = w.env

namespace DirsAdded

/-- Nothing has to be added. -/
theorem refl (h : w.root.WellFormed) : DirsAdded w w :=
  ⟨h, fun _ => Or.inl rfl, rfl, rfl⟩

/-- Directories can be added to added ones. -/
theorem trans (h : DirsAdded w w') (h' : DirsAdded w' w'') : DirsAdded w w'' := by
  refine ⟨h'.wellFormed, fun k => ?_, h'.cwd_eq.trans h.cwd_eq, h'.env_eq.trans h.env_eq⟩
  rcases h'.nodeAt?_eq k with hk' | ⟨hnone, hdir⟩
  · rcases h.nodeAt?_eq k with hk | ⟨hnone, hdir⟩
    · exact Or.inl (hk'.trans hk)
    · exact Or.inr ⟨hnone, hk'.trans hdir⟩
  · rcases h.nodeAt?_eq k with hk | ⟨hnone', hdir'⟩
    · exact Or.inr ⟨hk ▸ hnone, hdir⟩
    · rw [hdir'] at hnone
      cases hnone

/-- What stands somewhere stays there. -/
theorem nodeAt?_of_some (h : DirsAdded w w') (hk : w.root.nodeAt? k = some node) :
    w'.root.nodeAt? k = some node := by
  rcases h.nodeAt?_eq k with heq | ⟨hnone, -⟩
  · exact heq.trans hk
  · rw [hk] at hnone
    cases hnone

/-- Nothing is added but directories. -/
theorem nodeAt?_of_ne_dir (h : DirsAdded w w') (hk : w'.root.nodeAt? k = some node)
    (hne : node ≠ .dir) : w.root.nodeAt? k = some node := by
  rcases h.nodeAt?_eq k with heq | ⟨-, hdir⟩
  · exact heq.symm.trans hk
  · rw [hdir, Option.some.injEq] at hk
    exact absurd hk.symm hne

end DirsAdded

/-- A new directory under a vacant name is added. -/
theorem dirsAdded_put (h : w.root.WellFormed) (hl : w.root.at? l = some (.dir es))
    (hn : es.lookup n = none) (hname : IsEntryName n) :
    DirsAdded w (w.withRoot (w.root.put (l ++ [n]) (.dir []))) := by
  have hput : Entry.Replaced w.root (l ++ [n]) (.dir []) (w.root.put (l ++ [n]) (.dir [])) :=
    Entry.replaced_update_vacant h hl hn hname rfl (.dir .nil (by simp) (by simp))
  refine ⟨hput.wellFormed, fun k => ?_, rfl, rfl⟩
  by_cases hk : l ++ [n] <+: k
  · obtain ⟨r, rfl⟩ := hk
    have hnone : w.root.nodeAt? (l ++ [n] ++ r) = none := by
      rw [List.append_assoc, Entry.nodeAt?_append hl, List.singleton_append,
        Entry.nodeAt?_dir_cons, hn, Option.bind_none]
    have hnew : (w.root.put (l ++ [n]) (.dir [])).nodeAt? (l ++ [n] ++ r) =
        (Entry.dir []).nodeAt? r := by
      rw [Entry.nodeAt?, hput.at?_append]
      rfl
    cases r with
    | nil => exact Or.inr ⟨hnone, hnew⟩
    | cons m r => exact Or.inl (hnew.trans hnone.symm)
  · exact Or.inl (hput.nodeAt?_eq k hk)

/-- Making a directory adds it. -/
theorem dirsAdded_makeDir (hw : w.root.WellFormed) (h : w.makeDir p = .ok w') :
    DirsAdded w w' := by
  unfold World.makeDir World.make at h
  split at h
  · rename_i l n hvacant
    cases h
    obtain ⟨es, hl, hn, hname⟩ := exists_dir_of_vacant hvacant
    exact dirsAdded_put hw hl hn hname
  · cases h
  · cases h

/-- A path is made after those around it that are missing, and all of this adds directories only. -/
theorem dirsAdded_makeDirs {ps : List Path} (hw : w.root.WellFormed)
    (h : w.makeDirs ps = .ok w') : DirsAdded w w' := by
  induction ps generalizing w w' with
  | nil => cases h
  | cons p around ih =>
      rw [World.makeDirs] at h
      split at h
      · cases h
        exact .refl hw
      · split at h
        · rename_i made hmade
          cases h
          exact dirsAdded_makeDir hw hmade
        · -- the directories around it are missing and are made first
          split at h
          · cases h
          · rename_i between haround
            have hbetween := ih hw haround
            split at h
            · rename_i made hmade
              cases h
              exact hbetween.trans (dirsAdded_makeDir hbetween.wellFormed hmade)
            · split at h
              · cases h
                exact hbetween
              · cases h
        · split at h
          · cases h
            exact .refl hw
          · cases h

/-- **Making a directory with those around it adds directories and changes
nothing that is there.** -/
theorem dirsAdded_makeDirAll (hw : w.root.WellFormed) (h : w.makeDirAll p = .ok w') :
    DirsAdded w w' :=
  dirsAdded_makeDirs hw h

end ClientRegen
