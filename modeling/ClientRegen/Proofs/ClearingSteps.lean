import ClientRegen.Proofs.Clearing
import ClientRegen.Proofs.FileTree.Removing

/-!
# Clearing, one removal after another

Clearing removes one entry at a time: what is in a directory in the order of
names, then the directory if nothing is left in it.  `clearSteps` lists these
removals.  They can be done in this order, each on what the ones before have
left, and lead to the cleared tree (`clear_trace`); the report counts them
(`counts_clear`).
-/

namespace ClientRegen

variable {ignored : List String} {e root : Entry} {es : List (String × Entry)}
  {n relative : String} {l front : Location} {w w' : World} {p : Path} {report : ClearReport}

mutual

/-- The removals that clear an entry. -/
def entrySteps (ignored : List String) (l : Location) (relative : String) : Entry → List Change
  | .file _ _ => if isIgnored relative ignored then [] else [.removeLeaf l]
  | .link _ => if isIgnored relative ignored then [] else [.removeLeaf l]
  | .dir es =>
    if isIgnored relative ignored then []
    else
      entriesSteps ignored l relative es ++
        if (clearEntries ignored relative es).1.isEmpty then [.removeDir l] else []

/-- The removals that clear the entries of a directory. -/
def entriesSteps (ignored : List String) (l : Location) (directory : String) :
    List (String × Entry) → List Change
  | [] => []
  | (name, e) :: es =>
    entrySteps ignored (l ++ [name]) (relativePath directory name) e ++
      entriesSteps ignored l directory es

end

/-- The removals that clear the directory a path leads to, in their order. -/
def clearSteps (w : World) (p : Path) (ignored : List String) : List Change :=
  match w.directory? p with
  | some (l, es) => entriesSteps ignored l "" es
  | none => []

/-! ## The order in which entries go -/

/-- What is left of a directory that is not on the list. -/
theorem clearEntry_dir_fst (h : isIgnored relative ignored = false) :
    (clearEntry ignored relative (.dir es)).1 =
      if (clearEntries ignored relative es).1.isEmpty then none
      else some (.dir (clearEntries ignored relative es).1) := by
  rw [clearEntry, h, if_neg Bool.false_ne_true]
  split
  · rename_i report hclear
    rw [hclear]
    rfl
  · rename_i kept report hnil hclear
    rw [hclear, if_neg (by simpa using hnil)]

/-- Entries go one after another if each of them goes by itself; those before
them are done. -/
theorem trace_entriesSteps (done : List (String × Entry)) (relative : String)
    (hsteps : ∀ p ∈ es, ∀ (root : Entry) (front : Location) (relative : String),
      root.WellFormed → root.at? (front ++ [p.1]) = some p.2 →
      RemovalTrace root (entrySteps ignored (front ++ [p.1]) relative p.2)
        (root.update (fun _ => (clearEntry ignored relative p.2).1) (front ++ [p.1])))
    (hroot : root.WellFormed) (hl : root.at? l = some (.dir (done ++ es))) :
    RemovalTrace root (entriesSteps ignored l relative es)
      (root.put l (.dir (done ++ (clearEntries ignored relative es).1))) := by
  induction es generalizing done root with
  | nil =>
      rw [entriesSteps, clearEntries, Entry.put_self hroot hl]
      exact .nil root
  | cons q es ih =>
      obtain ⟨n, e⟩ := q
      rw [List.forall_mem_cons] at hsteps
      have hordered : Ordered (done ++ (n, e) :: es) := by
        cases hroot.of_at? hl with
        | dir hordered => exact hordered
      have hlookup : (done ++ (n, e) :: es).lookup n = some e := hordered.lookup_eq (by simp)
      have htrace := hsteps.1 root l (relativePath relative n) hroot (at?_concat hl hlookup)
      -- the entries that come later are still as they were
      rw [Entry.update_concat hroot hl, Entry.alter_append_cons hordered] at htrace
      have hmid := htrace.wellFormed hroot
      have hat : ∀ kept, (root.put l (.dir kept)).at? l = some (.dir kept) := fun _ =>
        Entry.at?_put hroot hl
      have hlater := ih _ hsteps.2 hmid (hat _)
      have hend := (hlater.wellFormed hmid).of_at? (Entry.at?_put hmid (hat _))
      rw [Entry.put_put hroot hl (hmid.of_at? (hat _)) hend] at hlater
      have hkept : (clearEntries ignored relative ((n, e) :: es)).1 =
          ((clearEntry ignored (relativePath relative n) e).1.map fun x => (n, x)).toList ++
            (clearEntries ignored relative es).1 := by
        rw [clearEntries]
      rw [entriesSteps, hkept, ← List.append_assoc]
      exact htrace.append hlater

/-- An entry on the list stays as it is. -/
theorem clearEntry_of_ignored (h : isIgnored relative ignored = true) :
    clearEntry ignored relative e = (some e, ⟨0, 0, [relative]⟩) := by
  cases e <;> rw [clearEntry, h, if_pos rfl]

theorem trace_of_ignored (hroot : root.WellFormed) (hat : root.at? l = some e)
    (h : isIgnored relative ignored = true) :
    RemovalTrace root (entrySteps ignored l relative e)
      (root.update (fun _ => (clearEntry ignored relative e).1) l) := by
  have hself := Entry.put_self hroot hat
  rw [Entry.put] at hself
  have hnone : entrySteps ignored l relative e = [] := by
    cases e <;> rw [entrySteps, h, if_pos rfl]
  rw [hnone, clearEntry_of_ignored h, hself]
  exact .nil root

/-- **An entry goes step by step** as far as it goes at all. -/
theorem trace_entrySteps (h : e.WellFormed) (hroot : root.WellFormed)
    (hat : root.at? (front ++ [n]) = some e) :
    RemovalTrace root (entrySteps ignored (front ++ [n]) relative e)
      (root.update (fun _ => (clearEntry ignored relative e).1) (front ++ [n])) := by
  have hne : front ++ [n] ≠ [] := by simp
  induction h generalizing root front n relative with
  | file content executable =>
      cases hon : isIgnored relative ignored with
      | true => exact trace_of_ignored hroot hat hon
      | false =>
          rw [entrySteps, clearEntry, hon, if_neg Bool.false_ne_true, if_neg Bool.false_ne_true]
          exact .cons hne hat rfl (.nil _)
  | link target =>
      cases hon : isIgnored relative ignored with
      | true => exact trace_of_ignored hroot hat hon
      | false =>
          rw [entrySteps, clearEntry, hon, if_neg Bool.false_ne_true, if_neg Bool.false_ne_true]
          exact .cons hne hat rfl (.nil _)
  | @dir es hordered hname hentry ih =>
      cases hon : isIgnored relative ignored with
      | true => exact trace_of_ignored hroot hat hon
      | false =>
          have htrace := trace_entriesSteps [] relative
            (fun p hp _ _ _ hroot hp' => ih p hp hroot hp' (by simp)) hroot hat
          rw [List.nil_append] at htrace
          rw [entrySteps, hon, if_neg Bool.false_ne_true, clearEntry_dir_fst hon]
          by_cases hempty : (clearEntries ignored relative es).1.isEmpty
          · rw [if_pos hempty, if_pos hempty]
            rw [List.isEmpty_iff.mp hempty] at htrace
            have hnone : Entry.WellFormed (.dir []) := .dir .nil (by simp) (by simp)
            refine htrace.append (.cons hne (Entry.at?_put hroot hat) rfl ?_)
            rw [Entry.remove_put hroot hne hat hnone]
            exact .nil _
          · rw [if_neg hempty, if_neg hempty, List.append_nil]
            exact htrace

/-- **Clearing is a sequence of removals:** each finds what it removes, a
directory being empty by then, and together they lead to the cleared tree. -/
theorem clear_trace (hw : w.root.WellFormed) (h : clear w p ignored = .ok (report, w')) :
    RemovalTrace w.root (clearSteps w p ignored) w'.root := by
  rcases clear_cases h with ⟨l, es, hdir, -, rfl⟩ | ⟨hdir, -, rfl⟩
  · have hl := at?_of_directory? hdir
    have hwf : (Entry.dir es).WellFormed := hw.of_at? hl
    rw [clearSteps, hdir]
    refine trace_entriesSteps [] "" (fun q hq _ _ _ hroot hat => ?_) hw hl
    cases hwf with
    | dir _ _ hentry => exact trace_entrySteps (hentry q hq) hroot hat
  · rw [clearSteps, hdir]
    exact .nil w'.root

/-! ## What is counted -/

/-- Whether a change removes a file or a link. -/
def Change.removesLeaf : Change → Bool
  | .removeLeaf _ => true
  | _ => false

/-- Whether a change removes a directory. -/
def Change.removesDir : Change → Bool
  | .removeDir _ => true
  | _ => false

mutual

theorem counts_clearEntry (ignored : List String) (l : Location) (relative : String) :
    ∀ e : Entry,
      (clearEntry ignored relative e).2.filesRemoved =
          (entrySteps ignored l relative e).countP Change.removesLeaf ∧
        (clearEntry ignored relative e).2.dirsRemoved =
          (entrySteps ignored l relative e).countP Change.removesDir
  | .file content executable => by
      rw [clearEntry, entrySteps]
      split <;> exact ⟨rfl, rfl⟩
  | .link target => by
      rw [clearEntry, entrySteps]
      split <;> exact ⟨rfl, rfl⟩
  | .dir es => by
      obtain ⟨hfiles, hdirs⟩ := counts_clearEntries ignored l relative es
      rw [clearEntry, entrySteps]
      split
      · exact ⟨rfl, rfl⟩
      · rw [List.countP_append, List.countP_append, ← hfiles, ← hdirs]
        split
        · rename_i report hclear
          rw [hclear]
          exact ⟨rfl, rfl⟩
        · rename_i kept report hnil hclear
          rw [hclear, if_neg (by simpa using hnil)]
          exact ⟨rfl, rfl⟩

theorem counts_clearEntries (ignored : List String) (l : Location) (directory : String) :
    ∀ es : List (String × Entry),
      (clearEntries ignored directory es).2.filesRemoved =
          (entriesSteps ignored l directory es).countP Change.removesLeaf ∧
        (clearEntries ignored directory es).2.dirsRemoved =
          (entriesSteps ignored l directory es).countP Change.removesDir
  | [] => by
      rw [clearEntries, entriesSteps]
      exact ⟨rfl, rfl⟩
  | (n, e) :: es => by
      obtain ⟨hfiles, hdirs⟩ := counts_clearEntry ignored (l ++ [n]) (relativePath directory n) e
      obtain ⟨hfiles', hdirs'⟩ := counts_clearEntries ignored l directory es
      rw [clearEntries, entriesSteps, List.countP_append, List.countP_append, ← hfiles, ← hfiles',
        ← hdirs, ← hdirs']
      exact ⟨rfl, rfl⟩

end

/-- The report counts the removals of each kind. -/
theorem counts_clear (h : clear w p ignored = .ok (report, w')) :
    report.filesRemoved = (clearSteps w p ignored).countP Change.removesLeaf ∧
      report.dirsRemoved = (clearSteps w p ignored).countP Change.removesDir := by
  rcases clear_cases h with ⟨l, es, hdir, rfl, -⟩ | ⟨hdir, rfl, -⟩
  · rw [clearSteps, hdir]
    exact counts_clearEntries ignored l "" es
  · rw [clearSteps, hdir]
    exact ⟨rfl, rfl⟩

end ClientRegen
