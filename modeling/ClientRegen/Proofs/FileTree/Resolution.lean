import ClientRegen.Proofs.FileTree.Making
import ClientRegen.Proofs.FileTree.Ways
import ClientRegen.Proofs.Path.CanonicalForm
import Mathlib.Data.String.Basic

/-!
# Normal forms lead to the same place

In a tree without symbolic links a walk and the stack of a normal form move
alike: a name is put on top when the walk goes into a directory, and taken away
when it goes back up (`foldl_normalStep_of_walk`).  So a path that starts at the
root and arrives somewhere has as its normal form the way that is spelled as
this location, and the normal form arrives there, too
(`locate_normalize`).

Links are left out for a reason: behind a link to a directory the way up leads
somewhere else than the text says.
-/

namespace ClientRegen

variable {root e x : Entry} {follow : Bool} {links : Nat} {here l : Location}
  {steps rest : List String} {w : World} {p : Path} {n : String}

/-! ## Trees without links -/

/-- A tree in which no symbolic link stands. -/
inductive Entry.LinkFree : Entry → Prop
  | file (content : ByteArray) (executable : Bool) : LinkFree (.file content executable)
  | dir {es : List (String × Entry)} (hentry : ∀ p ∈ es, p.2.LinkFree) : LinkFree (.dir es)

/-- A tree without links is no link. -/
theorem Entry.LinkFree.ne_link (h : e.LinkFree) (target : String) : e ≠ .link target := by
  rintro rfl
  cases h

/-- Nor is there a link in any of its entries. -/
theorem Entry.LinkFree.of_at? (h : e.LinkFree) (hl : e.at? l = some x) : x.LinkFree := by
  induction l generalizing e with
  | nil =>
      rw [Entry.at?_nil, Option.some.injEq] at hl
      exact hl ▸ h
  | cons m l ih =>
      obtain ⟨es, d, rfl, hd, hl⟩ := Entry.exists_dir_of_at?_cons hl
      cases h with
      | dir hentry => exact ih (hentry _ (mem_of_lookup hd)) hl

/-! ## The moves of a walk -/

/-- The moves that the steps of a walk make. -/
def stepMoves (steps : List String) : List Component :=
  (steps.filter (· ≠ ".")).map fun step => Path.componentOf step.toList

/-- No steps make no moves. -/
@[simp] theorem stepMoves_nil : stepMoves [] = [] :=
  rfl

/-- A dot makes no move. -/
@[simp] theorem stepMoves_dot (rest : List String) : stepMoves ("." :: rest) = stepMoves rest :=
  rfl

/-- Two dots move up. -/
@[simp] theorem stepMoves_dots (rest : List String) :
    stepMoves (".." :: rest) = .parent :: stepMoves rest :=
  rfl

/-- A name moves down. -/
theorem stepMoves_name (hn : IsEntryName n) (rest : List String) :
    stepMoves (n :: rest) = .name n :: stepMoves rest := by
  rw [stepMoves, List.filter_cons_of_pos (by simpa using hn.ne_dot), List.map_cons,
    Path.componentOf_name hn]
  rfl

/-- Steps make their moves one after another. -/
theorem stepMoves_append (steps rest : List String) :
    stepMoves (steps ++ rest) = stepMoves steps ++ stepMoves rest := by
  rw [stepMoves, List.filter_append, List.map_append]
  rfl

/-- The steps of a path make its moves. -/
theorem stepMoves_stepsOf (p : Path) : stepMoves (stepsOf p.text) = p.moves := by
  have hpieces : stepMoves (((Text.splitAt '/' p.text.toList).filter (· != [])).map
      String.ofList) = p.moves := by
    have hmove : ∀ piece, (piece != [] && decide (String.ofList piece ≠ ".")) =
        Path.isMove piece := by
      intro piece
      have hdot : String.ofList piece = "." ↔ piece = ['.'] := by
        rw [← String.toList_inj, String.toList_ofList]
        rfl
      rw [Bool.eq_iff_iff, Bool.and_eq_true, Path.isMove_iff, bne_iff_ne, decide_eq_true_eq, Ne,
        Ne, hdot]
    rw [stepMoves, List.filter_map, List.map_map, List.filter_filter, Path.moves, Path.movePieces]
    congr 1
    · funext piece
      simp
    · refine List.filter_congr fun piece _ => ?_
      rw [Bool.and_comm]
      exact hmove piece
  unfold stepsOf
  dsimp only
  split
  · rw [stepMoves_append, stepMoves_dot, stepMoves_nil, List.append_nil, hpieces]
  · exact hpieces

/-- The way up takes away the last name; there is none above the root. -/
theorem normalStep_parent_dropLast (here : Location) :
    Path.normalStep true (here.map Component.name).reverse .parent =
      (here.dropLast.map Component.name).reverse := by
  rcases List.eq_nil_or_concat here with rfl | ⟨front, n, rfl⟩
  · rfl
  · simp [Path.normalStep]

/-- A step that a walk takes by name. -/
theorem isStep_of_isPathStep {step : String} (h : IsPathStep step) (hdot : step ≠ ".")
    (hdots : step ≠ "..") (hlimit : ¬ step.utf8ByteSize > nameLimit) : IsStep step :=
  ⟨⟨h.1, h.2, hdot, hdots⟩, Nat.not_lt.mp hlimit⟩

/-- **A walk moves as the stack of a normal form does,** and the names on it can
be held by directories. -/
theorem foldl_normalStep_of_walk (hroot : root.LinkFree)
    (h : walk root follow links here steps = .ok (.present l e))
    (hsteps : ∀ step ∈ steps, IsPathStep step) (hhere : ∀ n ∈ here, IsStep n) :
    (stepMoves steps).foldl (Path.normalStep true) (here.map Component.name).reverse =
      (l.map Component.name).reverse ∧ ∀ n ∈ l, IsStep n := by
  fun_induction walk root follow links here steps with
  | case1 links here x hx =>
      cases h
      exact ⟨rfl, hhere⟩
  | case6 links here rest es hes ih =>
      exact ih h (List.forall_mem_cons.mp hsteps).2 hhere
  | case7 links here rest es hes hdot ih =>
      rw [stepMoves_dots, List.foldl_cons, normalStep_parent_dropLast]
      exact ih h (List.forall_mem_cons.mp hsteps).2 fun n hn =>
        hhere n (List.mem_of_mem_dropLast hn)
  | case11 links here step es hes hdot hdots hlimit content executable hstep =>
      cases h
      have hname := isStep_of_isPathStep (hsteps step List.mem_cons_self) hdot hdots hlimit
      rw [stepMoves_name hname.1]
      refine ⟨by simp [Path.normalStep], List.forall_mem_append.mpr ⟨hhere, ?_⟩⟩
      exact List.forall_mem_singleton.mpr hname
  | case13 links here step rest es hes hdot hdots hlimit es' hstep ih =>
      have hname := isStep_of_isPathStep (hsteps step List.mem_cons_self) hdot hdots hlimit
      have hpush : Path.normalStep true (here.map Component.name).reverse (.name step) =
          ((here ++ [step]).map Component.name).reverse := by
        simp [Path.normalStep]
      rw [stepMoves_name hname.1, List.foldl_cons, hpush]
      refine ih h (List.forall_mem_cons.mp hsteps).2 (List.forall_mem_append.mpr ⟨hhere, ?_⟩)
      exact List.forall_mem_singleton.mpr hname
  | case14 links here step rest es hes hdot hdots hlimit target hstep hend =>
      exact absurd rfl ((hroot.of_at? (at?_concat hes hstep)).ne_link target)
  | case16 here step rest es hes hdot hdots hlimit target hstep hend links ih =>
      exact absurd rfl ((hroot.of_at? (at?_concat hes hstep)).ne_link target)
  | _ => cases h

/-! ## Where the normal form leads -/

/-- Every path but the empty one asks for a step. -/
theorem stepsOf_ne_nil {text : String} (h : text ≠ "") : stepsOf text ≠ [] := by
  intro hnil
  unfold stepsOf at hnil
  dsimp only at hnil
  split at hnil
  · simp at hnil
  · rename_i hlast
    rw [List.map_eq_nil_iff, List.filter_eq_nil_iff] at hnil
    obtain ⟨c, hc⟩ := Option.isSome_iff_exists.mp
      (List.getLast?_isSome.mpr fun h' => h (String.toList_eq_nil_iff.mp h'))
    have hslash : c ≠ '/' := by
      rintro rfl
      exact hlast hc
    -- the last character stands in a piece, but all pieces are empty
    have hmem := List.mem_of_getLast? hc
    rw [← slashed_splitAt text.toList, Path.mem_slashed_iff hslash] at hmem
    obtain ⟨piece, hpiece, hmem⟩ := hmem
    have hempty : piece = [] := by simpa using hnil piece hpiece
    rw [hempty] at hmem
    cases hmem

/-- A path that starts at the root arrives nowhere unless the root is a
directory. -/
theorem exists_root_dir (habs : p.isAbsolute = true)
    (h : w.locate p follow = .ok (.present l e)) : ∃ es, w.root = .dir es := by
  obtain ⟨-, hempty, -, hwalk⟩ := locate_eq_ok_iff.mp h
  obtain ⟨step, rest, hsteps⟩ := List.exists_cons_of_ne_nil (stepsOf_ne_nil hempty)
  rw [habs, if_pos rfl, hsteps, walk, Entry.at?_nil] at hwalk
  cases hroot : w.root with
  | file | link =>
      rw [hroot] at hwalk
      cases hwalk
  | dir es => exact ⟨es, rfl⟩

/-- The normal form of a path that arrives somewhere is spelled as this
location. -/
theorem normalize_of_locate (hroot : w.root.LinkFree) (habs : p.isAbsolute = true)
    (h : w.locate p follow = .ok (.present l e)) :
    p.normalize = Path.ofComponents true (l.map .name) ∧ ∀ n ∈ l, IsStep n := by
  obtain ⟨-, -, -, hwalk⟩ := locate_eq_ok_iff.mp h
  rw [habs, if_pos rfl] at hwalk
  obtain ⟨hmoves, hl⟩ := foldl_normalStep_of_walk hroot hwalk
    (fun step hstep => isPathStep_of_mem_stepsOf hstep) (by simp)
  refine ⟨?_, hl⟩
  rw [stepMoves_stepsOf, List.map_nil, List.reverse_nil] at hmoves
  rw [Path.normalize_eq, habs, hmoves, List.reverse_reverse]

/-- Names below the root are a normal form. -/
theorem areNormal_map_name (hl : ∀ n ∈ l, IsStep n) :
    Path.AreNormal true (l.map Component.name) := by
  intro c hc
  obtain ⟨n, hn, rfl⟩ := List.mem_map.mp hc
  exact Or.inr ⟨n, (hl n hn).1, rfl⟩

/-- Names that are written after the root are the steps of the path. -/
theorem stepsOf_ofComponents (hl : ∀ n ∈ l, IsStep n) (hne : l ≠ []) :
    stepsOf (Path.ofComponents true (l.map .name)).text = l := by
  have hnormal := areNormal_map_name hl
  have hcs : l.map Component.name ≠ [] := by simpa using hne
  have hpieces := Path.pieces_ofComponents hnormal hcs
  have hfilter : (l.map String.toList).filter (· != []) = l.map String.toList := by
    rw [List.filter_eq_self]
    intro piece hpiece
    obtain ⟨n, hn, rfl⟩ := List.mem_map.mp hpiece
    simpa using (hl n hn).1.ne_empty
  rw [Path.pieces, List.map_map] at hpieces
  rw [stepsOf, hpieces, if_neg (Path.getLast?_ofComponents hnormal hcs),
    List.filter_cons_of_neg (by simp)]
  exact (congrArg _ hfilter).trans (by simp)

/-- A text with fewer characters has no more bytes. -/
theorem utf8ByteSize_le_of_sublist {s t : String} (h : s.toList.Sublist t.toList) :
    s.utf8ByteSize ≤ t.utf8ByteSize := by
  rw [← String.ofList_toList (s := s), ← String.ofList_toList (s := t), String.utf8ByteSize_ofList,
    String.utf8ByteSize_ofList]
  exact String.utf8Len_le_of_sublist h

/-- **In a tree without links the normal form of a path leads where the path
leads.** -/
theorem locate_normalize (hroot : w.root.LinkFree) (habs : p.isAbsolute = true)
    (h : w.locate p follow = .ok (.present l e)) :
    w.locate p.normalize follow = .ok (.present l e) := by
  obtain ⟨hnul, -, hlong, -⟩ := locate_eq_ok_iff.mp h
  obtain ⟨heq, hl⟩ := normalize_of_locate hroot habs h
  obtain ⟨es, hes⟩ := exists_root_dir habs h
  have hat := at?_of_locate h
  by_cases hne : l = []
  · -- the root is spelled as a slash, which asks for a directory
    subst hne
    rw [Entry.at?_nil, Option.some.injEq] at hat
    have hsteps : stepsOf "/" = ["."] := by decide
    have hroot : p.normalize = ⟨"/"⟩ := heq
    rw [hroot, locate_eq_ok_iff, hsteps]
    refine ⟨by decide, by decide, by decide, ?_⟩
    rw [if_pos (by decide), walk, Entry.at?_nil, hes]
    simp only [if_true]
    rw [walk, Entry.at?_nil, ← hat, hes]
  · have hsublist := Path.toList_normalize_sublist p
    have hspells : p.normalize.Spells l := by
      refine ⟨(Path.isAbsolute_normalize p).trans habs, ?_, hl, ?_, ?_⟩
      · rw [heq, stepsOf_ofComponents hl hne]
      · rw [List.any_eq_false] at hnul ⊢
        exact fun c hc => hnul c (hsublist.subset hc)
      · exact (utf8ByteSize_le_of_sublist hsublist).trans hlong
    exact locate_of_spells hspells hat ((hroot.of_at? hat).ne_link ·) follow

/-- **Normalising keeps what a path means.**  A normal form starts where the path
does, it is canonical and its own normal form, and a base may be normalised
before a path is taken from it.  In a tree without links, a path that starts at
the root and leads to an entry has a normal form that leads to the same one. -/
theorem normalize_keeps_meaning (p base : Path) :
    p.normalize.isAbsolute = p.isAbsolute ∧ (∃ ups names, p.normalize.IsCanonical ups names) ∧
      p.normalize.normalize = p.normalize ∧
      (base.join p).normalize = (base.normalize.join p).normalize ∧
      ∀ (w : World) (follow : Bool) (l : Location) (e : Entry), w.root.LinkFree →
        p.isAbsolute = true → w.locate p follow = .ok (.present l e) →
        w.locate p.normalize follow = .ok (.present l e) := by
  refine ⟨Path.isAbsolute_normalize p, Path.exists_isCanonical_normalize p,
    Path.normalize_normalize p, (Path.normalize_join_normalize base p).symm, ?_⟩
  intro w follow l e hroot habs h
  exact locate_normalize hroot habs h

/-- A world with a file and an empty directory beside it. -/
def plainWorld : World :=
  ⟨.dir [("a", .dir [("b", .dir []), ("f", .file ⟨#[1]⟩ false)])], [], []⟩

/-- A path up from the root, into the empty directory and back out of it. -/
theorem normalize_keeps_meaning_plain :
    let p : Path := ⟨"/../a//b/.././f"⟩
    plainWorld.root.LinkFree ∧ p.isAbsolute = true ∧
      plainWorld.locate p true = .ok (.present ["a", "f"] (.file ⟨#[1]⟩ false)) ∧
      plainWorld.locate ⟨"/a/f"⟩ true = .ok (.present ["a", "f"] (.file ⟨#[1]⟩ false)) := by
  intro p
  have hfree : plainWorld.root.LinkFree := by
    refine .dir (List.forall_mem_singleton.mpr (.dir (List.forall_mem_cons.mpr ⟨?_, ?_⟩)))
    · exact .dir (by simp)
    · exact List.forall_mem_singleton.mpr (.file _ _)
  have habs : p.isAbsolute = true := by decide +kernel
  have hnormal : p.normalize = ⟨"/a/f"⟩ := by decide +kernel
  have hsteps : stepsOf p.text = ["..", "a", "b", "..", ".", "f"] := by decide +kernel
  have hlimits : "a".utf8ByteSize ≤ nameLimit ∧ "b".utf8ByteSize ≤ nameLimit ∧
      "f".utf8ByteSize ≤ nameLimit := by decide +kernel
  have hlocate : plainWorld.locate p true =
      .ok (.present ["a", "f"] (.file ⟨#[1]⟩ false)) := by
    rw [locate_eq_ok_iff, hsteps, habs]
    refine ⟨by decide +kernel, by decide +kernel, by decide +kernel, ?_⟩
    simp [walk, plainWorld, Entry.at?, Entry.entries, List.lookup_cons, Nat.not_lt.mpr hlimits.1,
      Nat.not_lt.mpr hlimits.2.1, Nat.not_lt.mpr hlimits.2.2]
  refine ⟨hfree, habs, hlocate, ?_⟩
  rw [← hnormal]
  exact (normalize_keeps_meaning p p).2.2.2.2 plainWorld true _ _ hfree habs hlocate

end ClientRegen
