import ClientRegen.Proofs.Path.Moves

/-!
# Normal forms of paths

The normal form of a path is written from the moves that are left when each way
up has been taken.  Reading it gives these moves back (`components_normalize`),
so a normal form that starts at the root goes on by names alone, and is its own
normal form (`normalize_ofComponents`).

The last name of a path is the last name of its normal form, and another name in
its place changes nothing before it (`exists_absolutize_withFileName`).
-/

namespace ClientRegen

namespace Path

variable {p base : Path} {n m : String} {cs ds before ms : List Component} {absolute : Bool}
  {pieces : List (List Char)}

/-- Components of which normal forms are made: names, and in relative paths also
moves to the directory around. -/
def AreNormal (absolute : Bool) (cs : List Component) : Prop :=
  ∀ c ∈ cs, (absolute = false ∧ c = .parent) ∨ ∃ n, IsEntryName n ∧ c = .name n

/-- The moves of a path can stand in a relative normal form. -/
theorem areNormal_moves (p : Path) : AreNormal false p.moves := by
  intro c hc
  rcases moves_cases hc with hparent | hname
  · exact Or.inl ⟨rfl, hparent⟩
  · exact Or.inr hname

theorem areNormal_nil (absolute : Bool) : AreNormal absolute [] := by
  intro c hc
  cases hc

/-- A name may be added at the end. -/
theorem AreNormal.concat (h : AreNormal absolute cs) (hn : IsEntryName n) :
    AreNormal absolute (cs ++ [.name n]) := by
  intro c hc
  rcases List.mem_append.mp hc with hc | hc
  · exact h c hc
  · exact Or.inr ⟨n, hn, List.mem_singleton.mp hc⟩

/-- The first components of a normal form are one. -/
theorem AreNormal.left (h : AreNormal absolute (cs ++ ds)) : AreNormal absolute cs := by
  intro c hc
  exact h c (List.mem_append_left ds hc)

/-! ## Components that are written down -/

/-- Each component is written as a piece that stands for it. -/
theorem AreNormal.componentText (h : AreNormal absolute cs) :
    (∀ piece ∈ cs.map componentText, '/' ∉ piece ∧ isMove piece = true) ∧
      (cs.map componentText).map componentOf = cs := by
  induction cs with
  | nil => simp
  | cons c cs ih =>
      obtain ⟨hc, hcs⟩ := List.forall_mem_cons.mp h
      obtain ⟨hpieces, hmap⟩ := ih hcs
      rw [List.map_cons, List.forall_mem_cons, List.map_cons, hmap]
      rcases hc with ⟨-, rfl⟩ | ⟨n, hn, rfl⟩
      · exact ⟨⟨by decide, hpieces⟩, rfl⟩
      · refine ⟨⟨⟨hn.slash_notMem, isMove_name hn⟩, hpieces⟩, ?_⟩
        rw [Path.componentText, componentOf_name hn]

/-- A path is written as its components with slashes between them, behind the root if it is
absolute. -/
theorem toList_ofComponents (absolute : Bool) (cs : List Component) :
    (ofComponents absolute cs).text.toList =
      (if absolute then ['/'] else []) ++ slashed (cs.map componentText) := by
  rw [ofComponents, String.toList_ofList]

/-- **The moves of a normal form are its components.** -/
theorem moves_ofComponents (h : AreNormal absolute cs) : (ofComponents absolute cs).moves = cs := by
  obtain ⟨hpieces, hmap⟩ := h.componentText
  have hmoves : movePieces (ofComponents absolute cs).text.toList = cs.map componentText := by
    rw [toList_ofComponents]
    cases absolute with
    | false => exact movePieces_slashed hpieces
    | true => exact (movePieces_append_slash [] _).trans (movePieces_slashed hpieces)
  rw [moves, hmoves, hmap]

/-- Pieces that ask for moves begin with no slash and with no dot. -/
theorem head?_slashed (h : ∀ piece ∈ pieces, '/' ∉ piece ∧ isMove piece = true) :
    (slashed pieces).head? ≠ some '/' ∧
      (Text.splitAt '/' (slashed pieces)).head? ≠ some ['.'] := by
  cases pieces with
  | nil => decide
  | cons piece pieces =>
      obtain ⟨⟨hslash, hmove⟩, -⟩ := List.forall_mem_cons.mp h
      have hsplit := splitAt_slashed (fun piece hpiece => (h piece hpiece).1)
        (List.cons_ne_nil piece pieces)
      obtain ⟨hempty, hdot⟩ := isMove_iff.mp hmove
      constructor
      · intro hhead
        obtain ⟨ds, hds⟩ := List.head?_eq_some_iff.mp hhead
        rw [hds, Text.splitAt, if_pos rfl] at hsplit
        exact hempty (List.cons.inj hsplit).1.symm
      · intro hhead
        rw [hsplit, List.head?_cons] at hhead
        exact hdot (Option.some.inj hhead)

/-- It is absolute if it was written so. -/
theorem isAbsolute_ofComponents (h : AreNormal absolute cs) :
    (ofComponents absolute cs).isAbsolute = absolute := by
  rw [isAbsolute, toList_ofComponents]
  cases absolute with
  | true => rfl
  | false =>
      rw [if_neg Bool.false_ne_true, List.nil_append, beq_eq_false_iff_ne]
      exact (head?_slashed h.componentText.1).1

/-- **Components that are written down are read again.** -/
theorem components_ofComponents (h : AreNormal absolute cs) :
    (ofComponents absolute cs).components = (if absolute then [.root] else []) ++ cs := by
  have hdot : (ofComponents absolute cs).dotAtStart = [] := by
    rw [dotAtStart, if_neg]
    rw [Path.pieces, toList_ofComponents]
    cases absolute with
    | true => simp [Text.splitAt]
    | false => exact (head?_slashed h.componentText.1).2
  rw [components_eq, isAbsolute_ofComponents h, hdot, moves_ofComponents h, List.nil_append]

/-! ## Normal forms -/

/-- Where a path starts is no move. -/
theorem normalComponents_eq (p : Path) :
    p.normalComponents = (p.moves.foldl (normalStep p.isAbsolute) []).reverse := by
  rw [normalComponents, components_eq, List.foldl_append, List.foldl_append]
  congr 2
  rw [dotAtStart]
  split <;> split <;> rfl

/-- One move leaves components of a normal form behind. -/
theorem areNormal_normalStep (hbefore : AreNormal absolute before) {c : Component}
    (hc : c = .parent ∨ ∃ n, IsEntryName n ∧ c = .name n) :
    AreNormal absolute (normalStep absolute before c) := by
  rcases hc with rfl | ⟨n, hn, rfl⟩
  · cases before with
    | nil =>
        cases absolute with
        | true => exact hbefore
        | false => exact List.forall_mem_singleton.mpr (Or.inl ⟨rfl, rfl⟩)
    | cons d before =>
        obtain ⟨hd, hrest⟩ := List.forall_mem_cons.mp hbefore
        rcases hd with ⟨hrelative, rfl⟩ | ⟨m, -, rfl⟩
        · exact List.forall_mem_cons.mpr ⟨Or.inl ⟨hrelative, rfl⟩, hbefore⟩
        · exact hrest
  · exact List.forall_mem_cons.mpr ⟨Or.inr ⟨n, hn, rfl⟩, hbefore⟩

/-- Normal steps keep a normal form, by induction on the moves. -/
theorem areNormal_foldl (hbefore : AreNormal absolute before) (hms : AreNormal false ms) :
    AreNormal absolute (ms.foldl (normalStep absolute) before) := by
  induction ms generalizing before with
  | nil => exact hbefore
  | cons c ms ih =>
      obtain ⟨hc, hms⟩ := List.forall_mem_cons.mp hms
      refine ih (areNormal_normalStep hbefore ?_) hms
      rcases hc with ⟨-, hparent⟩ | hname
      · exact Or.inl hparent
      · exact Or.inr hname

/-- So normalising a path comes to a normal form. -/
theorem areNormal_normalComponents (p : Path) : AreNormal p.isAbsolute p.normalComponents := by
  rw [normalComponents_eq]
  intro c hc
  exact areNormal_foldl (areNormal_nil _) (areNormal_moves p) c (List.mem_reverse.mp hc)

/-- **A normal form is read as the moves that are left.** -/
theorem components_normalize (p : Path) :
    p.normalize.components = (if p.isAbsolute then [.root] else []) ++ p.normalComponents :=
  components_ofComponents (areNormal_normalComponents p)

/-- A path whose moves come to nothing has the empty text as its normal form,
unless it starts at the root. -/
theorem components_normalize_eq_nil_iff : p.normalize.components = [] ↔ p.normalize = ⟨""⟩ := by
  constructor
  · intro h
    rw [components_normalize, List.append_eq_nil_iff] at h
    obtain ⟨hroot, hnil⟩ := h
    have hrelative : p.isAbsolute = false := by
      cases habs : p.isAbsolute with
      | false => rfl
      | true => simp [habs] at hroot
    rw [normalize, hrelative, hnil]
    rfl
  · intro h
    rw [h]
    rfl

/-- Names that are moved by one after the other are all left. -/
theorem foldl_normalStep_names (h : AreNormal true cs) (before : List Component) :
    cs.foldl (normalStep true) before = cs.reverse ++ before := by
  induction cs generalizing before with
  | nil => rfl
  | cons c cs ih =>
      obtain ⟨hc, hcs⟩ := List.forall_mem_cons.mp h
      rcases hc with ⟨habs, -⟩ | ⟨n, -, rfl⟩
      · cases habs
      · rw [List.foldl_cons, ih hcs, List.reverse_cons, List.append_assoc]
        rfl

/-- **A path of the root and names is its own normal form.** -/
theorem normalize_ofComponents (h : AreNormal true cs) :
    (ofComponents true cs).normalize = ofComponents true cs := by
  rw [normalize, normalComponents_eq, isAbsolute_ofComponents h, moves_ofComponents h,
    foldl_normalStep_names h, List.append_nil, List.reverse_reverse]

/-! ## The last name -/

/-- An absolute normal form has an empty piece before its root, and a piece for each component. -/
theorem pieces_ofComponents (h : AreNormal true cs) (hne : cs ≠ []) :
    (ofComponents true cs).pieces = [] :: cs.map componentText := by
  have hslash : ∀ piece ∈ cs.map componentText, '/' ∉ piece :=
    fun piece hpiece => (h.componentText.1 piece hpiece).1
  rw [Path.pieces, toList_ofComponents, if_pos rfl, List.singleton_append, Text.splitAt, if_pos rfl,
    splitAt_slashed hslash (by simpa using hne)]

/-- All pieces of a normal form count but the empty one before the first slash. -/
theorem counted_ofComponents (h : AreNormal true cs) (hne : cs ≠ []) :
    (ofComponents true cs).counted = (cs.map componentText).zipIdx 1 := by
  have hempty : ¬ counts [] 0 = true := by decide
  rw [counted, pieces_ofComponents h hne, List.zipIdx_cons, List.filter_cons, if_neg hempty,
    List.filter_eq_self]
  intro q hq
  have hmove := (h.componentText.1 q.1 (List.fst_mem_of_mem_zipIdx hq)).2
  obtain ⟨hempty, hdot⟩ := isMove_iff.mp hmove
  simp [counts, hempty, hdot]

/-- The parent of a normal form has all its names but the last. -/
theorem parent?_ofComponents (h : AreNormal true (cs ++ [.name n])) :
    (ofComponents true (cs ++ [.name n])).parent? = some (ofComponents true cs) := by
  have hne : cs ++ [.name n] ≠ [] := by simp
  have habs := isAbsolute_ofComponents h
  have hcounted := counted_ofComponents h hne
  rcases List.eq_nil_or_concat' cs with rfl | ⟨front, c, rfl⟩
  · rw [parent?, hcounted, habs]
    rfl
  · have htake :
        (ofComponents true (front ++ [c] ++ [.name n])).pieces.take (1 + front.length + 1) =
          [] :: (front ++ [c]).map componentText := by
      rw [pieces_ofComponents h hne, List.map_append, List.take_succ_cons, List.take_left']
      simp
      omega
    have hslashed : slashed ([] :: (front ++ [c]).map componentText) =
        '/' :: slashed ((front ++ [c]).map componentText) :=
      slashed_cons [] (by simp)
    rw [parent?, hcounted, List.map_append, List.map_append, List.zipIdx_append, List.zipIdx_append]
    simp only [List.map_singleton, List.zipIdx_singleton, List.reverse_append,
      List.reverse_singleton, List.singleton_append, List.length_map]
    rw [htake, hslashed]
    rfl

/-- A normal form ends in a slash only if it is the root itself. -/
theorem getLast?_ofComponents (h : AreNormal true cs) (hne : cs ≠ []) :
    (ofComponents true cs).text.toList.getLast? ≠ some '/' := by
  intro hslash
  obtain ⟨front, hfront⟩ := List.getLast?_eq_some_iff.mp hslash
  have hpieces := pieces_ofComponents h hne
  rw [Path.pieces, hfront, splitAt_append_sep] at hpieces
  -- the last piece would be empty
  have hlast : (cs.map componentText).getLast? = some [] := by
    have hlast := congrArg List.getLast? hpieces
    rw [List.getLast?_append_of_ne_nil _ (splitAt_ne_nil '/' []),
      List.getLast?_cons_of_ne_nil (by simpa using hne)] at hlast
    exact hlast.symm
  have hmove := (h.componentText.1 [] (List.mem_of_getLast? hlast)).2
  cases hmove

/-- **A name is added to a normal form at its end.** -/
theorem join_ofComponents (h : AreNormal true cs) (hn : IsEntryName n) :
    (ofComponents true cs).join ⟨n⟩ = ofComponents true (cs ++ [.name n]) := by
  have htext : ((ofComponents true cs).join ⟨n⟩).text.toList =
      (ofComponents true (cs ++ [.name n])).text.toList := by
    rw [toList_join _ (isAbsolute_name hn.slash_notMem), stem, toList_ofComponents,
      toList_ofComponents, if_pos rfl]
    by_cases hne : cs = []
    · subst hne
      have hslash : (['/'] ++ slashed ([].map componentText)).getLast? = some '/' := rfl
      rw [if_pos (Or.inr hslash)]
      simp [slashed, Path.componentText]
    · have hempty : (ofComponents true cs).text ≠ "" := by
        intro hempty
        have habs := isAbsolute_ofComponents h
        rw [isAbsolute, hempty] at habs
        cases habs
      have hslash := getLast?_ofComponents h hne
      rw [toList_ofComponents, if_pos rfl] at hslash
      rw [if_neg (not_or.mpr ⟨hempty, hslash⟩), List.map_append,
        slashed_append (by simpa using hne) (by simp)]
      simp [slashed, Path.componentText]
  exact congrArg Path.mk (String.toList_inj.mp htext)

/-- The moves of a path that is taken from a base. -/
def movesFrom (base p : Path) : List Component :=
  if p.isAbsolute then p.moves else base.moves ++ p.moves

/-- The moves from a base can stand in a relative normal form. -/
theorem areNormal_movesFrom (base p : Path) : AreNormal false (movesFrom base p) := by
  rw [movesFrom]
  split
  · exact areNormal_moves p
  · exact List.forall_mem_append.mpr ⟨areNormal_moves base, areNormal_moves p⟩

/-- **An absolute path is made from the moves from the base, each taken as a normal step.** -/
theorem absolutize_eq (p : Path) (hbase : base.isAbsolute = true) :
    p.absolutize base =
      ofComponents true ((movesFrom base p).foldl (normalStep true) []).reverse := by
  rw [absolutize, movesFrom]
  by_cases habs : p.isAbsolute = true
  · rw [if_pos habs, if_pos habs, normalize, normalComponents_eq, habs]
  · rw [if_neg habs, if_neg habs]
    rw [Bool.not_eq_true] at habs
    rw [normalize, normalComponents_eq, isAbsolute_join base habs, hbase, moves_join base habs]

/-- The names that are left of moves from the root. -/
theorem areNormal_left (hms : AreNormal false ms) :
    AreNormal true (ms.foldl (normalStep true) []).reverse := by
  intro c hc
  exact areNormal_foldl (areNormal_nil true) hms c (List.mem_reverse.mp hc)

/-- A path that is taken from a directory is the root and names. -/
theorem exists_absolutize (p : Path) (hbase : base.isAbsolute = true) :
    ∃ cs, AreNormal true cs ∧ p.absolutize base = ofComponents true cs :=
  ⟨_, areNormal_left (areNormal_movesFrom base p), absolutize_eq p hbase⟩

/-- **The last name of a path is the last name of its normal form,** and another
name in its place changes nothing before it. -/
theorem exists_absolutize_withFileName (hbase : base.isAbsolute = true)
    (hn : p.fileName? = some n) (hm : IsEntryName m) :
    ∃ cs, AreNormal true (cs ++ [.name n]) ∧
      p.absolutize base = ofComponents true (cs ++ [.name n]) ∧
      (p.withFileName m).absolutize base = ofComponents true (cs ++ [.name m]) := by
  obtain ⟨ms, hmoves, hmoves', habs⟩ := exists_withFileName hn hm
  have hfrom : ∃ start, AreNormal false start ∧ movesFrom base p = start ++ [.name n] ∧
      movesFrom base (p.withFileName m) = start ++ [.name m] := by
    have hms : AreNormal false ms := (hmoves ▸ areNormal_moves p).left
    rw [movesFrom, movesFrom, habs, hmoves, hmoves']
    by_cases hp : p.isAbsolute = true
    · exact ⟨ms, hms, if_pos hp, if_pos hp⟩
    · refine ⟨base.moves ++ ms, ?_, ?_, ?_⟩
      · exact List.forall_mem_append.mpr ⟨areNormal_moves base, hms⟩
      · rw [if_neg hp, List.append_assoc]
      · rw [if_neg hp, List.append_assoc]
  obtain ⟨start, hstart, hfromp, hfromm⟩ := hfrom
  refine ⟨_, (areNormal_left hstart).concat (isEntryName_of_fileName? hn), ?_, ?_⟩
  · rw [absolutize_eq p hbase, hfromp, List.foldl_append]
    simp [normalStep]
  · rw [absolutize_eq _ hbase, hfromm, List.foldl_append]
    simp [normalStep]

end Path

end ClientRegen
