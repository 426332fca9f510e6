import ClientRegen.Proofs.FileTree.Tree
import ClientRegen.Proofs.Text.Pieces

/-!
# Moves of a path

A path asks for moves, one after the other: to a name, or to the directory
around.  Empty pieces and single dots ask for none, so the moves are the
components without the root and without a dot at the start (`components_eq`).

What a path means depends on where it starts and on its moves alone, and both
are easy to follow: taking a path from a base puts the moves of the base in
front (`moves_join`), and another last name in place of the own one changes the
last move (`exists_withFileName`).
-/

namespace ClientRegen

/-- A name without a slash is a relative path. -/
theorem isAbsolute_name {n : String} (hn : '/' ∉ n.toList) : Path.isAbsolute ⟨n⟩ = false := by
  rw [Path.isAbsolute, beq_eq_false_iff_ne]
  intro h
  exact hn (List.mem_of_mem_head? h)

namespace Path

variable {p q base : Path} {n m : String} {piece : List Char} {k : Nat}
  {before after : List (List Char × Nat)}

/-- A piece that asks for a move is neither empty nor a single dot. -/
def isMove (piece : List Char) : Bool :=
  piece != [] && piece != ['.']

/-- The pieces of a text that ask for moves. -/
def movePieces (cs : List Char) : List (List Char) :=
  (Text.splitAt '/' cs).filter isMove

/-- The moves that a path asks for. -/
def moves (p : Path) : List Component :=
  (movePieces p.text.toList).map componentOf

/-- The pieces that ask for a move are those that are neither empty nor a dot. -/
theorem isMove_iff : isMove piece = true ↔ piece ≠ [] ∧ piece ≠ ['.'] := by
  simp [isMove]

/-- A slash parts the pieces before it from those behind it. -/
theorem movePieces_append_slash (cs ds : List Char) :
    movePieces (cs ++ '/' :: ds) = movePieces cs ++ movePieces ds := by
  rw [movePieces, splitAt_append_sep, List.filter_append]
  rfl

/-- Pieces that ask for moves, joined with slashes, ask for these moves. -/
theorem movePieces_slashed {pieces : List (List Char)}
    (h : ∀ piece ∈ pieces, '/' ∉ piece ∧ isMove piece = true) :
    movePieces (slashed pieces) = pieces := by
  by_cases hne : pieces = []
  · subst hne
    rfl
  · rw [movePieces, splitAt_slashed (fun piece hpiece => (h piece hpiece).1) hne,
      List.filter_eq_self]
    intro piece hpiece
    exact (h piece hpiece).2

/-- A piece that asks for a move and holds no slash is a name, or it stands for
the directory around. -/
theorem componentOf_cases (hmove : isMove piece = true) (hslash : '/' ∉ piece) :
    componentOf piece = .parent ∨ ∃ n, IsEntryName n ∧ componentOf piece = .name n := by
  obtain ⟨hempty, hdot⟩ := isMove_iff.mp hmove
  by_cases hdots : piece = ['.', '.']
  · subst hdots
    exact Or.inl rfl
  · have hname : componentOf piece = .name (String.ofList piece) := by
      rw [componentOf, if_neg hdot, if_neg hdots]
    refine Or.inr ⟨String.ofList piece, ⟨?_, ?_, ?_, ?_⟩, hname⟩
    · simpa using hempty
    · simpa using hslash
    · intro h
      apply hdot
      simpa using congrArg String.toList h
    · intro h
      apply hdots
      simpa using congrArg String.toList h

/-- **A move goes to a name or to the directory around.** -/
theorem moves_cases {c : Component} (h : c ∈ p.moves) :
    c = .parent ∨ ∃ n, IsEntryName n ∧ c = .name n := by
  obtain ⟨piece, hpiece, rfl⟩ := List.mem_map.mp h
  obtain ⟨hmem, hmove⟩ := List.mem_filter.mp hpiece
  exact componentOf_cases hmove (sep_notMem_of_mem_splitAt hmem)

/-! ## Components -/

/-- After the first piece, the pieces that count are those that ask for moves. -/
theorem map_filter_counts (pieces : List (List Char)) (k : Nat) :
    ((pieces.zipIdx (k + 1)).filter fun q => counts q.1 q.2).map Prod.fst =
      pieces.filter isMove := by
  induction pieces generalizing k with
  | nil => rfl
  | cons piece pieces ih =>
      have hcounts : counts piece (k + 1) = isMove piece := by
        simp [counts, isMove]
      rw [List.zipIdx_cons, List.filter_cons, List.filter_cons, hcounts]
      by_cases hmove : isMove piece = true
      · rw [if_pos hmove, if_pos hmove, List.map_cons, ih]
      · rw [if_neg hmove, if_neg hmove, ih]

/-- A dot at the start of a path counts, although it asks for no move. -/
def dotAtStart (p : Path) : List Component :=
  if p.pieces.head? = some ['.'] then [.current] else []

/-- The pieces that count stand for a dot at the start, if there is one, and for the moves. -/
theorem map_counted (p : Path) :
    p.counted.map (fun q => componentOf q.1) = p.dotAtStart ++ p.moves := by
  rw [counted, dotAtStart, moves, movePieces, ← pieces]
  obtain ⟨first, others, hpieces⟩ := List.exists_cons_of_ne_nil (splitAt_ne_nil '/' p.text.toList)
  rw [← pieces] at hpieces
  have hothers : ((others.zipIdx 1).filter fun q => counts q.1 q.2).map
      (fun q => componentOf q.1) = (others.filter isMove).map componentOf := by
    rw [← map_filter_counts others 0, List.map_map]
    rfl
  rw [hpieces, List.zipIdx_cons, List.filter_cons, List.filter_cons, List.head?_cons]
  by_cases hdot : first = ['.']
  · subst hdot
    have hcounts : counts ['.'] 0 = true := rfl
    rw [if_pos hcounts, if_pos rfl, if_neg (by decide), List.map_cons, hothers]
    rfl
  · have hcounts : counts first 0 = isMove first := by
      simp [counts, isMove, hdot]
    have hstart : ¬ some first = some ['.'] := fun h => hdot (Option.some.inj h)
    rw [hcounts, if_neg hstart]
    by_cases hmove : isMove first = true
    · rw [if_pos hmove, if_pos hmove, List.map_cons, List.map_cons, hothers]
      rfl
    · rw [if_neg hmove, if_neg hmove, hothers]
      rfl

/-- **The components of a path are where it starts and its moves.** -/
theorem components_eq (p : Path) :
    p.components = (if p.isAbsolute then [.root] else []) ++ (p.dotAtStart ++ p.moves) := by
  rw [components, map_counted]

/-- The root is no move. -/
theorem root_notMem_moves (p : Path) : Component.root ∉ p.dotAtStart ++ p.moves := by
  intro h
  rcases List.mem_append.mp h with h | h
  · rw [dotAtStart] at h
    split at h <;> simp at h
  · rcases moves_cases h with h | ⟨n, -, h⟩ <;> cases h

/-- A path starts at the root if its components do. -/
theorem isAbsolute_iff_head? : p.isAbsolute = true ↔ p.components.head? = some .root := by
  rw [components_eq]
  by_cases habs : p.isAbsolute = true
  · simp [habs]
  · rw [Bool.not_eq_true] at habs
    rw [habs, if_neg Bool.false_ne_true, List.nil_append]
    refine iff_of_false Bool.false_ne_true ?_
    intro h
    exact root_notMem_moves p (List.mem_of_mem_head? h)

/-! ## Joined paths -/

/-- What stands before the name of an entry in its path: the path of the
directory with a slash at its end. -/
def stem (p : Path) : List Char :=
  if p.text = "" ∨ p.text.toList.getLast? = some '/' then p.text.toList else p.text.toList ++ ['/']

/-- A relative path is written behind the stem of its base. -/
theorem toList_join (base : Path) (h : q.isAbsolute = false) :
    (base.join q).text.toList = base.stem ++ q.text.toList := by
  rw [join, h, if_neg Bool.false_ne_true, stem]
  by_cases hslash : base.text = "" ∨ base.text.toList.getLast? = some '/'
  · rw [if_pos hslash, if_pos hslash, String.toList_append]
  · rw [if_neg hslash, if_neg hslash, String.toList_append, String.toList_append]
    rfl

/-- So the pieces of the base come first, and then those of the path. -/
theorem movePieces_stem_append (p : Path) (cs : List Char) :
    movePieces (p.stem ++ cs) = movePieces p.text.toList ++ movePieces cs := by
  rw [stem]
  by_cases hempty : p.text = ""
  · rw [if_pos (Or.inl hempty), hempty]
    rfl
  · by_cases hslash : p.text.toList.getLast? = some '/'
    · obtain ⟨front, hfront⟩ := List.getLast?_eq_some_iff.mp hslash
      have hend : movePieces (front ++ '/' :: []) = movePieces front ++ [] :=
        movePieces_append_slash front []
      rw [if_pos (Or.inr hslash), hfront, hend, List.append_nil, List.append_assoc]
      exact movePieces_append_slash front cs
    · rw [if_neg (not_or.mpr ⟨hempty, hslash⟩), List.append_assoc]
      exact movePieces_append_slash p.text.toList cs

/-- **A path that is taken from a base makes the moves of the base first.** -/
theorem moves_join (base : Path) (h : q.isAbsolute = false) :
    (base.join q).moves = base.moves ++ q.moves := by
  rw [moves, toList_join base h, movePieces_stem_append, List.map_append]
  rfl

/-- With a relative path behind it a base stays absolute or relative. -/
theorem isAbsolute_join (base : Path) (h : q.isAbsolute = false) :
    (base.join q).isAbsolute = base.isAbsolute := by
  rw [isAbsolute, toList_join base h, stem]
  by_cases hempty : base.text = ""
  · rw [if_pos (Or.inl hempty), isAbsolute, hempty]
    exact h
  · have hne : base.text.toList ≠ [] := fun h => hempty (String.toList_eq_nil_iff.mp h)
    obtain ⟨c, cs, hcs⟩ := List.exists_cons_of_ne_nil hne
    rw [isAbsolute, hcs]
    split <;> rfl

/-- It keeps its dot at the start. -/
theorem dotAtStart_join (hbase : base.text ≠ "") (h : q.isAbsolute = false) :
    (base.join q).dotAtStart = base.dotAtStart := by
  have hhead : ∀ front cs : List Char,
      (Text.splitAt '/' (front ++ '/' :: cs)).head? = (Text.splitAt '/' front).head? := by
    intro front cs
    rw [splitAt_append_sep, List.head?_append_of_ne_nil _ (splitAt_ne_nil '/' front)]
  rw [dotAtStart, dotAtStart, pieces, pieces, toList_join base h, stem]
  by_cases hslash : base.text.toList.getLast? = some '/'
  · obtain ⟨front, hfront⟩ := List.getLast?_eq_some_iff.mp hslash
    rw [if_pos (Or.inr hslash), hfront, List.append_assoc, List.singleton_append, hhead, hhead]
  · rw [if_neg (not_or.mpr ⟨hbase, hslash⟩), List.append_assoc, List.singleton_append, hhead]

/-- **Paths that are taken from one base have the same components if they make
the same moves.** -/
theorem components_join_eq_iff (hbase : base.text ≠ "") (hp : p.isAbsolute = false)
    (hq : q.isAbsolute = false) :
    (base.join p).components = (base.join q).components ↔ p.moves = q.moves := by
  rw [components_eq, components_eq, isAbsolute_join base hp, isAbsolute_join base hq,
    dotAtStart_join hbase hp, dotAtStart_join hbase hq, moves_join base hp, moves_join base hq,
    List.append_cancel_left_eq, List.append_cancel_left_eq, List.append_cancel_left_eq]

/-! ## The last move -/

/-- The first piece is joined to the others by a slash. -/
theorem slashed_cons (x : List Char) {xs : List (List Char)} (h : xs ≠ []) :
    slashed (x :: xs) = x ++ '/' :: slashed xs := by
  simp [slashed, List.intercalate_cons_of_ne_nil h]

/-- Two lists of pieces are joined by a slash. -/
theorem slashed_append {xs ys : List (List Char)} (hx : xs ≠ []) (hy : ys ≠ []) :
    slashed (xs ++ ys) = slashed xs ++ '/' :: slashed ys := by
  induction xs with
  | nil => exact absurd rfl hx
  | cons x xs ih =>
      by_cases hxs : xs = []
      · subst hxs
        rw [List.singleton_append, slashed_cons x hy]
        simp [slashed]
      · rw [List.cons_append, slashed_cons x (by simp [hxs]), ih hxs, slashed_cons x hxs]
        simp

/-- Joining adds no characters but slashes. -/
theorem mem_slashed_iff {c : Char} {xs : List (List Char)} (hc : c ≠ '/') :
    c ∈ slashed xs ↔ ∃ x ∈ xs, c ∈ x := by
  induction xs with
  | nil => simp [slashed]
  | cons x xs ih =>
      by_cases hxs : xs = []
      · subst hxs
        simp [slashed]
      · rw [slashed_cons x hxs, List.mem_append, List.mem_cons, ih]
        simp [hc]

/-- A piece that counts parts the pieces before it from those after it. -/
theorem exists_pieces_of_counted (h : p.counted = before ++ (piece, k) :: after) :
    ∃ front rest, p.pieces = front ++ piece :: rest ∧ k = front.length ∧ piece ≠ [] ∧
      before = front.zipIdx.filter (fun q => counts q.1 q.2) ∧
      after.map Prod.fst = rest.filter isMove := by
  obtain ⟨l₁, l₂, hpieces, hbefore, hl₂⟩ := List.filter_eq_append_iff.mp h
  obtain ⟨l₃, l₄, rfl, hnone, hcounts, hafter⟩ := List.filter_eq_cons_iff.mp hl₂
  rw [← List.append_assoc] at hpieces
  obtain ⟨front, others, hsplit, hfront, hothers⟩ := List.zipIdx_eq_append_iff.mp hpieces
  obtain ⟨x, rest, rfl, hx, rfl⟩ := List.zipIdx_eq_cons_iff.mp hothers.symm
  cases hx
  refine ⟨front, rest, hsplit, by simp, ?_, ?_, ?_⟩
  · intro hempty
    subst hempty
    cases hcounts
  · rw [← hfront, List.filter_append, hbefore, List.filter_eq_nil_iff.mpr hnone, List.append_nil]
  · rw [← hafter, map_filter_counts]

/-- The name of a file is the last component. -/
theorem getLast?_components (h : p.fileName? = some n) :
    p.components.getLast? = some (.name n) := by
  rw [fileName?] at h
  split at h
  · rename_i m hm
    cases h
    exact hm
  · cases h

/-- It stands for the last of the pieces that count. -/
theorem exists_counted_concat (h : p.fileName? = some n) :
    ∃ before piece k, p.counted = before ++ [(piece, k)] ∧ componentOf piece = .name n := by
  have hlast := getLast?_components h
  rw [components] at hlast
  rcases List.eq_nil_or_concat p.counted with hnil | ⟨before, ⟨piece, k⟩, hconcat⟩
  · rw [hnil] at hlast
    split at hlast <;> simp at hlast
  · rw [hconcat, List.concat_eq_append] at hlast
    refine ⟨before, piece, k, by rw [hconcat, List.concat_eq_append], ?_⟩
    simpa using hlast

/-- The moves of a path in which one piece counts. -/
theorem moves_of_counted (h : p.counted = [(piece, k)]) (hname : componentOf piece = .name n) :
    p.moves = [.name n] := by
  have hmap := map_counted p
  rw [h, List.map_singleton, hname, dotAtStart] at hmap
  split at hmap
  · cases hmap
  · exact hmap.symm

/-- Where two pieces or more count, the parent is the text up to the last but
one, and only the last asks for a move behind it. -/
theorem exists_text_of_counted {last : List Char} {j : Nat}
    (h : p.counted = before ++ (last, j) :: [(piece, k)]) :
    ∃ front rest, p.parent? = some ⟨String.ofList front⟩ ∧ front ≠ [] ∧
      p.text.toList = front ++ '/' :: rest ∧ movePieces rest = [piece] := by
  obtain ⟨front, rest, hpieces, rfl, hne, -, hrest⟩ := exists_pieces_of_counted h
  have htake : p.pieces.take (front.length + 1) = front ++ [last] := by
    rw [hpieces, List.take_append]
    simp
  have hparent : p.parent? = some ⟨String.ofList (slashed (front ++ [last]))⟩ := by
    rw [parent?, h]
    simp [htake]
  have hslash : ∀ piece ∈ front ++ last :: rest, '/' ∉ piece := by
    intro piece hpiece
    rw [← hpieces] at hpiece
    exact sep_notMem_of_mem_splitAt hpiece
  have hrestne : rest ≠ [] := by
    intro hnil
    rw [hnil] at hrest
    cases hrest
  refine ⟨slashed (front ++ [last]), slashed rest, hparent, ?_, ?_, ?_⟩
  · intro hnil
    have hsplit : Text.splitAt '/' (slashed (front ++ [last])) = front ++ [last] :=
      splitAt_slashed (fun piece hpiece => hslash piece (by simp at hpiece ⊢; tauto)) (by simp)
    rw [hnil] at hsplit
    have hlast := congrArg List.getLast? hsplit
    simp [Text.splitAt, eq_comm, hne] at hlast
  · rw [← slashed_append (by simp) hrestne, List.append_assoc, List.singleton_append, ← hpieces]
    exact (slashed_splitAt _).symm
  · rw [movePieces, splitAt_slashed (fun piece hpiece => hslash piece (by simp [hpiece])) hrestne]
    exact hrest.symm

/-- **A path whose last component is a name lies in its parent:** the parent
starts where the path does, and makes all its moves but the last. -/
theorem exists_parent (h : p.fileName? = some n) :
    ∃ q, p.parent? = some q ∧ q.isAbsolute = p.isAbsolute ∧ p.moves = q.moves ++ [.name n] := by
  obtain ⟨before, piece, k, hcounted, hname⟩ := exists_counted_concat h
  rcases List.eq_nil_or_concat before with rfl | ⟨before, ⟨last, j⟩, rfl⟩
  · -- the path goes no further than from its start to a name
    refine ⟨⟨if p.isAbsolute then "/" else ""⟩, by rw [parent?, hcounted]; rfl, ?_, ?_⟩
    · cases p.isAbsolute <;> rfl
    · rw [moves_of_counted hcounted hname]
      cases p.isAbsolute <;> rfl
  · rw [List.concat_eq_append, List.append_assoc] at hcounted
    obtain ⟨front, rest, hparent, hne, htext, hend⟩ := exists_text_of_counted hcounted
    refine ⟨_, hparent, ?_, ?_⟩
    · obtain ⟨c, cs, rfl⟩ := List.exists_cons_of_ne_nil hne
      rw [isAbsolute, isAbsolute, htext, String.toList_ofList]
      rfl
    · rw [moves, moves, htext, String.toList_ofList, movePieces_append_slash, hend,
        List.map_append, List.map_singleton, hname]

/-! ## Names -/

/-- The name of an entry asks for a move. -/
theorem isMove_name (hn : IsEntryName n) : isMove n.toList = true := by
  refine isMove_iff.mpr ⟨fun h => hn.ne_empty (String.toList_eq_nil_iff.mp h), fun h => ?_⟩
  exact hn.ne_dot (String.toList_inj.mp h)

/-- It stands for itself. -/
theorem componentOf_name (hn : IsEntryName n) : componentOf n.toList = .name n := by
  have hdot : n.toList ≠ ['.'] := (isMove_iff.mp (isMove_name hn)).2
  have hdots : n.toList ≠ ['.', '.'] := fun h => hn.ne_dots (String.toList_inj.mp h)
  rw [componentOf, if_neg hdot, if_neg hdots, String.ofList_toList]

/-- As a path of its own it is that one move. -/
theorem moves_name (hn : IsEntryName n) : moves ⟨n⟩ = [.name n] := by
  rw [moves, movePieces, splitAt_of_notMem hn.slash_notMem, List.filter_singleton,
    isMove_name hn, cond_true, List.map_singleton, componentOf_name hn]

/-- The last component of a path, if it is a name, can name an entry. -/
theorem isEntryName_of_fileName? (h : p.fileName? = some n) : IsEntryName n := by
  obtain ⟨q, -, -, hmoves⟩ := exists_parent h
  have hmem : Component.name n ∈ p.moves := by simp [hmoves]
  rcases moves_cases hmem with hparent | ⟨m, hm, hname⟩
  · cases hparent
  · cases hname
    exact hm

/-- **Another last name is another last move.** -/
theorem exists_withFileName (h : p.fileName? = some n) (hm : IsEntryName m) :
    ∃ ms, p.moves = ms ++ [.name n] ∧ (p.withFileName m).moves = ms ++ [.name m] ∧
      (p.withFileName m).isAbsolute = p.isAbsolute := by
  obtain ⟨q, hparent, habs, hmoves⟩ := exists_parent h
  have hwith : p.withFileName m = q.join ⟨m⟩ := by
    rw [withFileName, h, hparent]
    rfl
  have hrelative := isAbsolute_name hm.slash_notMem
  refine ⟨q.moves, hmoves, ?_, ?_⟩
  · rw [hwith, moves_join q hrelative, moves_name hm]
  · rw [hwith, isAbsolute_join q hrelative, habs]

end Path

end ClientRegen
