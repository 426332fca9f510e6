import ClientRegen.Proofs.Path.NormalForm

/-!
# Canonical paths

The components that are kept while a path is normalised form a stack: names, and
below them ways up, of which there are none in a path that starts at the root
(`IsStack`).  Every move keeps this shape (`isStack_normalStep`), so a normal
form is canonical: its ways up come first, then its names
(`exists_isCanonical_normalize`).

Moving along a stack builds it again (`foldl_normalStep_reverse`).  So a normal
form is its own normal form (`normalize_normalize`), and it makes no difference
whether a base is normalised before a path is taken from it
(`normalize_join_normalize`).

Moves are taken away and never added.  So the text of a normal form is what is
left of the text of the path once some characters are taken out
(`toList_normalize_sublist`), and no limit of the operating system is passed by
normalising.
-/

namespace ClientRegen

namespace Path

variable {p base : Path} {before ms : List Component} {absolute : Bool}
  {xs ys : List (List Char)} {c : Component}

/-! ## The stack of components -/

/-- Components of a normal form, the latest first: names, and below them the ways
up that lead out of where the path starts. -/
def IsStack (absolute : Bool) (before : List Component) : Prop :=
  ∃ (ups : Nat) (names : List String), (absolute = true → ups = 0) ∧
    (∀ n ∈ names, IsEntryName n) ∧ before = names.map .name ++ List.replicate ups .parent

/-- Nothing is a stack. -/
theorem isStack_nil (absolute : Bool) : IsStack absolute [] :=
  ⟨0, [], fun _ => rfl, by simp, rfl⟩

/-- One move takes a stack to a stack. -/
theorem isStack_normalStep (h : IsStack absolute before)
    (hc : c = .parent ∨ ∃ n, IsEntryName n ∧ c = .name n) :
    IsStack absolute (normalStep absolute before c) := by
  obtain ⟨ups, names, hups, hnames, rfl⟩ := h
  rcases hc with rfl | ⟨n, hn, rfl⟩
  · cases names with
    | cons m names => exact ⟨ups, names, hups, (List.forall_mem_cons.mp hnames).2, rfl⟩
    | nil =>
        cases absolute with
        | true =>
            obtain rfl := hups rfl
            exact isStack_nil true
        | false =>
            refine ⟨ups + 1, [], by simp, hnames, ?_⟩
            cases ups <;> rfl
  · exact ⟨ups, n :: names, hups, List.forall_mem_cons.mpr ⟨hn, hnames⟩, rfl⟩

/-- All moves take a stack to a stack. -/
theorem isStack_foldl (h : IsStack absolute before)
    (hms : ∀ c ∈ ms, c = .parent ∨ ∃ n, IsEntryName n ∧ c = .name n) :
    IsStack absolute (ms.foldl (normalStep absolute) before) := by
  induction ms generalizing before with
  | nil => exact h
  | cons c ms ih =>
      obtain ⟨hc, hms⟩ := List.forall_mem_cons.mp hms
      exact ih (isStack_normalStep h hc) hms

/-- The moves of a path leave a stack. -/
theorem isStack_moves (p : Path) :
    IsStack p.isAbsolute (p.moves.foldl (normalStep p.isAbsolute) []) :=
  isStack_foldl (isStack_nil _) fun _ => moves_cases

/-! ## Canonical texts -/

/-- A path in canonical form: the root, or ways up, and then names, with one
slash between neighbours. -/
structure IsCanonical (p : Path) (ups : Nat) (names : List String) : Prop where
  /-- The names can name entries: none of them stands for a move. -/
  isEntryName : ∀ n ∈ names, IsEntryName n
  /-- There are no ways up from the root. -/
  ups_eq_zero : p.isAbsolute = true → ups = 0
  /-- Nothing else is in the path. -/
  components_eq : p.components = (if p.isAbsolute then [.root] else []) ++
    (List.replicate ups .parent ++ names.map .name)
  /-- It is written without anything that does not count. -/
  toList_eq : p.text.toList = (if p.isAbsolute then ['/'] else []) ++
    slashed (List.replicate ups ['.', '.'] ++ names.map String.toList)

/-- A normal form starts where the path does. -/
theorem isAbsolute_normalize (p : Path) : p.normalize.isAbsolute = p.isAbsolute :=
  isAbsolute_ofComponents (areNormal_normalComponents p)

/-- **A normal form is canonical.** -/
theorem exists_isCanonical_normalize (p : Path) :
    ∃ ups names, p.normalize.IsCanonical ups names := by
  obtain ⟨ups, names, hups, hnames, hstack⟩ := isStack_moves p
  have hcomponents : p.normalComponents =
      List.replicate ups .parent ++ names.reverse.map .name := by
    rw [normalComponents_eq, hstack]
    simp
  refine ⟨ups, names.reverse, ?_, ?_, ?_, ?_⟩
  · simpa using hnames
  · rwa [isAbsolute_normalize]
  · rw [components_normalize, isAbsolute_normalize, hcomponents]
  · rw [isAbsolute_normalize, normalize, toList_ofComponents, hcomponents, List.map_append,
      List.map_replicate, List.map_map]
    rfl

/-! ## Normalising again -/

/-- Names are put on top of whatever is there. -/
theorem foldl_normalStep_map_name (names : List String) (before : List Component) :
    (names.map .name).foldl (normalStep absolute) before =
      (names.map .name).reverse ++ before := by
  induction names generalizing before with
  | nil => rfl
  | cons n names ih =>
      rw [List.map_cons, List.foldl_cons, ih, List.reverse_cons, List.append_assoc]
      rfl

/-- Ways up are piled up where no name is. -/
theorem foldl_normalStep_replicate (k j : Nat) :
    (List.replicate k .parent).foldl (normalStep false) (List.replicate j .parent) =
      List.replicate (k + j) .parent := by
  induction k generalizing j with
  | zero => simp
  | succ k ih =>
      have hstep : normalStep false (List.replicate j .parent) .parent =
          List.replicate (j + 1) .parent := by
        cases j <;> rfl
      rw [List.replicate_succ, List.foldl_cons, hstep, ih]
      congr 1
      omega

/-- **Moving along a stack builds it again.** -/
theorem foldl_normalStep_reverse (h : IsStack absolute before) :
    before.reverse.foldl (normalStep absolute) [] = before := by
  obtain ⟨ups, names, hups, -, rfl⟩ := h
  have hbottom : (List.replicate ups .parent).foldl (normalStep absolute) [] =
      List.replicate ups .parent := by
    cases absolute with
    | true =>
        rw [hups rfl]
        rfl
    | false => exact foldl_normalStep_replicate ups 0
  rw [List.reverse_append, List.reverse_replicate, List.foldl_append, hbottom, ← List.map_reverse,
    foldl_normalStep_map_name, ← List.map_reverse, List.reverse_reverse]

/-- The moves that are left leave the same when they are made again. -/
theorem foldl_normalComponents (p : Path) :
    p.normalComponents.foldl (normalStep p.isAbsolute) [] =
      p.moves.foldl (normalStep p.isAbsolute) [] := by
  rw [normalComponents_eq, foldl_normalStep_reverse (isStack_moves p)]

/-- A normal form moves by its own components. -/
theorem moves_normalize (p : Path) : p.normalize.moves = p.normalComponents :=
  moves_ofComponents (areNormal_normalComponents p)

/-- A normal form is what the moves of the path leave. -/
theorem normalize_eq (p : Path) : p.normalize =
    ofComponents p.isAbsolute (p.moves.foldl (normalStep p.isAbsolute) []).reverse := by
  rw [normalize, normalComponents_eq]

/-- **A normal form is its own normal form.** -/
theorem normalize_normalize (p : Path) : p.normalize.normalize = p.normalize := by
  rw [normalize_eq p.normalize, isAbsolute_normalize, moves_normalize, foldl_normalComponents,
    ← normalize_eq]

/-- **A base may be normalised before a path is taken from it.** -/
theorem normalize_join_normalize (base p : Path) :
    (base.normalize.join p).normalize = (base.join p).normalize := by
  cases habs : p.isAbsolute with
  | true => rw [join, join, habs, if_pos rfl, if_pos rfl]
  | false =>
      rw [normalize_eq, normalize_eq (base.join p), isAbsolute_join _ habs, isAbsolute_join _ habs,
        moves_join _ habs, moves_join _ habs, isAbsolute_normalize, moves_normalize,
        List.foldl_append, foldl_normalComponents, ← List.foldl_append]

/-! ## What is left of the text -/

/-- A move adds itself, or takes away what is there. -/
theorem reverse_normalStep_sublist (absolute : Bool) (before : List Component) (c : Component) :
    (normalStep absolute before c).reverse.Sublist (before.reverse ++ [c]) := by
  have hkept : (c :: before).reverse.Sublist (before.reverse ++ [c]) := by simp
  cases c with
  | root | current => exact List.sublist_append_left _ _
  | name n => exact hkept
  | parent =>
      cases before with
      | nil => cases absolute <;> simp [normalStep]
      | cons d before =>
          cases d with
          | name n => simp [normalStep]
          | root | current | parent => exact hkept

/-- Moves add themselves, or take away what is there. -/
theorem reverse_foldl_normalStep_sublist (absolute : Bool) (before ms : List Component) :
    (ms.foldl (normalStep absolute) before).reverse.Sublist (before.reverse ++ ms) := by
  induction ms generalizing before with
  | nil => simp
  | cons c ms ih =>
      have hstep := (reverse_normalStep_sublist absolute before c).append_right ms
      rw [List.append_assoc] at hstep
      exact (ih _).trans hstep

/-- The components of a normal form are moves of the path, in their order. -/
theorem normalComponents_sublist (p : Path) : p.normalComponents.Sublist p.moves := by
  rw [normalComponents_eq]
  exact reverse_foldl_normalStep_sublist p.isAbsolute [] p.moves

/-- Fewer names between slashes are fewer characters. -/
theorem slashed_sublist (h : xs.Sublist ys) : (slashed xs).Sublist (slashed ys) := by
  induction h with
  | slnil => exact List.Sublist.refl _
  | @cons xs ys y h ih =>
      by_cases hys : ys = []
      · subst hys
        rw [List.sublist_nil.mp h]
        exact List.nil_sublist _
      · rw [slashed_cons y hys]
        exact ih.trans ((List.sublist_cons_self _ _).trans (List.sublist_append_right _ _))
  | @cons_cons xs ys x h ih =>
      by_cases hys : ys = []
      · subst hys
        rw [List.sublist_nil.mp h]
      · by_cases hxs : xs = []
        · subst hxs
          rw [slashed_cons x hys]
          simp [slashed]
        · rw [slashed_cons x hxs, slashed_cons x hys]
          exact List.Sublist.append_left (ih.cons_cons '/') x

/-- A piece is written again from what it stands for. -/
theorem componentText_componentOf (piece : List Char) :
    componentText (componentOf piece) = piece := by
  unfold componentOf
  split
  · rename_i hdot
    exact hdot.symm
  · split
    · rename_i hdots
      exact hdots.symm
    · exact String.toList_ofList

/-- The normal form is written with pieces of the path. -/
theorem map_componentText_sublist (p : Path) :
    (p.normalComponents.map componentText).Sublist (movePieces p.text.toList) := by
  have hpieces : p.moves.map componentText = movePieces p.text.toList := by
    rw [moves, List.map_map]
    exact List.map_id'' componentText_componentOf _
  rw [← hpieces]
  exact (normalComponents_sublist p).map componentText

/-- Pieces that ask for moves, joined with slashes, are left of the text. -/
theorem slashed_movePieces_sublist (cs : List Char) : (slashed (movePieces cs)).Sublist cs := by
  have h := slashed_sublist (List.filter_sublist (p := isMove) (l := Text.splitAt '/' cs))
  rwa [slashed_splitAt] at h

/-- **The text of a normal form is what is left of the text of the path.** -/
theorem toList_normalize_sublist (p : Path) :
    p.normalize.text.toList.Sublist p.text.toList := by
  have hpieces := slashed_sublist (map_componentText_sublist p)
  rw [normalize, toList_ofComponents]
  cases habs : p.isAbsolute with
  | false => exact hpieces.trans (slashed_movePieces_sublist _)
  | true =>
      obtain ⟨ds, hds⟩ := List.head?_eq_some_iff.mp (beq_iff_eq.mp habs)
      rw [hds, show '/' :: ds = [] ++ '/' :: ds from rfl, movePieces_append_slash] at hpieces
      rw [hds]
      exact (hpieces.trans (slashed_movePieces_sublist ds)).cons_cons '/'

end Path

end ClientRegen
