import ClientRegen.Proofs.FileTree.Resolution

/-!
# Ways within a directory

A path that is taken from a directory leads through the directory first
(`walk_append_of_walk`), and nowhere if there is none
(`exists_walk_append_eq_error`).  From there on it stays below, unless it goes
back up or through a link: the walk is one in the entries of the directory alone,
and nothing else in the tree has a say in it (`walk_below`).

So where a path leads that is taken from a directory is known from the entries
of the directory (`locate_join`).
-/

namespace ClientRegen

variable {root sub e : Entry} {follow : Bool} {links links' : Nat} {here l lo r : Location}
  {steps rest : List String} {w w' : World} {base q : Path} {es : List (String × Entry)}

/-! ## Trees without links -/

/-- A well-formed tree in which no node is a link holds no link. -/
theorem Entry.WellFormed.linkFree (h : e.WellFormed)
    (hnode : ∀ l target, e.nodeAt? l ≠ some (.link target)) : e.LinkFree := by
  induction h with
  | file content executable => exact .file content executable
  | link target => exact absurd (Entry.nodeAt?_nil _) (hnode [] target)
  | @dir es hordered hname hentry ih =>
      refine .dir fun p hp => ih p hp fun l target hl => hnode (p.1 :: l) target ?_
      rw [Entry.nodeAt?_dir_cons, hordered.lookup_eq hp, Option.bind_some, hl]

theorem Entry.LinkFree.nodeAt?_ne (h : e.LinkFree) (l : Location) (target : String) :
    e.nodeAt? l ≠ some (.link target) := by
  intro hl
  obtain ⟨x, hx, hnode⟩ := Option.map_eq_some_iff.mp hl
  cases h.of_at? hx <;> cases hnode

/-! ## Walks through a directory -/

/-- Steps that lead to a directory are taken before those that come after
them. -/
theorem walk_append_of_walk (h : walk root true links here steps = .ok (.present l (.dir es))) :
    ∃ left, ∀ rest, walk root true links here (steps ++ rest) = walk root true left l rest := by
  fun_induction walk root true links here steps with
  | case1 links here x hhere =>
      cases h
      exact ⟨links, fun rest => rfl⟩
  | case6 links here steps es' hhere ih =>
      obtain ⟨left, hleft⟩ := ih h
      refine ⟨left, fun rest => ?_⟩
      rw [List.cons_append, walk, hhere, ← hleft]
      simp
  | case7 links here steps es' hhere hdot ih =>
      obtain ⟨left, hleft⟩ := ih h
      refine ⟨left, fun rest => ?_⟩
      rw [List.cons_append, walk, hhere, ← hleft]
      simp [hdot]
  | case13 links here step steps es' hhere hdot hdots hlimit es'' hstep ih =>
      obtain ⟨left, hleft⟩ := ih h
      refine ⟨left, fun rest => ?_⟩
      rw [List.cons_append, walk, hhere, ← hleft]
      simp [hdot, hdots, hlimit, hstep]
  | case16 here step steps es' hhere hdot hdots hlimit target hstep hend links ih =>
      obtain ⟨left, hleft⟩ := ih h
      refine ⟨left, fun rest => ?_⟩
      rw [List.cons_append, walk, hhere, ← hleft, List.append_assoc]
      simp [hdot, hdots, hlimit, hstep]
  | case14 => simp_all
  | _ => cases h

/-- Steps that lead to no directory lead nowhere when others come after them. -/
theorem exists_walk_append_eq_error (hrest : rest ≠ [])
    (h : ∀ l es, walk root true links here steps ≠ .ok (.present l (.dir es))) :
    ∃ fault, walk root true links here (steps ++ rest) = .error fault := by
  obtain ⟨next, others, rfl⟩ := List.exists_cons_of_ne_nil hrest
  fun_induction walk root true links here steps with
  | case1 links here x hhere =>
      cases x with
      | file content executable => exact ⟨.notDirectory, by rw [List.nil_append, walk, hhere]⟩
      | link target => exact ⟨.notDirectory, by rw [List.nil_append, walk, hhere]⟩
      | dir es => exact absurd rfl (h here es)
  | case6 links here steps es' hhere ih =>
      obtain ⟨fault, hfault⟩ := ih h
      exact ⟨fault, by rw [List.cons_append, walk, hhere]; simpa using hfault⟩
  | case7 links here steps es' hhere hdot ih =>
      obtain ⟨fault, hfault⟩ := ih h
      exact ⟨fault, by rw [List.cons_append, walk, hhere]; simpa [hdot] using hfault⟩
  | case13 links here step steps es' hhere hdot hdots hlimit es'' hstep ih =>
      obtain ⟨fault, hfault⟩ := ih h
      refine ⟨fault, ?_⟩
      rw [List.cons_append, walk, hhere]
      simpa [hdot, hdots, hlimit, hstep] using hfault
  | case16 here step steps es' hhere hdot hdots hlimit target hstep hend links ih =>
      obtain ⟨fault, hfault⟩ := ih h
      refine ⟨fault, ?_⟩
      rw [List.append_assoc] at hfault
      rw [List.cons_append, walk, hhere]
      simpa [hdot, hdots, hlimit, hstep] using hfault
  | case2 links here hhere => exact ⟨.notFound, by rw [List.nil_append, walk, hhere]⟩
  | case14 => simp_all
  -- the other walks fail at their next step, or one step later
  | _ =>
      rw [List.cons_append, walk]
      simp [*]

/-- A dot at the end asks for a directory and leads to it. -/
theorem walk_dot_iff : walk root true links here (steps ++ ["."]) = .ok (.present l (.dir es)) ↔
    walk root true links here steps = .ok (.present l (.dir es)) := by
  by_cases hdir : ∃ l es, walk root true links here steps = .ok (.present l (.dir es))
  · obtain ⟨l', es', hwalk⟩ := hdir
    obtain ⟨left, hleft⟩ := walk_append_of_walk hwalk
    have hdot : walk root true left l' ["."] = .ok (.present l' (.dir es')) := by
      have hat := at?_of_walk hwalk
      rw [walk, hat]
      simp only [if_true]
      rw [walk, hat]
    rw [hleft, hdot, hwalk]
  · push Not at hdir
    obtain ⟨fault, hfault⟩ := exists_walk_append_eq_error (List.cons_ne_nil "." []) hdir
    rw [hfault]
    exact iff_of_false (by simp) (hdir l es)

/-- A place as it is seen from the root, if it is known from a directory. -/
def Place.under (lo : Location) : Place → Place
  | .present l e => .present (lo ++ l) e
  | .vacant l n => .vacant (lo ++ l) n

/-- **A walk below a location is one in what stands there,** if no link and no
step back up leads out of it. -/
theorem walk_below (hat : root.at? lo = some sub) (hfree : sub.LinkFree) (hup : ".." ∉ steps)
    (links' : Nat) : walk root true links' (lo ++ here) steps =
      (walk sub true links here steps).map (Place.under lo) := by
  have hsame : ∀ k, root.at? (lo ++ k) = sub.at? k := fun k => by
    rw [Entry.at?_append, hat, Option.bind_some]
  fun_induction walk sub true links here steps with
  | case6 links here steps es hhere ih =>
      rw [walk, hsame, hhere, ← ih (fun h => hup (List.mem_cons_of_mem _ h))]
      simp
  | case7 => simp at hup
  | case13 links here step steps es hhere hdot hdots hlimit es' hstep ih =>
      rw [walk, hsame, hhere, ← ih (fun h => hup (List.mem_cons_of_mem _ h))]
      simp [hdot, hdots, hlimit, hstep]
  | case14 => simp_all
  | case15 here step steps es hhere hdot hdots hlimit target hstep =>
      exact absurd rfl ((hfree.of_at? (at?_concat hhere hstep)).ne_link target)
  | case16 here step steps es hhere hdot hdots hlimit target hstep =>
      exact absurd rfl ((hfree.of_at? (at?_concat hhere hstep)).ne_link target)
  | _ =>
      rw [walk, hsame]
      simp [*, Except.map, Place.under]

/-! ## Paths from a directory -/

/-- A path that goes on below a directory by names alone. -/
structure Path.Descends (q : Path) : Prop where
  /-- It does not start at the root. -/
  isAbsolute_eq : q.isAbsolute = false
  /-- It asks for a step. -/
  text_ne : q.text ≠ ""
  /-- It moves by names. -/
  areNormal : Path.AreNormal true q.moves

theorem Path.Descends.dots_notMem (hq : q.Descends) : ".." ∉ stepsOf q.text := by
  intro hmem
  have hparent : Component.parent ∈ q.moves := by
    rw [← stepMoves_stepsOf]
    exact List.mem_map.mpr ⟨"..", List.mem_filter.mpr ⟨hmem, by decide⟩, rfl⟩
  rcases hq.areNormal _ hparent with ⟨habs, -⟩ | ⟨n, -, hn⟩
  · cases habs
  · cases hn

/-- The steps of a path that is taken from a base come after those of the base,
whose slash at the end asks for nothing then. -/
theorem exists_stepsOf_join (hbase : base.text ≠ "") (hq : q.Descends) :
    ∃ steps, (stepsOf base.text = steps ∨ stepsOf base.text = steps ++ ["."]) ∧
      stepsOf (base.join q).text = steps ++ stepsOf q.text := by
  have hlast : (base.stem ++ q.text.toList).getLast? = q.text.toList.getLast? :=
    List.getLast?_append_of_ne_nil _ fun h => hq.text_ne (String.toList_eq_nil_iff.mp h)
  refine ⟨((Text.splitAt '/' base.text.toList).filter (· != [])).map String.ofList, ?_, ?_⟩
  · unfold stepsOf
    dsimp only
    split
    · exact Or.inr rfl
    · exact Or.inl rfl
  · have hsplit : (Text.splitAt '/' (base.stem ++ q.text.toList)).filter (· != []) =
        (Text.splitAt '/' base.text.toList).filter (· != []) ++
          (Text.splitAt '/' q.text.toList).filter (· != []) := by
      rw [Path.stem]
      by_cases hslash : base.text.toList.getLast? = some '/'
      · obtain ⟨front, hfront⟩ := List.getLast?_eq_some_iff.mp hslash
        rw [if_pos (Or.inr hslash), hfront, List.append_assoc, List.singleton_append,
          splitAt_append_sep, splitAt_append_sep]
        simp [Text.splitAt]
      · rw [if_neg (not_or.mpr ⟨hbase, hslash⟩), List.append_assoc, List.singleton_append,
          splitAt_append_sep, List.filter_append]
    unfold stepsOf
    dsimp only
    rw [Path.toList_join base hq.isAbsolute_eq, hlast, hsplit, List.map_append]
    split
    · rw [List.append_assoc]
    · rfl

/-- A path that leads to a directory leads there by all its steps but a dot at
the end. -/
theorem directory?_eq_some_iff_walk
    (hsteps : stepsOf base.text = steps ∨ stepsOf base.text = steps ++ ["."]) :
    w.directory? base = some (l, es) ↔
      (base.text.toList.any fun c => c.toNat == 0) = false ∧ base.text ≠ "" ∧
        base.text.utf8ByteSize ≤ pathLimit ∧
        walk w.root true linkLimit (if base.isAbsolute then [] else w.cwd) steps =
          .ok (.present l (.dir es)) := by
  rw [directory?_eq_some_iff, locate_eq_ok_iff]
  rcases hsteps with hsteps | hsteps
  · rw [hsteps]
  · rw [hsteps, walk_dot_iff]

theorem sublist_join (base : Path) (hq : q.Descends) :
    base.text.toList.Sublist (base.join q).text.toList := by
  have hstem : base.text.toList.Sublist base.stem := by
    rw [Path.stem]
    split
    · exact List.Sublist.refl _
    · exact List.sublist_append_left _ _
  rw [Path.toList_join base hq.isAbsolute_eq]
  exact hstem.trans (List.sublist_append_left _ _)

theorem text_join_ne (base : Path) (hq : q.Descends) : (base.join q).text ≠ "" := by
  intro hempty
  have htext := Path.toList_join base hq.isAbsolute_eq
  rw [hempty] at htext
  exact hq.text_ne (String.toList_eq_nil_iff.mp (List.append_eq_nil_iff.mp htext.symm).2)

/-- Where a path leads from a directory with these entries, as it is seen from
the directory, if the operating system is given this text. -/
def locateIn (es : List (String × Entry)) (text : String) (q : Path) : Except FileFault Place :=
  if text.toList.any (fun c => c.toNat == 0) then .error .nulInPath
  else if text.utf8ByteSize > pathLimit then .error .nameTooLong
  else walk (.dir es) true 0 [] (stepsOf q.text)

/-- **A path that is taken from a directory leads where the entries of the
directory say.** -/
theorem locate_join (hq : q.Descends) (hdir : w.directory? base = some (lo, es))
    (hfree : (Entry.dir es).LinkFree) :
    w.locate (base.join q) true = (locateIn es (base.join q).text q).map (Place.under lo) := by
  have hbase : base.text ≠ "" := (locate_eq_ok_iff.mp (directory?_eq_some_iff.mp hdir)).2.1
  obtain ⟨steps, hsteps, hjoin⟩ := exists_stepsOf_join hbase hq
  obtain ⟨-, -, -, hwalk⟩ := (directory?_eq_some_iff_walk hsteps).mp hdir
  obtain ⟨left, hleft⟩ := walk_append_of_walk hwalk
  have hbelow : walk w.root true left (lo ++ []) (stepsOf q.text) =
      (walk (.dir es) true 0 [] (stepsOf q.text)).map (Place.under lo) :=
    walk_below (at?_of_walk hwalk) hfree hq.dots_notMem left
  rw [List.append_nil] at hbelow
  unfold World.locate locateIn
  rw [if_neg (text_join_ne base hq), Path.isAbsolute_join base hq.isAbsolute_eq, hjoin, hleft,
    hbelow]
  split
  · rfl
  · split <;> rfl

/-- A path that is taken from no directory leads nowhere. -/
theorem exists_locate_join_eq_error (hbase : base.text ≠ "") (hq : q.Descends)
    (hnone : w.directory? base = none) :
    ∃ fault, w.locate (base.join q) true = .error fault := by
  obtain ⟨steps, hsteps, hjoin⟩ := exists_stepsOf_join hbase hq
  have hsublist := sublist_join base hq
  cases hresult : w.locate (base.join q) true with
  | error fault => exact ⟨fault, rfl⟩
  | ok place =>
      obtain ⟨hnul, -, hlong, hwalk⟩ := locate_eq_ok_iff.mp hresult
      have hnowhere : ∀ l es, walk w.root true linkLimit
          (if base.isAbsolute then [] else w.cwd) steps ≠ .ok (.present l (.dir es)) := by
        intro l es hdir
        rw [(directory?_eq_some_iff_walk hsteps).mpr ⟨?_, hbase, ?_, hdir⟩] at hnone
        · cases hnone
        · rw [List.any_eq_false] at hnul ⊢
          exact fun c hc => hnul c (hsublist.subset hc)
        · exact (utf8ByteSize_le_of_sublist hsublist).trans hlong
      obtain ⟨fault, hfault⟩ := exists_walk_append_eq_error (stepsOf_ne_nil hq.text_ne) hnowhere
      rw [Path.isAbsolute_join base hq.isAbsolute_eq, hjoin, hfault] at hwalk
      cases hwalk

/-- **A path that goes on below a directory leads to the location of its
names.** -/
theorem at?_of_locateIn {text : String} (hfree : (Entry.dir es).LinkFree) (hq : q.Descends)
    (h : locateIn es text q = .ok (.present r e)) :
    (Entry.dir es).at? r = some e ∧ r.map Component.name = q.moves := by
  unfold locateIn at h
  split at h
  · cases h
  · split at h
    · cases h
    · obtain ⟨hmoves, -⟩ := foldl_normalStep_of_walk hfree h
        (fun step hstep => isPathStep_of_mem_stepsOf hstep) (by simp)
      rw [stepMoves_stepsOf, List.map_nil, List.reverse_nil,
        Path.foldl_normalStep_names hq.areNormal, List.append_nil] at hmoves
      exact ⟨at?_of_walk h, (List.reverse_injective hmoves).symm⟩

end ClientRegen
