import ClientRegen.Proofs.FileTree.Locating

/-!
# The ways that paths take

A path that is spelled as a location leads there, because no link is on the way
(`locate_of_spells`): only directories hold anything.

In general a path goes through links and back to directories around them.  What
stands at the locations that it passes (`passed`) decides where it leads, so as
long as that is still there the path leads to the same location
(`locate_of_passed`), whatever else has changed.
-/

namespace ClientRegen

variable {root root' e : Entry} {follow : Bool} {links : Nat} {here l : Location}
  {steps names rest : List String} {w w' : World} {p : Path} {es : List (String × Entry)}
  {n name : String} {f : FileFault}

/-! ## Straight ways -/

/-- A name that a directory of the operating system can hold. -/
def IsStep (n : String) : Prop :=
  IsEntryName n ∧ n.utf8ByteSize ≤ nameLimit

instance (n : String) : Decidable (IsStep n) :=
  inferInstanceAs (Decidable (_ ∧ _))

/-- Names that lead to a directory are walked one after another. -/
theorem walk_append_of_dir (h : root.at? (here ++ names) = some (.dir es))
    (hnames : ∀ n ∈ names, IsStep n) (follow : Bool) (links : Nat) (rest : List String) :
    walk root follow links here (names ++ rest) = walk root follow links (here ++ names) rest := by
  induction names generalizing here with
  | nil => simp
  | cons n names ih =>
      rw [List.forall_mem_cons] at hnames
      obtain ⟨⟨hname, hlimit⟩, hnames⟩ := hnames
      have hat := h
      rw [Entry.at?_append] at hat
      obtain ⟨e, hhere, hat⟩ := Option.bind_eq_some_iff.mp hat
      obtain ⟨es', d, rfl, hlookup, hd⟩ := Entry.exists_dir_of_at?_cons hat
      -- what stands under the name is a directory, because it leads to one
      obtain ⟨es'', rfl⟩ : ∃ es'', d = .dir es'' := by
        cases names with
        | nil =>
            rw [Entry.at?_nil, Option.some.injEq] at hd
            exact ⟨es, hd⟩
        | cons m names =>
            obtain ⟨es'', -, rfl, -, -⟩ := Entry.exists_dir_of_at?_cons hd
            exact ⟨es'', rfl⟩
      have hmove : here ++ n :: names = (here ++ [n]) ++ names := by simp
      rw [hmove] at h
      rw [List.cons_append, walk, hhere, hmove, ← ih h hnames]
      simp only [hname.ne_dot, hname.ne_dots, Nat.not_lt.mpr hlimit, hlookup, if_false]

/-- The last step to an entry that is no link arrives at it. -/
theorem walk_last (hhere : root.at? here = some (.dir es)) (hn : IsStep n)
    (he : es.lookup n = some e) (hlink : ∀ target, e ≠ .link target) :
    walk root follow links here [n] = .ok (.present (here ++ [n]) e) := by
  obtain ⟨hname, hlimit⟩ := hn
  rw [walk, hhere]
  simp only [hname.ne_dot, hname.ne_dots, Nat.not_lt.mpr hlimit, he, if_false]
  cases e with
  | file content executable => rfl
  | link target => exact absurd rfl (hlink target)
  | dir es' =>
      dsimp only
      rw [walk, at?_concat hhere he]

/-- The last step to a name that nothing stands under finds it vacant. -/
theorem walk_last_vacant (hhere : root.at? here = some (.dir es)) (hn : IsStep n)
    (he : es.lookup n = none) : walk root follow links here [n] = .ok (.vacant here n) := by
  obtain ⟨hname, hlimit⟩ := hn
  rw [walk, hhere]
  simp [hname.ne_dot, hname.ne_dots, Nat.not_lt.mpr hlimit, he]

/-- A step in between to a name that nothing stands under fails. -/
theorem walk_missing (hhere : root.at? here = some (.dir es)) (hn : IsStep n)
    (he : es.lookup n = none) (hrest : rest ≠ []) :
    walk root follow links here (n :: rest) = .error .notFound := by
  obtain ⟨hname, hlimit⟩ := hn
  rw [walk, hhere]
  simp [hname.ne_dot, hname.ne_dots, Nat.not_lt.mpr hlimit, he, hrest]

/-- A path that is spelled as a location: it starts at the root and goes by
names alone. -/
structure Path.Spells (p : Path) (l : Location) : Prop where
  /-- The path starts at the root. -/
  isAbsolute_eq : p.isAbsolute = true
  /-- It asks for the names of the location. -/
  stepsOf_eq : stepsOf p.text = l
  /-- The names can be held by directories. -/
  isStep : ∀ n ∈ l, IsStep n
  /-- The operating system takes the text of the path. -/
  any_eq : (p.text.toList.any fun c => c.toNat == 0) = false
  /-- The text is not too long. -/
  utf8ByteSize_le : p.text.utf8ByteSize ≤ pathLimit

instance (p : Path) (l : Location) : Decidable (p.Spells l) :=
  decidable_of_iff (p.isAbsolute = true ∧ stepsOf p.text = l ∧ (∀ n ∈ l, IsStep n) ∧
      (p.text.toList.any fun c => c.toNat == 0) = false ∧ p.text.utf8ByteSize ≤ pathLimit)
    ⟨fun h => ⟨h.1, h.2.1, h.2.2.1, h.2.2.2.1, h.2.2.2.2⟩,
      fun h => ⟨h.1, h.2, h.3, h.4, h.5⟩⟩

theorem locate_eq_walk (h : p.Spells l) (w : World) (follow : Bool) :
    w.locate p follow = walk w.root follow linkLimit [] l := by
  have hne : p.text ≠ "" := by
    intro hempty
    have habs := h.isAbsolute_eq
    rw [Path.isAbsolute, hempty] at habs
    exact absurd habs (by decide)
  rw [World.locate, h.any_eq, if_neg Bool.false_ne_true, if_neg hne,
    if_neg (Nat.not_lt.mpr h.utf8ByteSize_le), h.isAbsolute_eq, if_pos rfl, h.stepsOf_eq]

/-- **A path that is spelled as a location leads there.** -/
theorem locate_of_spells (h : p.Spells l) (hat : w.root.at? l = some e)
    (hlink : ∀ target, e ≠ .link target) (follow : Bool) :
    w.locate p follow = .ok (.present l e) := by
  rw [locate_eq_walk h]
  rcases List.eq_nil_or_concat l with rfl | ⟨front, n, rfl⟩
  · rw [walk, hat]
  · rw [List.concat_eq_append] at h hat ⊢
    have hfront := hat
    rw [Entry.at?_append] at hfront
    obtain ⟨d, hd, hn⟩ := Option.bind_eq_some_iff.mp hfront
    obtain ⟨es, e', rfl, hlookup, he'⟩ := Entry.exists_dir_of_at?_cons hn
    rw [Entry.at?_nil, Option.some.injEq] at he'
    subst he'
    have hsteps := List.forall_mem_append.mp h.isStep
    rw [walk_append_of_dir (by simpa using hd) hsteps.1, List.nil_append,
      walk_last hd (hsteps.2 n List.mem_cons_self) hlookup hlink]

/-- A text in a file at the location that a path is spelled as is read. -/
theorem readText_of_spells {l : Location} {text : String} {executable : Bool} (h : p.Spells l)
    (hat : w.root.at? l = some (.file text.toUTF8 executable)) : w.readText p = .ok text :=
  readText_eq_ok_iff.mpr ⟨l, executable, locate_of_spells h hat (by simp) true⟩

/-- A path that is spelled as a vacant name of a directory leads to it. -/
theorem locate_vacant_of_spells (h : p.Spells (l ++ [n])) (hat : w.root.at? l = some (.dir es))
    (hn : es.lookup n = none) (follow : Bool) : w.locate p follow = .ok (.vacant l n) := by
  have hsteps := List.forall_mem_append.mp h.isStep
  rw [locate_eq_walk h, walk_append_of_dir (by simpa using hat) hsteps.1, List.nil_append,
    walk_last_vacant hat (hsteps.2 n List.mem_cons_self) hn]

/-! ## Ways in general -/

/-- The locations at which a walk looks that follows links: the directories that
it goes through, the links, and where it arrives. -/
def passed (root : Entry) (links : Nat) (here : Location) : List String → List Location
  | [] => [here]
  | step :: rest =>
    here ::
      if step = "." then passed root links here rest
      else if step = ".." then passed root links here.dropLast rest
      else
        match root.at? (here ++ [step]) with
        | some (.link target) =>
          match links with
          | 0 => [here ++ [step]]
          | links + 1 =>
            (here ++ [step]) ::
              passed root links (if Path.isAbsolute ⟨target⟩ then [] else here)
                (stepsOf target ++ rest)
        | _ => passed root links (here ++ [step]) rest
termination_by steps => (links, steps.length)

/-- The locations that a path passes. -/
def World.passedBy (w : World) (p : Path) : List Location :=
  passed w.root linkLimit (if p.isAbsolute then [] else w.cwd) (stepsOf p.text)

/-- A straight way to a directory passes the directories around it. -/
theorem prefix_of_mem_passed {k : Location} (h : root.at? (here ++ names) = some (.dir es))
    (hnames : ∀ n ∈ names, IsStep n) (hk : k ∈ passed root links here names) :
    k <+: here ++ names := by
  induction names generalizing here with
  | nil =>
      rw [passed, List.mem_singleton] at hk
      rw [hk, List.append_nil]
  | cons n names ih =>
      rw [List.forall_mem_cons] at hnames
      obtain ⟨⟨hname, -⟩, hnames⟩ := hnames
      have hmove : here ++ n :: names = (here ++ [n]) ++ names := by simp
      have hat := h
      rw [hmove, Entry.at?_append] at hat
      obtain ⟨d, hd, hrest⟩ := Option.bind_eq_some_iff.mp hat
      -- no link is on the way, because only directories hold anything
      have hlink : ∀ target, d ≠ .link target := by
        rintro target rfl
        cases names with
        | nil => simp at hrest
        | cons m names => simp [Entry.at?_cons, Entry.entries] at hrest
      rw [passed, List.mem_cons, if_neg hname.ne_dot, if_neg hname.ne_dots, hd] at hk
      rcases hk with rfl | hk
      · exact List.prefix_append _ _
      · rw [hmove] at h ⊢
        cases d with
        | file | dir => exact ih h hnames hk
        | link target => exact absurd rfl (hlink target)

theorem exists_dir_of_nodeAt? (h : root.nodeAt? here = some .dir) :
    ∃ es, root.at? here = some (.dir es) := by
  obtain ⟨e, he, hnode⟩ := Option.map_eq_some_iff.mp h
  cases e with
  | file | link => cases hnode
  | dir es => exact ⟨es, he⟩

/-- What stands at a location below a directory is found under its name. -/
theorem exists_lookup_of_nodeAt? {node : TreeNode} (h : root.nodeAt? here = some .dir)
    (hn : root.nodeAt? (here ++ [n]) = some node) :
    ∃ es e, root.at? here = some (.dir es) ∧ es.lookup n = some e ∧ e.node = node := by
  obtain ⟨es, hes⟩ := exists_dir_of_nodeAt? h
  rw [Entry.nodeAt?_append hes, Entry.nodeAt?_dir_cons] at hn
  obtain ⟨e, he, hnode⟩ := Option.bind_eq_some_iff.mp hn
  exact ⟨es, e, hes, he, by simpa [Entry.nodeAt?] using hnode⟩

/-- Two nodes of one kind: they differ at most in what a file holds. -/
inductive TreeNode.SameKind : TreeNode → TreeNode → Prop
  | file (old new : ByteArray) (executable : Bool) :
      SameKind (.file old executable) (.file new executable)
  | link (target : String) : SameKind (.link target) (.link target)
  | dir : SameKind .dir .dir

theorem TreeNode.SameKind.refl (node : TreeNode) : node.SameKind node := by
  cases node <;> constructor

section Kept

variable {R : TreeNode → TreeNode → Prop}

theorem nodeAt?_eq_dir_of_kept (hR : ∀ a b, R a b → a.SameKind b)
    (h : root.at? here = some (.dir es))
    (hkept : ∀ node, root.nodeAt? here = some node →
      ∃ node', root'.nodeAt? here = some node' ∧ R node node') :
    root'.nodeAt? here = some .dir := by
  obtain ⟨node', hnode', hrel⟩ := hkept .dir (by rw [Entry.nodeAt?, h]; rfl)
  cases hR _ _ hrel
  exact hnode'

/-- **The nodes at the locations that a walk passes decide where it arrives,**
up to what the files hold that it leads to. -/
theorem walk_of_passed (hR : ∀ a b, R a b → a.SameKind b)
    (h : walk root true links here steps = .ok (.present l e))
    (hkept : ∀ k ∈ passed root links here steps, ∀ node, root.nodeAt? k = some node →
      ∃ node', root'.nodeAt? k = some node' ∧ R node node') :
    ∃ e', walk root' true links here steps = .ok (.present l e') ∧ R e.node e'.node := by
  fun_induction walk root true links here steps with
  | case1 links here x hhere =>
      cases h
      obtain ⟨node', hnode', hrel⟩ := hkept l (by simp [passed]) e.node
        (by rw [Entry.nodeAt?, hhere]; rfl)
      obtain ⟨e', he', rfl⟩ := Option.map_eq_some_iff.mp hnode'
      exact ⟨e', by rw [walk, he'], hrel⟩
  | case6 links here rest es hhere ih =>
      simp only [passed, if_true, List.forall_mem_cons] at hkept
      obtain ⟨es', hhere'⟩ := exists_dir_of_nodeAt? (nodeAt?_eq_dir_of_kept hR hhere hkept.1)
      obtain ⟨e', hwalk, hnode⟩ := ih h hkept.2
      refine ⟨e', ?_, hnode⟩
      rw [walk, hhere']
      simpa using hwalk
  | case7 links here rest es hhere hdot ih =>
      simp only [passed, hdot, if_true, if_false, List.forall_mem_cons] at hkept
      obtain ⟨es', hhere'⟩ := exists_dir_of_nodeAt? (nodeAt?_eq_dir_of_kept hR hhere hkept.1)
      obtain ⟨e', hwalk, hnode⟩ := ih h hkept.2
      refine ⟨e', ?_, hnode⟩
      rw [walk, hhere']
      simpa [hdot] using hwalk
  | case11 links here step es hhere hdot hdots hlimit content executable hstep =>
      cases h
      have hat := at?_concat hhere hstep
      simp only [passed, hdot, hdots, hat, if_false, List.forall_mem_cons] at hkept
      obtain ⟨node', hnode', hrel⟩ := hkept.2.1 _ (by rw [Entry.nodeAt?, hat]; rfl)
      obtain ⟨es', e', hhere', hstep', rfl⟩ :=
        exists_lookup_of_nodeAt? (nodeAt?_eq_dir_of_kept hR hhere hkept.1) hnode'
      refine ⟨e', ?_, hrel⟩
      have hkind := hR _ _ hrel
      rw [walk, hhere']
      cases e' with
      | file content' executable' => simp [hdot, hdots, hlimit, hstep']
      | link target => cases hkind
      | dir es'' => cases hkind
  | case13 links here step rest es hhere hdot hdots hlimit es₁ hstep ih =>
      have hat := at?_concat hhere hstep
      simp only [passed, hdot, hdots, hat, if_false, List.forall_mem_cons] at hkept
      -- the way goes on in the directory, where it looks first of all
      have hself : here ++ [step] ∈ passed root links (here ++ [step]) rest := by
        cases rest <;> simp [passed]
      obtain ⟨es', e', hhere', hstep', hnode⟩ := exists_lookup_of_nodeAt?
        (nodeAt?_eq_dir_of_kept hR hhere hkept.1) (nodeAt?_eq_dir_of_kept hR hat (hkept.2 _ hself))
      obtain ⟨x, hwalk, hx⟩ := ih h hkept.2
      refine ⟨x, ?_, hx⟩
      rw [walk, hhere']
      cases e' with
      | file content' executable' => cases hnode
      | link target => cases hnode
      | dir es'' => simpa [hdot, hdots, hlimit, hstep'] using hwalk
  | case14 links here step rest es hhere hdot hdots hlimit target hstep hend =>
      simp at hend
  | case16 here step rest es hhere hdot hdots hlimit target hstep hend links ih =>
      have hat := at?_concat hhere hstep
      simp only [passed, hdot, hdots, hat, if_false, List.forall_mem_cons] at hkept
      obtain ⟨node', hnode', hrel⟩ := hkept.2.1 (.link target) (by rw [Entry.nodeAt?, hat]; rfl)
      obtain ⟨es', e', hhere', hstep', rfl⟩ :=
        exists_lookup_of_nodeAt? (nodeAt?_eq_dir_of_kept hR hhere hkept.1) hnode'
      obtain ⟨x, hwalk, hx⟩ := ih h hkept.2.2
      refine ⟨x, ?_, hx⟩
      have hkind := hR _ _ hrel
      rw [walk, hhere']
      cases e' with
      | file content' executable' => cases hkind
      | link target' =>
          cases hkind
          simpa [hdot, hdots, hlimit, hstep'] using hwalk
      | dir es'' => cases hkind
  | _ => cases h

/-- **A path leads where it led, if everything that it passes is of the kind it was.** -/
theorem locate_of_kept (hR : ∀ a b, R a b → a.SameKind b)
    (h : w.locate p true = .ok (.present l e)) (hcwd : w'.cwd = w.cwd)
    (hkept : ∀ k ∈ w.passedBy p, ∀ node, w.root.nodeAt? k = some node →
      ∃ node', w'.root.nodeAt? k = some node' ∧ R node node') :
    ∃ e', w'.locate p true = .ok (.present l e') ∧ R e.node e'.node := by
  obtain ⟨hnul, hempty, hlong, hwalk⟩ := locate_eq_ok_iff.mp h
  obtain ⟨e', hwalk', hnode⟩ := walk_of_passed hR hwalk hkept
  exact ⟨e', locate_eq_ok_iff.mpr ⟨hnul, hempty, hlong, hcwd ▸ hwalk'⟩, hnode⟩

end Kept

/-- Where everything that a path passes is still there, the path leads to the
same location. -/
theorem locate_of_passed (h : w.locate p true = .ok (.present l e)) (hcwd : w'.cwd = w.cwd)
    (hkept : ∀ k ∈ w.passedBy p, ∀ node, w.root.nodeAt? k = some node →
      w'.root.nodeAt? k = some node) :
    ∃ e', w'.locate p true = .ok (.present l e') ∧ e'.node = e.node := by
  obtain ⟨e', hlocate, hnode⟩ := locate_of_kept (R := Eq) (fun a b hab => hab ▸ .refl a) h hcwd
    fun k hk node hnode => ⟨node, hkept k hk node hnode, rfl⟩
  exact ⟨e', hlocate, hnode.symm⟩

end ClientRegen
