import ClientRegen.FileTree.Basic
import Mathlib.Data.List.Infix

/-!
# File trees as maps

A tree is looked at as a map from locations to nodes.  A node says what kind of
entry stands at a location, and what a file or a link holds, but not what a
directory holds: that is said by the nodes at longer locations.

Looking up a name gives the entry that was put under it because names stand in
order, each once.  `Entry.WellFormed` carries this down the tree.  Replacing the
entry at a location keeps it, gives the new entry below the location, and
changes no node at any other place (`Entry.replaced_update`).
-/

namespace ClientRegen

/-- What stands at a location, apart from what a directory holds. -/
inductive TreeNode where
  /-- A regular file. -/
  | file (content : ByteArray) (executable : Bool)
  /-- A symbolic link. -/
  | link (target : String)
  /-- A directory. -/
  | dir

/-- The node of an entry. -/
def Entry.node : Entry → TreeNode
  | file content executable => .file content executable
  | link target => .link target
  | dir _ => .dir

/-- The node at a location. -/
def Entry.nodeAt? (e : Entry) (l : Location) : Option TreeNode :=
  (e.at? l).map Entry.node

/-- The entries of a directory stand in the order of their names, each name
once. -/
def Ordered (es : List (String × Entry)) : Prop :=
  es.Pairwise fun a b => a.1 < b.1

/-- A text that can name an entry of a directory. -/
structure IsEntryName (name : String) : Prop where
  /-- It is not empty. -/
  ne_empty : name ≠ ""
  /-- It holds no slash. -/
  slash_notMem : '/' ∉ name.toList
  /-- It does not stand for the directory itself. -/
  ne_dot : name ≠ "."
  /-- It does not stand for the directory around it. -/
  ne_dots : name ≠ ".."

/-- A tree whose directories are in order and name their entries. -/
inductive Entry.WellFormed : Entry → Prop
  | file (content : ByteArray) (executable : Bool) : WellFormed (.file content executable)
  | link (target : String) : WellFormed (.link target)
  | dir {es : List (String × Entry)} (hordered : Ordered es)
      (hname : ∀ p ∈ es, IsEntryName p.1) (hentry : ∀ p ∈ es, p.2.WellFormed) :
      WellFormed (.dir es)

variable {es : List (String × Entry)} {n m : String} {e x y d : Entry} {l k r : Location}
  {change : Option Entry → Option Entry}

instance (es : List (String × Entry)) : Decidable (Ordered es) :=
  inferInstanceAs (Decidable (es.Pairwise fun a b => a.1 < b.1))

instance (name : String) : Decidable (IsEntryName name) :=
  decidable_of_iff (name ≠ "" ∧ '/' ∉ name.toList ∧ name ≠ "." ∧ name ≠ "..")
    ⟨fun h => ⟨h.1, h.2.1, h.2.2.1, h.2.2.2⟩,
      fun h => ⟨h.ne_empty, h.slash_notMem, h.ne_dot, h.ne_dots⟩⟩

mutual

/-- Checks that a tree is well-formed. -/
def Entry.isWellFormed : Entry → Bool
  | .file _ _ => true
  | .link _ => true
  | .dir es => decide (Ordered es) && areWellFormed es

/-- Checks the names and the entries of a directory. -/
def areWellFormed : List (String × Entry) → Bool
  | [] => true
  | (name, e) :: es => decide (IsEntryName name) && e.isWellFormed && areWellFormed es

end

mutual

/-- Whether an entry is well-formed is decided by recursion on it. -/
theorem isWellFormed_iff : ∀ e : Entry, e.isWellFormed = true ↔ e.WellFormed
  | .file content executable => ⟨fun _ => .file content executable, fun _ => rfl⟩
  | .link target => ⟨fun _ => .link target, fun _ => rfl⟩
  | .dir es => by
      rw [Entry.isWellFormed, Bool.and_eq_true, decide_eq_true_eq, areWellFormed_iff es]
      constructor
      · rintro ⟨hordered, hentries⟩
        exact .dir hordered (fun p hp => (hentries p hp).1) fun p hp => (hentries p hp).2
      · rintro (_ | _ | ⟨hordered, hname, hentry⟩)
        exact ⟨hordered, fun p hp => ⟨hname p hp, hentry p hp⟩⟩

/-- The entries of a directory are decided one by one. -/
theorem areWellFormed_iff : ∀ es : List (String × Entry),
    areWellFormed es = true ↔ ∀ p ∈ es, IsEntryName p.1 ∧ p.2.WellFormed
  | [] => by simp [areWellFormed]
  | (name, e) :: es => by
      rw [areWellFormed, Bool.and_eq_true, Bool.and_eq_true, decide_eq_true_eq,
        isWellFormed_iff e, areWellFormed_iff es, List.forall_mem_cons]

end

instance (e : Entry) : Decidable e.WellFormed :=
  decidable_of_iff _ (isWellFormed_iff e)

/-! ## Names in order -/

/-- What is looked up is among the entries. -/
theorem mem_of_lookup (h : es.lookup n = some e) : (n, e) ∈ es := by
  obtain ⟨before, after, rfl, -⟩ := List.lookup_eq_some_iff.mp h
  simp

/-- In order, no entry hides another, so each is looked up under its name. -/
theorem Ordered.lookup_eq (h : Ordered es) (hmem : (n, e) ∈ es) : es.lookup n = some e := by
  obtain ⟨before, after, rfl⟩ := List.append_of_mem hmem
  refine List.lookup_eq_some_iff.mpr ⟨before, after, rfl, fun p hp => ?_⟩
  have hlt : p.1 < n := (List.pairwise_append.mp h).2.2 p hp (n, e) List.mem_cons_self
  simpa [bne_iff_ne] using (String.ne_of_lt hlt).symm

/-- What would stand before all entries is not among them. -/
theorem Ordered.lookup_eq_none (h : ∀ p ∈ es, n < p.1) : es.lookup n = none := by
  refine List.lookup_eq_none_iff.mpr fun p hp => ?_
  simpa [bne_iff_ne] using String.ne_of_lt (h p hp)

/-- Of two different names one stands before the other. -/
theorem lt_of_not_lt_of_ne (hlt : ¬ n < m) (hne : n ≠ m) : m < n := by
  rcases String.le_total n m with h | h
  · by_cases hmn : m < n
    · exact hmn
    · exact absurd (String.le_antisymm h (String.not_lt.mp hlt)) hne
  · exact String.not_le.mp fun hle => hne (String.le_antisymm hle h)

/-- An entry is passed over under another name. -/
theorem lookup_cons_of_ne (h : m ≠ n) : ((n, e) :: es).lookup m = es.lookup m := by
  simp [List.lookup_cons, beq_false_of_ne h]

/-- What is put in front of other names is seen under its name. -/
theorem lookup_toList_append (found : Option Entry) (h : es.lookup n = none) (m : String) :
    ((found.map fun e => (n, e)).toList ++ es).lookup m =
      if m = n then found else es.lookup m := by
  by_cases hm : m = n
  · subst hm
    cases found with
    | none => simp [h]
    | some e => simp
  · cases found with
    | none => simp [hm]
    | some e => simpa [hm] using lookup_cons_of_ne hm

/-- **A change under a name is seen under that name only.** -/
theorem lookup_alter (h : Ordered es) (n : String) (change : Option Entry → Option Entry)
    (m : String) : (Entry.alter n change es).lookup m =
      if m = n then change (es.lookup n) else es.lookup m := by
  induction es with
  | nil => simpa [Entry.alter] using lookup_toList_append (change none) List.lookup_nil m
  | cons p es ih =>
      obtain ⟨k, e⟩ := p
      rw [Ordered, List.pairwise_cons] at h
      rw [Entry.alter]
      by_cases hnk : n = k
      · subst hnk
        rw [if_pos rfl, lookup_toList_append _ (Ordered.lookup_eq_none h.1), List.lookup_cons_self]
        by_cases hm : m = n
        · rw [if_pos hm, if_pos hm]
        · rw [if_neg hm, if_neg hm, lookup_cons_of_ne hm]
      · rw [if_neg hnk]
        by_cases hlt : n < k
        · have hnone : ((k, e) :: es).lookup n = none := by
            refine Ordered.lookup_eq_none fun p hp => ?_
            rcases List.mem_cons.mp hp with rfl | hp
            · exact hlt
            · exact String.lt_trans hlt (h.1 p hp)
          rw [if_pos hlt, lookup_toList_append _ hnone, hnone]
        · rw [if_neg hlt, lookup_cons_of_ne hnk]
          by_cases hmk : m = k
          · rw [hmk, List.lookup_cons_self, if_neg (Ne.symm hnk), List.lookup_cons_self]
          · rw [lookup_cons_of_ne hmk, lookup_cons_of_ne hmk, ih h.2]

/-- A change adds nothing under other names. -/
theorem mem_alter {p : String × Entry} (h : p ∈ Entry.alter n change es) :
    p ∈ es ∨ p.1 = n := by
  have hnew : ∀ found : Option Entry, p ∈ (found.map fun e => (n, e)).toList → p.1 = n := by
    intro found hp
    cases found with
    | none => simp at hp
    | some e => simp_all
  induction es with
  | nil => exact Or.inr (hnew _ h)
  | cons q es ih =>
      obtain ⟨k, e⟩ := q
      rw [Entry.alter] at h
      split at h
      · rcases List.mem_append.mp h with hp | hp
        · exact Or.inr (hnew _ hp)
        · exact Or.inl (List.mem_cons_of_mem _ hp)
      · split at h
        · rcases List.mem_append.mp h with hp | hp
          · exact Or.inr (hnew _ hp)
          · exact Or.inl hp
        · rcases List.mem_cons.mp h with rfl | hp
          · exact Or.inl List.mem_cons_self
          · exact (ih hp).imp_left (List.mem_cons_of_mem _)

/-- A change keeps names in order. -/
theorem Ordered.alter (h : Ordered es) (n : String) (change : Option Entry → Option Entry) :
    Ordered (Entry.alter n change es) := by
  have hput : ∀ (found : Option Entry) {es}, Ordered es → (∀ p ∈ es, n < p.1) →
      Ordered ((found.map fun e => (n, e)).toList ++ es) := by
    intro found es hes hlt
    cases found with
    | none => exact hes
    | some e => exact List.pairwise_cons.mpr ⟨hlt, hes⟩
  induction es with
  | nil => simpa [Entry.alter] using hput (change none) .nil (by simp)
  | cons p es ih =>
      obtain ⟨k, e⟩ := p
      have hsorted := h
      rw [Ordered, List.pairwise_cons] at h
      rw [Entry.alter]
      by_cases hnk : n = k
      · subst hnk
        rw [if_pos rfl]
        exact hput _ h.2 h.1
      · rw [if_neg hnk]
        by_cases hlt : n < k
        · rw [if_pos hlt]
          refine hput _ hsorted fun p hp => ?_
          rcases List.mem_cons.mp hp with rfl | hp
          · exact hlt
          · exact String.lt_trans hlt (h.1 p hp)
        · rw [if_neg hlt]
          refine List.pairwise_cons.mpr ⟨fun p hp => ?_, ih h.2⟩
          rcases mem_alter hp with hp | hp
          · exact h.1 p hp
          · exact hp ▸ lt_of_not_lt_of_ne hlt hnk

/-! ## Locations -/

namespace Entry

@[simp] theorem at?_nil : e.at? [] = some e := by
  rw [at?]

/-- A location is followed by its first name, and from there on. -/
theorem at?_cons (e : Entry) (n : String) (l : Location) :
    e.at? (n :: l) = (e.entries.lookup n).bind (·.at? l) := by
  rw [at?]

/-- A location is reached step by step. -/
theorem at?_append (e : Entry) (l r : Location) :
    e.at? (l ++ r) = (e.at? l).bind (·.at? r) := by
  induction l generalizing e with
  | nil => simp
  | cons n l ih =>
      rw [List.cons_append, at?_cons, at?_cons]
      cases e.entries.lookup n with
      | none => rfl
      | some d => exact ih d

theorem nodeAt?_nil (e : Entry) : e.nodeAt? [] = some e.node := by
  rw [nodeAt?, at?_nil]
  rfl

/-- What stands below a place is what stands below the entry there. -/
theorem nodeAt?_append (h : e.at? l = some x) (r : Location) :
    e.nodeAt? (l ++ r) = x.nodeAt? r := by
  rw [nodeAt?, at?_append, h]
  rfl

/-- A file is told by its node. -/
theorem nodeAt?_eq_file_iff {content : ByteArray} {executable : Bool} :
    e.nodeAt? l = some (.file content executable) ↔ e.at? l = some (.file content executable) := by
  rw [nodeAt?, Option.map_eq_some_iff]
  constructor
  · rintro ⟨x, hx, hnode⟩
    cases x with
    | file content' executable' =>
        cases hnode
        exact hx
    | link target => cases hnode
    | dir es => cases hnode
  · intro h
    exact ⟨_, h, rfl⟩

/-- Below a directory a location leads into the entry that it names first. -/
theorem nodeAt?_dir_cons (es : List (String × Entry)) (n : String) (l : Location) :
    (Entry.dir es).nodeAt? (n :: l) = (es.lookup n).bind (·.nodeAt? l) := by
  rw [nodeAt?, at?_cons, Option.map_bind]
  rfl

/-- Only a directory holds anything. -/
theorem exists_dir_of_at?_cons (h : e.at? (n :: l) = some x) :
    ∃ es d, e = .dir es ∧ es.lookup n = some d ∧ d.at? l = some x := by
  rw [at?_cons] at h
  obtain ⟨d, hd, hx⟩ := Option.bind_eq_some_iff.mp h
  cases e with
  | file | link => simp [entries] at hd
  | dir es => exact ⟨es, d, rfl, hd, hx⟩

/-- What is in a well-formed directory has a name and is well-formed. -/
theorem WellFormed.of_lookup (h : (Entry.dir es).WellFormed) (hd : es.lookup n = some d) :
    IsEntryName n ∧ d.WellFormed := by
  cases h with
  | dir hordered hname hentry =>
      exact ⟨hname _ (mem_of_lookup hd), hentry _ (mem_of_lookup hd)⟩

/-- What stands below a well-formed tree is well-formed. -/
theorem WellFormed.of_at? (h : e.WellFormed) (hx : e.at? l = some x) : x.WellFormed := by
  induction l generalizing e with
  | nil => exact Option.some.inj hx ▸ h
  | cons n l ih =>
      obtain ⟨es, d, rfl, hd, hx⟩ := exists_dir_of_at?_cons hx
      exact ih (h.of_lookup hd).2 hx

/-- The names that lead to an entry of a well-formed tree can name entries. -/
theorem WellFormed.isEntryName (h : e.WellFormed) (hx : e.at? l = some x) :
    ∀ n ∈ l, IsEntryName n := by
  induction l generalizing e with
  | nil => simp
  | cons n l ih =>
      obtain ⟨es, d, rfl, hd, hx⟩ := exists_dir_of_at?_cons hx
      exact List.forall_mem_cons.mpr ⟨(h.of_lookup hd).1, ih (h.of_lookup hd).2 hx⟩

/-- A directory is well-formed again after one of its entries has changed. -/
theorem WellFormed.alter (h : (Entry.dir es).WellFormed) (hd : es.lookup n = some d)
    (hy : ∀ y, change (some d) = some y → y.WellFormed) :
    (Entry.dir (Entry.alter n change es)).WellFormed := by
  have hname := (h.of_lookup hd).1
  cases h with
  | dir hordered hnames hentry =>
      have hsorted := hordered.alter n change
      refine .dir hsorted (fun p hp => ?_) (fun p hp => ?_)
      · rcases mem_alter hp with hp | hp
        · exact hnames p hp
        · exact hp ▸ hname
      · have hlookup := hsorted.lookup_eq hp
        rw [lookup_alter hordered] at hlookup
        by_cases hpn : p.1 = n
        · rw [if_pos hpn, hd] at hlookup
          exact hy p.2 hlookup
        · rw [if_neg hpn] at hlookup
          exact hentry _ (mem_of_lookup hlookup)

/-! ## Replacing an entry -/

/-- A tree in which another entry stands at a location. -/
structure Replaced (e : Entry) (l : Location) (y e' : Entry) : Prop where
  /-- The tree is well-formed. -/
  wellFormed : e'.WellFormed
  /-- The new entry stands at the location. -/
  at?_append : ∀ r, e'.at? (l ++ r) = y.at? r
  /-- Nothing changes at other places. -/
  nodeAt?_eq : ∀ k, ¬ l <+: k → e'.nodeAt? k = e.nodeAt? k

/-- Changing an entry of a directory replaces it. -/
theorem Replaced.alter (h : (Entry.dir es).WellFormed) (hd : es.lookup n = some d)
    (hy : change (some d) = some y) (hr : Replaced d l x y) :
    Replaced (.dir es) (n :: l) x (.dir (Entry.alter n change es)) := by
  have hordered : Ordered es := by
    cases h with
    | dir hordered => exact hordered
  have hlookup := lookup_alter hordered n change
  refine ⟨h.alter hd fun z hz => ?_, fun r => ?_, fun k hk => ?_⟩
  · rw [hy, Option.some.injEq] at hz
    exact hz ▸ hr.wellFormed
  · rw [List.cons_append, at?_cons, entries, hlookup, if_pos rfl, hd, hy]
    exact hr.at?_append r
  · cases k with
    | nil => rfl
    | cons m k =>
        rw [nodeAt?, nodeAt?, at?_cons, at?_cons, entries, entries, hlookup]
        by_cases hm : m = n
        · subst hm
          rw [if_pos rfl, hd, hy]
          exact hr.nodeAt?_eq k fun hprefix => hk (List.cons_prefix_cons.mpr ⟨rfl, hprefix⟩)
        · rw [if_neg hm]

/-- **A change of an entry is seen where it stands and nowhere else.** -/
theorem replaced_update (h : e.WellFormed) (hx : e.at? l = some x) (hy : change (some x) = some y)
    (hwf : y.WellFormed) : Replaced e l y (e.update change l) := by
  induction l generalizing e with
  | nil =>
      rw [at?_nil, Option.some.injEq] at hx
      subst hx
      rw [update, hy]
      exact ⟨hwf, fun r => rfl, fun k hk => absurd List.nil_prefix hk⟩
  | cons n l ih =>
      obtain ⟨es, d, rfl, hd, hx⟩ := exists_dir_of_at?_cons hx
      have hr := ih (h.of_lookup hd).2 hx
      -- the last name is changed by its directory, which could also remove it
      cases l with
      | nil =>
          rw [at?_nil, Option.some.injEq] at hx
          subst hx
          rw [update, hy] at hr
          rw [update]
          exact hr.alter h hd hy
      | cons m l =>
          rw [update.eq_3 _ _ _ _ (by simp)]
          exact hr.alter h hd rfl

/-- A file in place of a file changes the node where it stands only: there is
nothing below. -/
theorem Replaced.nodeAt?_of_file {e' : Entry} {content content' : ByteArray}
    {executable executable' : Bool} (h : Replaced e l (.file content' executable') e')
    (hx : e.at? l = some (.file content executable)) :
    e'.nodeAt? l = some (.file content' executable') ∧ ∀ k, k ≠ l → e'.nodeAt? k = e.nodeAt? k := by
  have hnew := h.at?_append
  constructor
  · have hself := hnew []
    rw [List.append_nil] at hself
    rw [nodeAt?_eq_file_iff, hself, at?_nil]
  · intro k hk
    by_cases hprefix : l <+: k
    · obtain ⟨r, rfl⟩ := hprefix
      cases r with
      | nil => exact absurd (List.append_nil l) hk
      | cons n r =>
          rw [nodeAt?_append hx, nodeAt?, hnew, nodeAt?, at?_cons, at?_cons]
          rfl
    · exact h.nodeAt?_eq k hprefix

end Entry

end ClientRegen
