import ClientRegen.Clear
import ClientRegen.Proofs.FileTree.Locating

/-!
# What clearing leaves

An entry stays when it is on the list, when a directory around it is, or when
something in it is.  `Stays` says this of the tree as it was, and the recursion
on the tree leaves exactly the entries that stay (`leaves_clearEntry`): a
directory is left over exactly when something in it stays, because what stays
below an entry keeps all the directories on the way (`stays_cons`).

A link is a leaf of the tree, so nothing is followed, and the directory that is
cleared is replaced at its own location, so nothing changes anywhere else
(`clear_leaves`).
-/

namespace ClientRegen

variable {ignored : List String} {e x : Entry} {es : List (String × Entry)} {n : String}
  {d r : Location} {left : Option Entry}

/-- The path to a location below the cleared directory: its names with slashes
between them. -/
def pathBelow (l : Location) : String :=
  String.intercalate "/" l

/-- The path of an entry is not empty when its name is not. -/
theorem pathBelow_concat_ne (hn : n ≠ "") (d : Location) : pathBelow (d ++ [n]) ≠ "" := by
  unfold pathBelow
  cases d with
  | nil => simpa using hn
  | cons m d =>
      rw [String.intercalate_append_of_ne_nil (by simp) (by simp)]
      simp [hn]

/-- The path of an entry is that of its directory with its name. -/
theorem relativePath_pathBelow (hd : pathBelow d = "" → d = []) (n : String) :
    relativePath (pathBelow d) n = pathBelow (d ++ [n]) := by
  unfold relativePath
  split
  · rename_i hempty
    rw [hd hempty]
    simp [pathBelow]
  · rename_i hempty
    have hne : d ≠ [] := by
      rintro rfl
      exact hempty (by simp [pathBelow])
    rw [pathBelow, pathBelow, String.intercalate_append_of_ne_nil hne (by simp)]
    simp

/-! ## What stays -/

/-- Whether the entry at `r` below `e` stays, where `e` stands at `d` below the
cleared directory: it is on the list, it is below an entry on the list, or an
entry below it is on the list. -/
def Stays (ignored : List String) (e : Entry) (d r : Location) : Prop :=
  (∃ a, d ++ a ≠ [] ∧ a <+: r ∧ pathBelow (d ++ a) ∈ ignored) ∨
    ∃ s, s ≠ [] ∧ (e.at? (r ++ s)).isSome ∧ pathBelow (d ++ (r ++ s)) ∈ ignored

/-- What stays in a directory that is not on the list stays in one of its
entries. -/
theorem stays_cons (hd : d ≠ [] → pathBelow d ∉ ignored) (hx : e.entries.lookup n = some x) :
    Stays ignored e d (n :: r) ↔ Stays ignored x (d ++ [n]) r := by
  have hat : ∀ s, e.at? (n :: r ++ s) = x.at? (r ++ s) := by
    intro s
    rw [List.cons_append, Entry.at?_cons, hx, Option.bind_some]
  constructor
  · rintro (⟨a, hne, hprefix, hmem⟩ | ⟨s, hs, hsome, hmem⟩)
    · cases a with
      | nil =>
          rw [List.append_nil] at hne hmem
          exact absurd hmem (hd hne)
      | cons m a =>
          obtain ⟨rfl, htail⟩ := List.cons_prefix_cons.mp hprefix
          exact Or.inl ⟨a, by simp, htail, by simpa using hmem⟩
    · exact Or.inr ⟨s, hs, hat s ▸ hsome, by simpa using hmem⟩
  · rintro (⟨a, hne, hprefix, hmem⟩ | ⟨s, hs, hsome, hmem⟩)
    · exact Or.inl ⟨n :: a, by simp, List.cons_prefix_cons.mpr ⟨rfl, hprefix⟩, by simpa using hmem⟩
    · exact Or.inr ⟨s, hs, (hat s).symm ▸ hsome, by simpa using hmem⟩

/-- A directory that is not on the list stays when one of its entries does. -/
theorem stays_nil (hd : pathBelow d ∉ ignored) :
    Stays ignored e d [] ↔ ∃ n x, e.entries.lookup n = some x ∧ Stays ignored x (d ++ [n]) [] := by
  constructor
  · rintro (⟨a, -, hprefix, hmem⟩ | ⟨s, hs, hsome, hmem⟩)
    · rw [List.prefix_nil.mp hprefix, List.append_nil] at hmem
      exact absurd hmem hd
    · obtain ⟨n, s, rfl⟩ := List.exists_cons_of_ne_nil hs
      obtain ⟨y, hy⟩ := Option.isSome_iff_exists.mp hsome
      rw [List.nil_append, Entry.at?_cons] at hy
      obtain ⟨x, hx, hy⟩ := Option.bind_eq_some_iff.mp hy
      refine ⟨n, x, hx, ?_⟩
      cases s with
      | nil => exact Or.inl ⟨[], by simp, List.prefix_rfl, by simpa using hmem⟩
      | cons m s => exact Or.inr ⟨m :: s, by simp, by simp [hy], by simpa using hmem⟩
  · rintro ⟨n, x, hx, hstays⟩
    have hat : ∀ s, e.at? (n :: s) = x.at? s := by
      intro s
      rw [Entry.at?_cons, hx, Option.bind_some]
    rcases hstays with ⟨a, -, hprefix, hmem⟩ | ⟨s, hs, hsome, hmem⟩
    · rw [List.prefix_nil.mp hprefix] at hmem
      exact Or.inr ⟨[n], by simp, by simp [hat], by simpa using hmem⟩
    · exact Or.inr ⟨n :: s, by simp, by simpa [hat] using hsome, by simpa using hmem⟩

/-! ## The entries of a directory -/

/-- What is left of the entries of a directory is what is left of each of
them. -/
theorem clearEntries_eq (ignored : List String) (directory : String)
    (es : List (String × Entry)) : (clearEntries ignored directory es).1 =
      es.filterMap fun p =>
        (clearEntry ignored (relativePath directory p.1) p.2).1.map fun x => (p.1, x) := by
  induction es with
  | nil => simp [clearEntries]
  | cons p es ih =>
      have hcons : (clearEntries ignored directory (p :: es)).1 =
          ((clearEntry ignored (relativePath directory p.1) p.2).1.map fun x => (p.1, x)).toList ++
            (clearEntries ignored directory es).1 := by
        rw [clearEntries]
      rw [hcons, ih, List.filterMap_cons]
      cases (clearEntry ignored (relativePath directory p.1) p.2).1 <;> rfl

/-- A name in a filtered directory is looked up in the directory first. -/
theorem Ordered.lookup_filterMap (h : Ordered es) (f : String → Entry → Option Entry)
    (n : String) : (es.filterMap fun p => (f p.1 p.2).map fun x => (p.1, x)).lookup n =
      (es.lookup n).bind (f n) := by
  induction es with
  | nil => rfl
  | cons p es ih =>
      obtain ⟨m, e⟩ := p
      rw [Ordered, List.pairwise_cons] at h
      by_cases hn : n = m
      · subst hn
        have hnone : es.lookup n = none := Ordered.lookup_eq_none h.1
        rw [List.lookup_cons_self]
        cases hf : f n e with
        | none => simp [hf, ih h.2, hnone]
        | some x => simp [hf]
      · rw [lookup_cons_of_ne hn, ← ih h.2]
        cases hf : f m e with
        | none => simp [hf]
        | some x => simpa [hf] using lookup_cons_of_ne hn

/-! ## The recursion on the tree -/

/-- What is left of an entry that stands at `d` below the cleared directory. -/
structure Leaves (ignored : List String) (e : Entry) (d : Location) (left : Option Entry) :
    Prop where
  /-- What is left is well-formed. -/
  wellFormed : ∀ x, left = some x → x.WellFormed
  /-- What stays is as it was. -/
  of_stays : ∀ r, Stays ignored e d r → left.bind (·.nodeAt? r) = e.nodeAt? r
  /-- What does not stay is gone. -/
  of_not_stays : ∀ r, ¬ Stays ignored e d r → left.bind (·.nodeAt? r) = none

/-- An entry on the list is left as it is. -/
theorem leaves_of_mem (h : e.WellFormed) (hne : d ≠ []) (hmem : pathBelow d ∈ ignored) :
    Leaves ignored e d (some e) := by
  have hstays : ∀ r, Stays ignored e d r := fun r =>
    Or.inl ⟨[], by simpa using hne, List.nil_prefix, by simpa using hmem⟩
  exact ⟨fun x hx => Option.some.inj hx ▸ h, fun r _ => rfl, fun r hr => absurd (hstays r) hr⟩

/-- A file or a link that is not on the list is removed. -/
theorem leaves_none (hentries : e.entries = []) (hmem : pathBelow d ∉ ignored) :
    Leaves ignored e d none := by
  have hcons : ∀ n s, e.at? (n :: s) = none := by
    intro n s
    rw [Entry.at?_cons, hentries]
    rfl
  refine ⟨by simp, fun r hr => ?_, fun r _ => rfl⟩
  cases r with
  | nil =>
      obtain ⟨n, x, hx, -⟩ := (stays_nil hmem).mp hr
      simp [hentries] at hx
  | cons n r => simp [Entry.nodeAt?, hcons]

/-- What is left in a directory is well-formed, and under each name stands what
is left of the entry there, if that is so for each entry. -/
theorem leaves_lookup (h : (Entry.dir es).WellFormed) (hd : pathBelow d = "" → d = [])
    (hentries : ∀ p ∈ es,
      Leaves ignored p.2 (d ++ [p.1]) (clearEntry ignored (pathBelow (d ++ [p.1])) p.2).1) :
    (Entry.dir (clearEntries ignored (pathBelow d) es).1).WellFormed ∧
      (∀ n, es.lookup n = none → (clearEntries ignored (pathBelow d) es).1.lookup n = none) ∧
      ∀ n x, es.lookup n = some x →
        Leaves ignored x (d ++ [n]) ((clearEntries ignored (pathBelow d) es).1.lookup n) := by
  cases h with
  | dir hordered hname _ =>
      have hlookup := hordered.lookup_filterMap fun n x =>
        (clearEntry ignored (relativePath (pathBelow d) n) x).1
      have hsub : ∀ q ∈ (clearEntries ignored (pathBelow d) es).1, ∃ p ∈ es, q.1 = p.1 ∧
          (clearEntry ignored (pathBelow (d ++ [p.1])) p.2).1 = some q.2 := by
        intro q hq
        rw [clearEntries_eq] at hq
        obtain ⟨p, hp, hpq⟩ := List.mem_filterMap.mp hq
        obtain ⟨x, hx, rfl⟩ := Option.map_eq_some_iff.mp hpq
        rw [relativePath_pathBelow hd] at hx
        exact ⟨p, hp, rfl, hx⟩
      rw [← clearEntries_eq] at hlookup
      refine ⟨.dir ?_ (fun q hq => ?_) (fun q hq => ?_), fun n hn => ?_, fun n x hx => ?_⟩
      · rw [Ordered, clearEntries_eq]
        refine List.Pairwise.filterMap _ (fun p p' hlt q hq q' hq' => ?_) hordered
        obtain ⟨x, -, rfl⟩ := Option.map_eq_some_iff.mp hq
        obtain ⟨x', -, rfl⟩ := Option.map_eq_some_iff.mp hq'
        exact hlt
      · obtain ⟨p, hp, heq, -⟩ := hsub q hq
        exact heq ▸ hname p hp
      · obtain ⟨p, hp, -, hx⟩ := hsub q hq
        exact (hentries p hp).wellFormed q.2 hx
      · rw [hlookup, hn, Option.bind_none]
      · rw [hlookup, hx, Option.bind_some, relativePath_pathBelow hd]
        exact hentries (n, x) (mem_of_lookup hx)

/-- **A directory that is not on the list is left with what stays in it,** and
goes when nothing does. -/
theorem leaves_dir (hmem : pathBelow d ∉ ignored) {kept : List (String × Entry)}
    (hwf : (Entry.dir kept).WellFormed)
    (hnone : ∀ n, es.lookup n = none → kept.lookup n = none)
    (hsome : ∀ n x, es.lookup n = some x → Leaves ignored x (d ++ [n]) (kept.lookup n)) :
    Leaves ignored (.dir es) d (if kept = [] then none else some (.dir kept)) := by
  have hcons : ∀ n r, (if kept = [] then none else some (Entry.dir kept)).bind
      (·.nodeAt? (n :: r)) = (kept.lookup n).bind (·.nodeAt? r) := by
    intro n r
    by_cases hnil : kept = []
    · simp [hnil]
    · rw [if_neg hnil, Option.bind_some, Entry.nodeAt?_dir_cons]
  refine ⟨fun x hx => ?_, fun r hr => ?_, fun r hr => ?_⟩
  · by_cases hnil : kept = []
    · simp [hnil] at hx
    · rw [if_neg hnil, Option.some.injEq] at hx
      exact hx ▸ hwf
  · cases r with
    | nil =>
        obtain ⟨n, x, hx, hstays⟩ := (stays_nil hmem).mp hr
        have hleft := (hsome n x hx).of_stays [] hstays
        have hne : kept ≠ [] := by
          rintro rfl
          simp [Entry.nodeAt?] at hleft
        rw [if_neg hne]
        rfl
    | cons n r =>
        rw [hcons, Entry.nodeAt?_dir_cons]
        cases hx : es.lookup n with
        | none => rw [hnone n hx]
        | some x => exact (hsome n x hx).of_stays r ((stays_cons (fun _ => hmem) hx).mp hr)
  · cases r with
    | nil =>
        have hnil : kept = [] := by
          by_contra hne
          obtain ⟨⟨n, y⟩, others, hkept⟩ := List.exists_cons_of_ne_nil hne
          have hy : kept.lookup n = some y := by rw [hkept, List.lookup_cons_self]
          cases hx : es.lookup n with
          | none => simp [hnone n hx] at hy
          | some x =>
              have hgone := (hsome n x hx).of_not_stays []
                fun hstays => hr ((stays_nil hmem).mpr ⟨n, x, hx, hstays⟩)
              simp [hy, Entry.nodeAt?] at hgone
        rw [if_pos hnil, Option.bind_none]
    | cons n r =>
        rw [hcons]
        cases hx : es.lookup n with
        | none => rw [hnone n hx, Option.bind_none]
        | some x =>
            exact (hsome n x hx).of_not_stays r
              fun hstays => hr ((stays_cons (fun _ => hmem) hx).mpr hstays)

/-- **Clearing leaves what stays.** -/
theorem leaves_clearEntry (h : e.WellFormed) (hne : d ≠ []) (hd : pathBelow d ≠ "") :
    Leaves ignored e d (clearEntry ignored (pathBelow d) e).1 := by
  have hon : isIgnored (pathBelow d) ignored = true ↔ pathBelow d ∈ ignored := by
    simp [isIgnored]
  induction h generalizing d with
  | file content executable =>
      by_cases hmem : pathBelow d ∈ ignored
      · rw [clearEntry, if_pos (hon.mpr hmem)]
        exact leaves_of_mem (.file content executable) hne hmem
      · rw [clearEntry, if_neg (fun h => hmem (hon.mp h))]
        exact leaves_none rfl hmem
  | link target =>
      by_cases hmem : pathBelow d ∈ ignored
      · rw [clearEntry, if_pos (hon.mpr hmem)]
        exact leaves_of_mem (.link target) hne hmem
      · rw [clearEntry, if_neg (fun h => hmem (hon.mp h))]
        exact leaves_none rfl hmem
  | @dir es hordered hname hentry ih =>
      have hwf : (Entry.dir es).WellFormed := .dir hordered hname hentry
      by_cases hmem : pathBelow d ∈ ignored
      · rw [clearEntry, if_pos (hon.mpr hmem)]
        exact leaves_of_mem hwf hne hmem
      · have hentries : ∀ p ∈ es, Leaves ignored p.2 (d ++ [p.1])
            (clearEntry ignored (pathBelow (d ++ [p.1])) p.2).1 := fun p hp =>
          ih p hp (by simp) (pathBelow_concat_ne (hname p hp).ne_empty d) (by simp [isIgnored])
        obtain ⟨hkept, hnone, hsome⟩ := leaves_lookup hwf (fun hempty => absurd hempty hd) hentries
        have hleft := leaves_dir hmem hkept hnone hsome
        -- whether anything is left in the directory decides whether it goes
        rw [clearEntry, if_neg (fun h => hmem (hon.mp h))]
        split
        · rename_i report hclear
          rwa [hclear, if_pos rfl] at hleft
        · rename_i kept report hnil hclear
          rwa [hclear, if_neg hnil] at hleft

/-! ## The cleared tree -/

/-- Whether the entry at `r` below the directory at a location stays when the
directory is cleared: the path of the entry or of a directory around it is on
the list, or that of an entry in it is. -/
def Survives (ignored : List String) (root : Entry) (l r : Location) : Prop :=
  (∃ a, a ≠ [] ∧ a <+: r ∧ pathBelow a ∈ ignored) ∨
    ∃ s, s ≠ [] ∧ (root.at? (l ++ (r ++ s))).isSome ∧ pathBelow (r ++ s) ∈ ignored

/-- A tree in which the directory at a location has been cleared. -/
structure Cleared (ignored : List String) (root : Entry) (l : Location) (root' : Entry) :
    Prop where
  /-- The tree is well-formed. -/
  wellFormed : root'.WellFormed
  /-- The directory itself is still there. -/
  nodeAt?_eq_dir : root'.nodeAt? l = some .dir
  /-- Of the entries below it those are left that stay. -/
  isSome_iff : ∀ r, r ≠ [] → (root.nodeAt? (l ++ r)).isSome →
    ((root'.nodeAt? (l ++ r)).isSome ↔ Survives ignored root l r)
  /-- What is left is as it was. -/
  nodeAt?_eq_some : ∀ k node, root'.nodeAt? k = some node → root.nodeAt? k = some node
  /-- Nothing changes outside the directory. -/
  nodeAt?_eq : ∀ k, (∀ r, r ≠ [] → k ≠ l ++ r) → root'.nodeAt? k = root.nodeAt? k

/-- What survives below a location is what stays in the directory there. -/
theorem survives_iff {root : Entry} {l : Location} (hl : root.at? l = some e) (r : Location) :
    Survives ignored root l r ↔ Stays ignored e [] r := by
  unfold Survives Stays
  simp only [List.nil_append, Entry.at?_append root l, hl, Option.bind_some]

/-- Below the cleared directory stands what stays. -/
theorem leaves_below {kept : List (String × Entry)}
    (hnone : ∀ n, es.lookup n = none → kept.lookup n = none)
    (hsome : ∀ n x, es.lookup n = some x → Leaves ignored x ([] ++ [n]) (kept.lookup n))
    (hr : r ≠ []) :
    (Stays ignored (.dir es) [] r → (Entry.dir kept).nodeAt? r = (Entry.dir es).nodeAt? r) ∧
      (¬ Stays ignored (.dir es) [] r → (Entry.dir kept).nodeAt? r = none) := by
  obtain ⟨n, r, rfl⟩ := List.exists_cons_of_ne_nil hr
  rw [Entry.nodeAt?_dir_cons, Entry.nodeAt?_dir_cons]
  cases hx : es.lookup n with
  | none =>
      rw [hnone n hx]
      exact ⟨fun _ => rfl, fun _ => rfl⟩
  | some x =>
      have hstays : Stays ignored (.dir es) [] (n :: r) ↔ Stays ignored x ([] ++ [n]) r :=
        stays_cons (fun hne => absurd rfl hne) hx
      rw [hstays]
      exact ⟨(hsome n x hx).of_stays r, (hsome n x hx).of_not_stays r⟩

/-- **A directory is cleared by putting what stays in its place.** -/
theorem cleared_put {root : Entry} {l : Location} (h : root.WellFormed)
    (hl : root.at? l = some (.dir es)) :
    Cleared ignored root l (root.put l (.dir (clearEntries ignored "" es).1)) := by
  have hwf : (Entry.dir es).WellFormed := h.of_at? hl
  have hentries : ∀ p ∈ es, Leaves ignored p.2 ([] ++ [p.1])
      (clearEntry ignored (pathBelow ([] ++ [p.1])) p.2).1 := by
    intro p hp
    cases hwf with
    | dir _ hname hentry =>
        exact leaves_clearEntry (hentry p hp) (by simp)
          (pathBelow_concat_ne (hname p hp).ne_empty [])
  obtain ⟨hkept, hnone, hsome⟩ := leaves_lookup (d := []) hwf (fun _ => rfl) hentries
  have hempty : pathBelow [] = "" := String.intercalate_nil
  rw [hempty] at hkept hnone hsome
  generalize (clearEntries ignored "" es).1 = kept at hkept hnone hsome
  have hreplaced : Entry.Replaced root l (.dir kept) (root.put l (.dir kept)) :=
    Entry.replaced_update h hl rfl hkept
  have hnew : ∀ r, (root.put l (.dir kept)).nodeAt? (l ++ r) = (Entry.dir kept).nodeAt? r := by
    intro r
    rw [Entry.nodeAt?, hreplaced.at?_append]
    rfl
  have hsame : ∀ k, (∀ r, r ≠ [] → k ≠ l ++ r) →
      (root.put l (.dir kept)).nodeAt? k = root.nodeAt? k := by
    intro k hk
    by_cases hprefix : l <+: k
    · obtain ⟨r, rfl⟩ := hprefix
      have hr : r = [] := by
        by_contra hr
        exact hk r hr rfl
      rw [hnew, Entry.nodeAt?_append hl, hr]
      rfl
    · exact hreplaced.nodeAt?_eq k hprefix
  refine ⟨hreplaced.wellFormed, ?_, fun r hr hold => ?_, fun k node hk => ?_, hsame⟩
  · have hself := hnew []
    rw [List.append_nil] at hself
    exact hself
  · rw [Entry.nodeAt?_append hl] at hold
    rw [hnew, survives_iff hl]
    by_cases hstays : Stays ignored (.dir es) [] r
    · rw [(leaves_below hnone hsome hr).1 hstays]
      exact iff_of_true hold hstays
    · rw [(leaves_below hnone hsome hr).2 hstays]
      exact iff_of_false (by simp) hstays
  · by_cases hout : ∀ r, r ≠ [] → k ≠ l ++ r
    · rw [← hsame k hout, hk]
    · push Not at hout
      obtain ⟨r, hr, rfl⟩ := hout
      rw [hnew] at hk
      rw [Entry.nodeAt?_append hl]
      by_cases hstays : Stays ignored (.dir es) [] r
      · rw [← (leaves_below hnone hsome hr).1 hstays, hk]
      · rw [(leaves_below hnone hsome hr).2 hstays] at hk
        simp at hk

/-! ## The world after clearing -/

namespace Cleared

variable {root root' : Entry} {l : Location}

/-- An entry that stays is as it was. -/
theorem nodeAt?_of_survives (h : Cleared ignored root l root') (hr : r ≠ [])
    (hstays : Survives ignored root l r) : root'.nodeAt? (l ++ r) = root.nodeAt? (l ++ r) := by
  cases hnew : root'.nodeAt? (l ++ r) with
  | some node => exact (h.nodeAt?_eq_some _ node hnew).symm
  | none =>
      cases hold : root.nodeAt? (l ++ r) with
      | none => rfl
      | some node =>
          have hsome := (h.isSome_iff r hr (by rw [hold]; rfl)).mpr hstays
          simp [hnew] at hsome

/-- An entry that does not stay is gone. -/
theorem nodeAt?_of_not_survives (h : Cleared ignored root l root') (hr : r ≠ [])
    (hgone : ¬ Survives ignored root l r) : root'.nodeAt? (l ++ r) = none := by
  cases hnew : root'.nodeAt? (l ++ r) with
  | none => rfl
  | some node =>
      have hold := h.nodeAt?_eq_some _ node hnew
      exact absurd ((h.isSome_iff r hr (by rw [hold]; rfl)).mp (by rw [hnew]; rfl)) hgone

end Cleared

/-- Whether clearing the directory that a path leads to may remove the entry at
a location: it is below the directory and does not stay. -/
def Unprotected (ignored : List String) (w : World) (p : Path) (k : Location) : Prop :=
  ∃ l es r, w.directory? p = some (l, es) ∧ r ≠ [] ∧ k = l ++ r ∧ ¬ Survives ignored w.root l r

/-- What a path to a directory does not protect are the entries below it that do not survive. -/
theorem unprotected_iff_of_directory? {w : World} {p : Path} {l k : Location}
    (hdir : w.directory? p = some (l, es)) :
    Unprotected ignored w p k ↔ ∃ r, r ≠ [] ∧ k = l ++ r ∧ ¬ Survives ignored w.root l r := by
  rw [Unprotected, hdir]
  constructor
  · rintro ⟨l', es', r, hdir', hgone⟩
    obtain ⟨rfl, rfl⟩ := Prod.mk.inj (Option.some.inj hdir')
    exact ⟨r, hgone⟩
  · rintro ⟨r, hgone⟩
    exact ⟨l, es, r, rfl, hgone⟩

/-- Where there is no directory, clearing removes nothing. -/
theorem not_unprotected_of_directory? {w : World} {p : Path} {k : Location}
    (hdir : w.directory? p = none) : ¬ Unprotected ignored w p k := by
  rintro ⟨l, es, r, hdir', -⟩
  rw [hdir] at hdir'
  cases hdir'

/-- A world in which the directory that a path leads to has been cleared. -/
structure ClearedAt (ignored : List String) (w : World) (p : Path) (w' : World) : Prop where
  /-- The tree is well-formed. -/
  wellFormed : w'.root.WellFormed
  /-- What is protected is as it was. -/
  nodeAt?_eq : ∀ k, ¬ Unprotected ignored w p k → w'.root.nodeAt? k = w.root.nodeAt? k
  /-- What is not protected is gone. -/
  nodeAt?_eq_none : ∀ k, Unprotected ignored w p k → w'.root.nodeAt? k = none
  /-- The working directory stays. -/
  cwd_eq : w'.cwd = w.cwd
  /-- The environment stays. -/
  env_eq : w'.env = w.env

/-- Clearing rewrites the directory, or there is nothing that it could clear. -/
theorem clear_cases {w w' : World} {p : Path} {report : ClearReport}
    (h : clear w p ignored = .ok (report, w')) :
    (∃ l es, w.directory? p = some (l, es) ∧ report = (clearEntries ignored "" es).2 ∧
      w' = w.withRoot (w.root.put l (.dir (clearEntries ignored "" es).1))) ∨
    (w.directory? p = none ∧ report = .empty ∧ w' = w) := by
  unfold clear at h
  split at h
  · rename_i l es hdir
    cases h
    exact Or.inl ⟨l, es, hdir, rfl, rfl⟩
  · rename_i hdir
    split at h
    · cases h
    · cases h
      exact Or.inr ⟨hdir, rfl, rfl⟩

/-- Clearing removes what is not protected, and nothing else. -/
theorem clearedAt_of_clear {w w' : World} {p : Path} {report : ClearReport}
    (hw : w.root.WellFormed) (h : clear w p ignored = .ok (report, w')) :
    ClearedAt ignored w p w' := by
  rcases clear_cases h with ⟨l, es, hdir, -, rfl⟩ | ⟨hdir, -, rfl⟩
  · have hcleared : Cleared ignored w.root l
        (w.root.put l (.dir (clearEntries ignored "" es).1)) :=
      cleared_put hw (at?_of_directory? hdir)
    refine ⟨hcleared.wellFormed, fun k hk => ?_, fun k hk => ?_, rfl, rfl⟩
    · by_cases hbelow : ∀ r, r ≠ [] → k ≠ l ++ r
      · exact hcleared.nodeAt?_eq k hbelow
      · push Not at hbelow
        obtain ⟨r, hr, rfl⟩ := hbelow
        have hstays : Survives ignored w.root l r := by
          by_contra hgone
          exact hk ((unprotected_iff_of_directory? hdir).mpr ⟨r, hr, rfl, hgone⟩)
        exact hcleared.nodeAt?_of_survives hr hstays
    · obtain ⟨r, hr, rfl, hgone⟩ := (unprotected_iff_of_directory? hdir).mp hk
      exact hcleared.nodeAt?_of_not_survives hr hgone
  · exact ⟨hw, fun k _ => rfl, fun k hk => absurd hk (not_unprotected_of_directory? hdir),
      rfl, rfl⟩

/-- **Clearing a directory.**  When a directory has been cleared, an entry below
it is left exactly if its path, the path of a directory around it or that of an
entry in it was on the list.  What is left is unchanged, the directory itself is
still there, and nothing changes outside it: a link below it is an entry like a
file, whatever it leads to. -/
theorem clear_leaves {w w' : World} {p : Path} {l : Location} {report : ClearReport}
    (hw : w.root.WellFormed) (hp : w.directory? p = some (l, es))
    (h : clear w p ignored = .ok (report, w')) :
    Cleared ignored w.root l w'.root ∧ w'.cwd = w.cwd ∧ w'.env = w.env := by
  rw [clear, hp] at h
  simp only [Except.ok.injEq, Prod.mk.injEq] at h
  obtain ⟨-, rfl⟩ := h
  exact ⟨cleared_put hw (at?_of_directory? hp), rfl, rfl⟩

/-- A directory with a file on the list, an empty directory and a link to a
directory outside. -/
def outputEntries : List (String × Entry) :=
  [("a", .dir [("b", .dir []), ("k", .file ⟨#[1]⟩ false)]), ("c", .link "/src")]

/-- A world with this directory and the one that the link leads to. -/
def outputWorld : World :=
  ⟨.dir [("out", .dir outputEntries), ("src", .dir [("m", .file ⟨#[2]⟩ true)])], [], []⟩

/-- A directory with a link in it is cleared around one entry that is kept. -/
theorem clear_leaves_link :
    outputWorld.root.WellFormed ∧
      outputWorld.directory? ⟨"out"⟩ = some (["out"], outputEntries) ∧
      ∃ report w', clear outputWorld ⟨"out"⟩ ["a/k"] = .ok (report, w') ∧
        Cleared ["a/k"] outputWorld.root ["out"] w'.root ∧ w'.cwd = outputWorld.cwd ∧
        w'.env = outputWorld.env := by
  have hw : outputWorld.root.WellFormed := by decide
  have hp : outputWorld.directory? ⟨"out"⟩ = some (["out"], outputEntries) := by
    rw [World.directory?, locate_name (by decide) (by decide) (by decide) Entry.at?_nil
      List.lookup_cons_self (by simp)]
    rfl
  have h : ∃ report w', clear outputWorld ⟨"out"⟩ ["a/k"] = .ok (report, w') := by
    rw [clear, hp]
    exact ⟨_, _, rfl⟩
  obtain ⟨report, w', h⟩ := h
  exact ⟨hw, hp, report, w', h, clear_leaves hw hp h⟩

end ClientRegen
