import ClientRegen.FileTree.Change
import ClientRegen.Proofs.FileTree.Locating
import Mathlib.Data.List.Sort
import Mathlib.Data.Set.Card

/-!
# Removing one entry after another

A tree is known by its nodes (`Entry.WellFormed.ext`), so it is enough to say
what a removal does to them: the entry that is removed goes with everything in
it, and nothing changes elsewhere (`without_remove`).

The operating system removes a file, a link or an empty directory at a time.  A
`RemovalTrace` records such removals in their order.  What has vanished in the
end is what was removed, so the removals of one kind count the entries of this
kind that have vanished (`RemovalTrace.encard_vanished`).
-/

namespace ClientRegen

variable {es es' done rest : List (String × Entry)} {n : String} {e e' e'' x y d : Entry}
  {l k : Location} {change change' : Option Entry → Option Entry} {root mid root' : Entry}
  {gone gone' : Location → Prop} {steps before after : List Change} {node : TreeNode}

/-! ## Trees with the same nodes -/

instance : Std.Irrefl fun a b : String × Entry => a.1 < b.1 :=
  ⟨fun a => String.lt_irrefl a.1⟩

instance : Std.Antisymm fun a b : String × Entry => a.1 < b.1 :=
  ⟨fun _ _ h h' => absurd h' (String.lt_asymm h)⟩

/-- Among entries in order each name stands for one entry. -/
theorem Ordered.mem_iff (h : Ordered es) : (n, e) ∈ es ↔ es.lookup n = some e :=
  ⟨h.lookup_eq, mem_of_lookup⟩

/-- Entries in order are known by what stands under each name. -/
theorem Ordered.eq_of_lookup (h : Ordered es) (h' : Ordered es')
    (hlookup : ∀ n, es.lookup n = es'.lookup n) : es = es' := by
  refine List.Pairwise.eq_of_mem_iff (r := fun a b : String × Entry => a.1 < b.1) h h' ?_
  rintro ⟨n, e⟩
  rw [h.mem_iff, h'.mem_iff, hlookup]

namespace Entry

/-- **A tree is known by its nodes.** -/
theorem WellFormed.ext (h : e.WellFormed) (hx : x.WellFormed)
    (hnode : ∀ l, e.nodeAt? l = x.nodeAt? l) : e = x := by
  induction h generalizing x with
  | file content executable =>
      have hself := hnode []
      rw [nodeAt?_nil, nodeAt?_nil] at hself
      cases x <;> cases hself
      rfl
  | link target =>
      have hself := hnode []
      rw [nodeAt?_nil, nodeAt?_nil] at hself
      cases x <;> cases hself
      rfl
  | @dir es hordered hname hentry ih =>
      have hself := hnode []
      rw [nodeAt?_nil, nodeAt?_nil] at hself
      cases hx with
      | file | link => cases hself
      | @dir es' hordered' hname' hentry' =>
          refine congrArg Entry.dir (hordered.eq_of_lookup hordered' fun n => ?_)
          have hbelow : ∀ r,
              (es.lookup n).bind (·.nodeAt? r) = (es'.lookup n).bind (·.nodeAt? r) := by
            intro r
            rw [← nodeAt?_dir_cons, ← nodeAt?_dir_cons, hnode]
          cases hd : es.lookup n with
          | none =>
              cases hd' : es'.lookup n with
              | none => rfl
              | some d' =>
                  have htop := hbelow []
                  rw [hd, hd', Option.bind_some, nodeAt?_nil] at htop
                  cases htop
          | some d =>
              cases hd' : es'.lookup n with
              | none =>
                  have htop := hbelow []
                  rw [hd, hd', Option.bind_some, nodeAt?_nil] at htop
                  cases htop
              | some d' =>
                  rw [hd, hd'] at hbelow
                  have heq : d = d' :=
                    ih _ (mem_of_lookup hd) (hentry' _ (mem_of_lookup hd')) hbelow
                  rw [heq]

/-- What is put in the place of an entry decides the tree. -/
theorem Replaced.eq (h : Replaced e l y e') (h' : Replaced e l y e'') : e' = e'' := by
  refine h.wellFormed.ext h'.wellFormed fun k => ?_
  by_cases hk : l <+: k
  · obtain ⟨r, rfl⟩ := hk
    rw [nodeAt?, nodeAt?, h.at?_append, h'.at?_append]
  · rw [h.nodeAt?_eq k hk, h'.nodeAt?_eq k hk]

/-- What is replaced twice is replaced by what comes last. -/
theorem Replaced.trans (h : Replaced e l x e') (h' : Replaced e' l y e'') :
    Replaced e l y e'' :=
  ⟨h'.wellFormed, h'.at?_append, fun k hk => (h'.nodeAt?_eq k hk).trans (h.nodeAt?_eq k hk)⟩

/-- An entry that is put where it stands changes nothing. -/
theorem put_self (h : e.WellFormed) (hx : e.at? l = some x) : e.put l x = e :=
  (replaced_update h hx rfl (h.of_at? hx)).eq
    ⟨h, fun r => by rw [at?_append, hx, Option.bind_some], fun _ _ => rfl⟩

/-- What is put at the location of an entry stands there. -/
theorem at?_put (h : e.WellFormed) (hx : e.at? l = some x) : (e.put l y).at? l = some y := by
  induction l generalizing e with
  | nil => rfl
  | cons n l ih =>
      obtain ⟨es, d, rfl, hd, hx⟩ := exists_dir_of_at?_cons hx
      have hordered : Ordered es := by
        cases h with
        | dir hordered => exact hordered
      cases l with
      | nil => rw [put, update, at?_cons, entries, lookup_alter hordered, if_pos rfl,
          Option.bind_some, at?_nil]
      | cons m l =>
          rw [put, update.eq_3 _ _ _ _ (by simp), at?_cons, entries, lookup_alter hordered,
            if_pos rfl, hd, Option.map_some, Option.bind_some]
          exact ih (h.of_lookup hd).2 hx

/-- Of two entries that are put at one place the second one counts. -/
theorem put_put (h : e.WellFormed) (hd : e.at? l = some d) (hx : x.WellFormed)
    (hy : y.WellFormed) : (e.put l x).put l y = e.put l y := by
  have hput : Replaced e l x (e.put l x) := replaced_update h hd rfl hx
  have hagain : Replaced (e.put l x) l y ((e.put l x).put l y) :=
    replaced_update hput.wellFormed (at?_put h hd) rfl hy
  exact (hput.trans hagain).eq (replaced_update h hd rfl hy)

/-! ## Changing an entry in its directory -/

/-- Only what is done to the entry that is there matters to a change. -/
theorem alter_congr (h : Ordered es) (hchange : change (es.lookup n) = change' (es.lookup n)) :
    alter n change es = alter n change' es := by
  refine (h.alter n change).eq_of_lookup (h.alter n change') fun m => ?_
  rw [lookup_alter h, lookup_alter h, hchange]

/-- An entry is changed in its place among the others. -/
theorem alter_append_cons (h : Ordered (done ++ (n, e) :: rest)) :
    alter n change (done ++ (n, e) :: rest) =
      done ++ ((change (some e)).map fun e => (n, e)).toList ++ rest := by
  induction done with
  | nil => rw [List.nil_append, alter, if_pos rfl, List.nil_append]
  | cons p done ih =>
      obtain ⟨m, d⟩ := p
      rw [List.cons_append, Ordered, List.pairwise_cons] at h
      have hlt : m < n := h.1 (n, e) (List.mem_append_right done List.mem_cons_self)
      rw [List.cons_append, alter, if_neg (String.ne_of_lt hlt).symm,
        if_neg (String.lt_asymm hlt), ih h.2]
      simp

/-- Changing an entry puts another directory in the place of its own. -/
theorem update_concat (h : e.WellFormed) (hl : e.at? l = some (.dir es)) :
    e.update change (l ++ [n]) = e.put l (.dir (alter n change es)) := by
  induction l generalizing e with
  | nil =>
      rw [at?_nil, Option.some.injEq] at hl
      subst hl
      rfl
  | cons m l ih =>
      obtain ⟨es', d, rfl, hd, hl⟩ := exists_dir_of_at?_cons hl
      have hwf := (h.of_lookup hd).2
      have hordered : Ordered es' := by
        cases h with
        | dir hordered => exact hordered
      rw [List.cons_append, update.eq_3 _ _ _ _ (by simp)]
      cases l with
      | nil =>
          rw [put, update]
          refine congrArg Entry.dir (alter_congr hordered ?_)
          rw [hd, Option.map_some, ih hwf hl]
          rfl
      | cons m' l =>
          rw [put, update.eq_3 _ _ _ _ (by simp)]
          refine congrArg Entry.dir (alter_congr hordered ?_)
          rw [hd, Option.map_some, Option.map_some, ih hwf hl]
          rfl

/-! ## A tree without some of its entries -/

/-- A tree without the entries at some locations, and without anything that was
in them. -/
structure Without (root : Entry) (gone : Location → Prop) (root' : Entry) : Prop where
  /-- The tree is well-formed. -/
  wellFormed : root'.WellFormed
  /-- Nothing stands at these locations or below them. -/
  nodeAt?_eq_none : ∀ l k, gone l → l <+: k → root'.nodeAt? k = none
  /-- Nothing changes at other places. -/
  nodeAt?_eq : ∀ k, (∀ l, gone l → ¬ l <+: k) → root'.nodeAt? k = root.nodeAt? k

namespace Without

/-- A tree is itself without nothing. -/
theorem refl (h : root.WellFormed) (hgone : ∀ l, ¬ gone l) : Without root gone root :=
  ⟨h, fun l _ hl => absurd hl (hgone l), fun _ _ => rfl⟩

/-- What goes in two steps goes at all. -/
theorem trans (h : Without root gone mid) (h' : Without mid gone' root') :
    Without root (fun k => gone k ∨ gone' k) root' := by
  have hnone : ∀ k, mid.nodeAt? k = none → root'.nodeAt? k = none := by
    intro k hk
    by_cases hsome : ∃ l, gone' l ∧ l <+: k
    · obtain ⟨l, hl, hpre⟩ := hsome
      exact h'.nodeAt?_eq_none l k hl hpre
    · push Not at hsome
      rw [h'.nodeAt?_eq k hsome, hk]
  refine ⟨h'.wellFormed, fun l k hl hpre => ?_, fun k hk => ?_⟩
  · rcases hl with hl | hl
    · exact hnone k (h.nodeAt?_eq_none l k hl hpre)
    · exact h'.nodeAt?_eq_none l k hl hpre
  · rw [h'.nodeAt?_eq k fun l hl => hk l (Or.inr hl), h.nodeAt?_eq k fun l hl => hk l (Or.inl hl)]

/-- What is left is as it was. -/
theorem nodeAt?_of_some (h : Without root gone root') (hk : root'.nodeAt? k = some node) :
    root.nodeAt? k = some node := by
  have hout : ∀ l, gone l → ¬ l <+: k := by
    intro l hl hpre
    rw [h.nodeAt?_eq_none l k hl hpre] at hk
    cases hk
  rw [← h.nodeAt?_eq k hout, hk]

end Without

/-- **A removed entry goes with everything in it,** and nothing else does. -/
theorem without_remove (h : root.WellFormed) (hl : l ≠ []) (hx : root.at? l = some x) :
    Without root (· = l) (root.remove l) := by
  rcases List.eq_nil_or_concat l with rfl | ⟨front, n, rfl⟩
  · exact absurd rfl hl
  · rw [List.concat_eq_append] at hx ⊢
    rw [at?_append] at hx
    obtain ⟨d, hd, hx⟩ := Option.bind_eq_some_iff.mp hx
    obtain ⟨es, d, rfl, hlookup, -⟩ := exists_dir_of_at?_cons hx
    have hwf : (Entry.dir es).WellFormed := h.of_at? hd
    have hordered : Ordered es := by
      cases hwf with
      | dir hordered => exact hordered
    have hreplaced : Replaced root front (.dir (alter n (fun _ => none) es))
        (root.remove (front ++ [n])) := by
      rw [remove, update_concat h hd]
      exact replaced_update h hd rfl (hwf.alter hlookup (by simp))
    have hnew : ∀ r, (root.remove (front ++ [n])).nodeAt? (front ++ r) =
        (Entry.dir (alter n (fun _ => none) es)).nodeAt? r := by
      intro r
      rw [nodeAt?, hreplaced.at?_append]
      rfl
    refine ⟨hreplaced.wellFormed, ?_, fun k hk => ?_⟩
    · rintro _ k rfl ⟨r, rfl⟩
      rw [List.append_assoc, hnew, List.singleton_append, nodeAt?_dir_cons,
        lookup_alter hordered, if_pos rfl, Option.bind_none]
    · by_cases hfront : front <+: k
      · obtain ⟨r, rfl⟩ := hfront
        rw [hnew, nodeAt?_append hd]
        cases r with
        | nil => rfl
        | cons m r =>
            have hm : m ≠ n := by
              rintro rfl
              exact hk _ rfl ⟨r, by simp⟩
            rw [nodeAt?_dir_cons, nodeAt?_dir_cons, lookup_alter hordered, if_neg hm]
      · exact hreplaced.nodeAt?_eq k hfront

/-- What is put in the place of an entry does not matter when it is removed. -/
theorem remove_put (h : e.WellFormed) (hl : l ≠ []) (hx : e.at? l = some x) (hy : y.WellFormed) :
    (e.put l y).remove l = e.remove l := by
  have hput : Replaced e l y (e.put l y) := replaced_update h hx rfl hy
  have hgone := without_remove hput.wellFormed hl (at?_put h hx)
  have hremove := without_remove h hl hx
  refine hgone.wellFormed.ext hremove.wellFormed fun k => ?_
  by_cases hk : l <+: k
  · rw [hgone.nodeAt?_eq_none l k rfl hk, hremove.nodeAt?_eq_none l k rfl hk]
  · rw [hgone.nodeAt?_eq k fun m hm => hm ▸ hk, hremove.nodeAt?_eq k fun m hm => hm ▸ hk,
      hput.nodeAt?_eq k hk]

end Entry

/-! ## Removals in their order -/

/-- The change that removes an entry. -/
def removal (l : Location) : Entry → Change
  | .dir _ => .removeDir l
  | _ => .removeLeaf l

/-- Removals that are done one after another and lead from one tree to another.
Whatever goes holds nothing: a directory has to be empty.  The root does not go
at all. -/
inductive RemovalTrace : Entry → List Change → Entry → Prop
  | nil (root : Entry) : RemovalTrace root [] root
  | cons {root x root' : Entry} {l : Location} {steps : List Change} (hl : l ≠ [])
      (hat : root.at? l = some x) (hentries : x.entries = [])
      (tail : RemovalTrace (root.remove l) steps root') :
      RemovalTrace root (removal l x :: steps) root'

/-- Whether a change is the removal of the entry at a location. -/
def Change.RemovesAt (k : Location) (c : Change) : Prop :=
  c = .removeLeaf k ∨ c = .removeDir k

/-- The removal of an entry removes at its location. -/
theorem removesAt_removal : (removal l x).RemovesAt k ↔ k = l := by
  cases x <;> simp [removal, Change.RemovesAt, eq_comm]

namespace RemovalTrace

/-- Removals can be continued. -/
theorem append (h : RemovalTrace root before mid) (h' : RemovalTrace mid after root') :
    RemovalTrace root (before ++ after) root' := by
  induction h with
  | nil => exact h'
  | cons hl hat hentries _ ih => exact .cons hl hat hentries (ih h')

/-- What is removed is gone in the end, and nothing else is. -/
theorem without (h : RemovalTrace root steps root') (hroot : root.WellFormed) :
    root.Without (fun k => ∃ c ∈ steps, c.RemovesAt k) root' := by
  induction h with
  | nil root => exact .refl hroot (by simp)
  | cons hl hat hentries tail ih =>
      have hremove := Entry.without_remove hroot hl hat
      simpa [removesAt_removal] using hremove.trans (ih hremove.wellFormed)

/-- Removals lead to well-formed trees. -/
theorem wellFormed (h : RemovalTrace root steps root') (hroot : root.WellFormed) :
    root'.WellFormed :=
  (h.without hroot).wellFormed

/-- What is removed was there. -/
theorem isSome_of_mem {c : Change} (h : RemovalTrace root steps root') (hroot : root.WellFormed)
    (hc : c ∈ steps) (hk : c.RemovesAt k) : (root.nodeAt? k).isSome := by
  induction h with
  | nil => cases hc
  | cons hl hat hentries tail ih =>
      rcases List.mem_cons.mp hc with rfl | hc
      · rw [removesAt_removal.mp hk, Entry.nodeAt?, hat]
        rfl
      · have hremove := Entry.without_remove hroot hl hat
        obtain ⟨node, hnode⟩ := Option.isSome_iff_exists.mp (ih hremove.wellFormed hc)
        rw [hremove.nodeAt?_of_some hnode]
        rfl

end RemovalTrace

/-! ## What has vanished -/

/-- The locations at which an entry of a kind stood in one tree and nothing
stands in another. -/
def vanished (kind : TreeNode → Prop) (root root' : Entry) : Set Location :=
  {k | ∃ node, root.nodeAt? k = some node ∧ kind node ∧ root'.nodeAt? k = none}

/-- Below an entry that holds nothing there is nothing. -/
theorem eq_of_entries_eq_nil (hat : root.at? l = some x) (hentries : x.entries = [])
    (hpre : l <+: k) (hk : (root.nodeAt? k).isSome) : k = l := by
  obtain ⟨r, rfl⟩ := hpre
  cases r with
  | nil => exact List.append_nil l
  | cons n r =>
      rw [Entry.nodeAt?_append hat, Entry.nodeAt?, Entry.at?_cons, hentries] at hk
      cases hk

/-- Removing an entry that holds nothing lets it vanish, and nothing else. -/
theorem vanished_remove (kind : TreeNode → Prop) (hroot : root.WellFormed) (hl : l ≠ [])
    (hat : root.at? l = some x) (hentries : x.entries = [])
    (tail : RemovalTrace (root.remove l) steps root') :
    l ∉ vanished kind (root.remove l) root' ∧
      (kind x.node → vanished kind root root' = insert l (vanished kind (root.remove l) root')) ∧
      (¬ kind x.node → vanished kind root root' = vanished kind (root.remove l) root') := by
  have hremove := Entry.without_remove hroot hl hat
  have hself : root.nodeAt? l = some x.node := by rw [Entry.nodeAt?, hat]; rfl
  have hgone : (root.remove l).nodeAt? l = none := hremove.nodeAt?_eq_none l l rfl List.prefix_rfl
  have hend : root'.nodeAt? l = none := by
    cases h : root'.nodeAt? l with
    | none => rfl
    | some node =>
        rw [(tail.without hremove.wellFormed).nodeAt?_of_some h] at hgone
        cases hgone
  have hother : ∀ k, k ≠ l → (root.remove l).nodeAt? k = root.nodeAt? k := by
    intro k hk
    by_cases hpre : l <+: k
    · rw [hremove.nodeAt?_eq_none l k rfl hpre]
      cases h : root.nodeAt? k with
      | none => rfl
      | some node => exact absurd (eq_of_entries_eq_nil hat hentries hpre (by rw [h]; rfl)) hk
    · exact hremove.nodeAt?_eq k fun m hm => hm ▸ hpre
  have hmem : ∀ k, k ≠ l →
      (k ∈ vanished kind root root' ↔ k ∈ vanished kind (root.remove l) root') := by
    intro k hk
    simp only [vanished, Set.mem_ofPred_eq, hother k hk]
  have hnot : l ∉ vanished kind (root.remove l) root' := by
    rintro ⟨node, hnode, -⟩
    rw [hgone] at hnode
    cases hnode
  refine ⟨hnot, fun hkind => ?_, fun hkind => ?_⟩
  · ext k
    rw [Set.mem_insert_iff]
    by_cases hk : k = l
    · subst hk
      exact iff_of_true ⟨_, hself, hkind, hend⟩ (Or.inl rfl)
    · rw [hmem k hk, or_iff_right hk]
  · ext k
    by_cases hk : k = l
    · subst hk
      refine iff_of_false ?_ hnot
      rintro ⟨node, hnode, hkind', -⟩
      rw [hself, Option.some.injEq] at hnode
      exact hkind (hnode ▸ hkind')
    · exact hmem k hk

/-- **The removals of one kind count the entries of this kind that have
vanished.** -/
theorem RemovalTrace.encard_vanished {kind : TreeNode → Prop} {counts : Change → Bool}
    (h : RemovalTrace root steps root') (hroot : root.WellFormed)
    (hkind : ∀ l x, kind x.node ↔ counts (removal l x) = true) :
    (vanished kind root root').encard = steps.countP counts := by
  induction h with
  | nil root =>
      have hempty : vanished kind root root = ∅ := by
        ext k
        simp only [vanished, Set.mem_ofPred_eq, Set.mem_empty_iff_false, iff_false]
        rintro ⟨node, hnode, -, hnone⟩
        rw [hnode] at hnone
        cases hnone
      rw [hempty, Set.encard_empty]
      rfl
  | @cons root x root' l steps hl hat hentries tail ih =>
      obtain ⟨hnot, hinsert, hsame⟩ := vanished_remove kind hroot hl hat hentries tail
      have htail := ih (Entry.without_remove hroot hl hat).wellFormed
      by_cases hx : kind x.node
      · rw [hinsert hx, Set.encard_insert_of_notMem hnot, htail,
          List.countP_cons_of_pos ((hkind l x).mp hx)]
        norm_cast
      · rw [hsame hx, htail, List.countP_cons_of_neg fun hc => hx ((hkind l x).mpr hc)]

end ClientRegen
