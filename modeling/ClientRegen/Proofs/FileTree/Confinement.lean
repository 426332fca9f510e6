import ClientRegen.Proofs.FileTree.Removing
import ClientRegen.Proofs.FileTree.Rewriting
import ClientRegen.Proofs.FileTree.Within
import ClientRegen.Proofs.Outcomes

/-!
# Actions that stay in a directory

An action is confined to a directory if nothing but the entries of the directory
matters to it: in any two worlds in which the directory holds the same entries
it gives the same answer or the same failure, and leaves the same entries there
(`Confined`).  The worlds may differ in everything else, even in where the
directory stands.

Reading and writing files by paths that go on below the directory is confined,
as long as no link stands there (`readText_join`, `sameResult_writeText`), and
so are chains of confined actions (`sameResult_bind`, `confined_mapM`).
-/

namespace ClientRegen

variable {α β : Type} {w w' v v' : World} {p base q : Path} {l lo r : Location}
  {es : List (String × Entry)} {text : String}

/-! ## Results that agree -/

/-- No link stands below the directory that a path leads to. -/
def LinkFreeBelow (w : World) (p : Path) : Prop :=
  ∀ l es, w.directory? p = some (l, es) → (Entry.dir es).LinkFree

theorem FilesRewritten.linkFreeBelow (hw : w.root.WellFormed) (h : FilesRewritten w w')
    (hfree : LinkFreeBelow w p) : LinkFreeBelow w' p := by
  intro lo es' hdir'
  obtain ⟨es, hdir⟩ := (h.symm hw).exists_directory? hdir'
  have hat := at?_of_directory? hdir
  have hat' := at?_of_directory? hdir'
  refine (h.wellFormed.of_at? hat').linkFree fun r target hlink => ?_
  have hnode := (hfree lo es hdir).nodeAt?_ne r target
  rw [← Entry.nodeAt?_append hat] at hnode
  rw [← Entry.nodeAt?_append hat'] at hlink
  rcases h.nodeAt?_eq (lo ++ r) with hsame | ⟨old, new, executable, -, hnew⟩
  · exact hnode (hsame ▸ hlink)
  · rw [hnew] at hlink
    cases hlink

/-- Two worlds in which a path leads to directories that hold the same entries,
and no link. -/
structure SameDirectory (p : Path) (w v : World) : Prop where
  /-- The first tree is well-formed. -/
  wellFormed : w.root.WellFormed
  /-- The second tree is well-formed. -/
  wellFormed' : v.root.WellFormed
  /-- The directories hold the same entries. -/
  exists_entries : ∃ lo lo' es, w.directory? p = some (lo, es) ∧
    v.directory? p = some (lo', es) ∧ (Entry.dir es).LinkFree

/-- Two results that agree: the same answer or the same failure, and the same
entries in a directory. -/
inductive SameResult (p : Path) :
    EStateM.Result Failure World α → EStateM.Result Failure World α → Prop
  | ok (a : α) {w v : World} (h : SameDirectory p w v) : SameResult p (.ok a w) (.ok a v)
  | error (fault : Failure) {w v : World} (h : SameDirectory p w v) :
      SameResult p (.error fault w) (.error fault v)

/-- An action to which nothing matters but the entries of a directory. -/
def Confined (p : Path) (x : Action α) : Prop :=
  ∀ w v, SameDirectory p w v → SameResult p (x w) (x v)

theorem confined_pure (a : α) : Confined p (pure a : Action α) :=
  fun _ _ h => .ok a h

theorem sameResult_look {question : World → Except Failure α} (h : SameDirectory p w v)
    (hsame : question w = question v) :
    SameResult p (Action.look question w) (Action.look question v) := by
  rw [Action.look, Action.look, hsame]
  cases question v with
  | ok a => exact .ok a h
  | error fault => exact .error fault h

/-- Two chains agree if their first actions do, and the others where these have
succeeded. -/
theorem sameResult_bind {x : Action α} {f : α → Action β} (hx : SameResult p (x w) (x v))
    (hf : ∀ a w' v', x w = .ok a w' → SameDirectory p w' v' → SameResult p (f a w') (f a v')) :
    SameResult p ((x >>= f) w) ((x >>= f) v) := by
  change SameResult p (EStateM.bind x f w) (EStateM.bind x f v)
  rw [EStateM.bind, EStateM.bind]
  generalize hw : x w = first at hx
  generalize x v = second at hx
  cases hx with
  | ok a h => exact hf a _ _ hw h
  | error fault h => exact .error fault h

theorem confined_mapM {f : α → Action β} (hf : ∀ a, Confined p (f a)) (as : List α) :
    Confined p (as.mapM f) := by
  induction as with
  | nil =>
      rw [List.mapM_nil]
      exact confined_pure []
  | cons a as ih =>
      rw [List.mapM_cons]
      refine fun w v h => sameResult_bind (hf a w v h) fun b w₁ v₁ _ h₁ => ?_
      exact sameResult_bind (ih w₁ v₁ h₁) fun bs w₂ v₂ _ h₂ => confined_pure _ w₂ v₂ h₂

/-! ## Reading and writing -/

/-- **The text of a file below a directory is told by the entries of the
directory.** -/
theorem readText_join (hq : q.Descends) (h : SameDirectory base w v) :
    w.readText (base.join q) = v.readText (base.join q) := by
  obtain ⟨lo, lo', es, hdir, hdir', hfree⟩ := h.exists_entries
  rw [World.readText, World.readText, World.readBytes, World.readBytes, World.entry?,
    World.entry?, World.find, World.find, locate_join hq hdir hfree, locate_join hq hdir' hfree]
  cases locateIn es (base.join q).text q with
  | error fault => rfl
  | ok place => cases place <;> rfl

/-- What a directory holds after one of its files was written anew. -/
theorem nodeAt?_entries {es' : List (String × Entry)} {node : TreeNode}
    (hdir : w.directory? p = some (lo, es)) (hdir' : w'.directory? p = some (lo, es'))
    (hself : w'.root.nodeAt? (lo ++ r) = some node)
    (hother : ∀ k, k ≠ lo ++ r → w'.root.nodeAt? k = w.root.nodeAt? k) (k : Location) :
    (Entry.dir es').nodeAt? k = if k = r then some node else (Entry.dir es).nodeAt? k := by
  rw [← Entry.nodeAt?_append (at?_of_directory? hdir'),
    ← Entry.nodeAt?_append (at?_of_directory? hdir)]
  by_cases hk : k = r
  · rw [if_pos hk, hk, hself]
  · rw [if_neg hk, hother _ fun h => hk (List.append_cancel_left h)]

/-- **Writing to a file that was read stays in the directory.** -/
theorem sameResult_writeText (hq : q.Descends) (h : SameDirectory base w v) {old : String}
    (hread : w.readText (base.join q) = .ok old) (text : String) :
    SameResult base (Action.writeText (base.join q) text w)
      (Action.writeText (base.join q) text v) := by
  obtain ⟨lo, lo', es, hdir, hdir', hfree⟩ := h.exists_entries
  obtain ⟨l, executable, hlocate⟩ := readText_eq_ok_iff.mp hread
  rw [locate_join hq hdir hfree] at hlocate
  obtain ⟨place, hplace, hunder⟩ := map_eq_ok_iff.mp hlocate
  cases place with
  | vacant r n => cases hunder
  | present r e =>
      cases hunder
      have hfile : w.locate (base.join q) true =
          .ok (.present (lo ++ r) (.file old.toUTF8 executable)) := by
        rw [locate_join hq hdir hfree, hplace]
        rfl
      have hfile' : v.locate (base.join q) true =
          .ok (.present (lo' ++ r) (.file old.toUTF8 executable)) := by
        rw [locate_join hq hdir' hfree, hplace]
        rfl
      obtain ⟨w₁, hwrite, hrewritten, hself, hother⟩ :=
        exists_writeText_eq_ok h.wellFormed hfile text
      obtain ⟨v₁, hwrite', hrewritten', hself', hother'⟩ :=
        exists_writeText_eq_ok h.wellFormed' hfile' text
      obtain ⟨es₁, hdir₁⟩ := hrewritten.exists_directory? hdir
      obtain ⟨es₁', hdir₁'⟩ := hrewritten'.exists_directory? hdir'
      have hsame : Entry.dir es₁ = Entry.dir es₁' :=
        (hrewritten.wellFormed.of_at? (at?_of_directory? hdir₁)).ext
          (hrewritten'.wellFormed.of_at? (at?_of_directory? hdir₁')) fun k => by
            rw [nodeAt?_entries hdir hdir₁ hself hother,
              nodeAt?_entries hdir' hdir₁' hself' hother']
      cases hsame
      have hbelow : LinkFreeBelow w base := fun k es' hk => by
        rw [hdir] at hk
        cases hk
        exact hfree
      rw [hwrite, hwrite']
      exact .ok () ⟨hrewritten.wellFormed, hrewritten'.wellFormed, lo, lo', es₁, hdir₁, hdir₁',
        hrewritten.linkFreeBelow h.wellFormed hbelow lo es₁ hdir₁⟩

end ClientRegen
