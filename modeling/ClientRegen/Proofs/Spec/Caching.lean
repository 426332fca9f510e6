import ClientRegen.Spec.Search
import ClientRegen.Proofs.FileTree.Locating

/-!
# Kept documents

A lookup may find documents that earlier lookups read and kept.  As long as
what is kept is what reading it again would give (`Current`), that makes no
difference: work on documents that starts from current ones answers what the
files say, whatever is kept, and leaves current ones behind (`Answers`).

Only `fetch` looks at what is kept, so everything built from it by `pure`,
`throw` and `>>=` has an answer (`HasAnswer`), down to the search for an enum.
What a lookup finds is therefore what it finds in a specification that was
opened just before (`findEnum_fst_eq`).
-/

namespace ClientRegen

variable {α β : Type} {w : World} {x : Loading α} {y : Except Failure α} {docs : Documents}

/-- A JSON document is read when its text is. -/
theorem readDocument_of_json {p : Path} {text : String} {v : Value}
    (htext : w.readText p = .ok text) (hjson : isJsonPath p = true)
    (hparse : Json.parse? text = some v) : readDocument w p = .ok v := by
  rw [readDocument, htext]
  simp only [hjson, if_true, hparse]

/-- A JSON document in the working directory is read by its name. -/
theorem readDocument_specFile {text : String} {v : Value} {es : List (String × Entry)}
    (hcwd : w.root.at? w.cwd = some (.dir es))
    (hfile : es.lookup "s.json" = some (.file text.toUTF8 false))
    (hparse : Json.parse? text = some v) : readDocument w ⟨"s.json"⟩ = .ok v :=
  readDocument_of_json (readText_name (by decide) (by decide) (by decide) hcwd hfile)
    (by decide) hparse

/-- Every kept document is what reading it gives. -/
def Current (w : World) (docs : Documents) : Prop :=
  ∀ p v, docs.lookup p = some v → readDocument w p = .ok v

/-- What work comes to that answers `y` and keeps these documents. -/
def answered (y : Except Failure α) (docs : Documents) : EStateM.Result Failure Documents α :=
  match y with
  | .ok a => .ok a docs
  | .error f => .error f docs

/-- Work that answers `y` from whatever current documents it starts, and leaves
current documents behind. -/
def Answers (w : World) (x : Loading α) (y : Except Failure α) : Prop :=
  ∀ docs, Current w docs → ∃ docs', Current w docs' ∧ x docs = answered y docs'

/-- Work whose answer does not depend on what is kept. -/
def HasAnswer (w : World) (x : Loading α) : Prop :=
  ∃ y, Answers w x y

/-- With nothing kept there is nothing that could be out of date. -/
theorem current_nil (w : World) : Current w [] := by
  intro p v h
  cases h

/-- What was just read is current. -/
theorem Current.cons (h : Current w docs) {p : Path} {v : Value}
    (hread : readDocument w p = .ok v) : Current w ((p, v) :: docs) := by
  intro q u hq
  rw [List.lookup_cons] at hq
  by_cases hqp : q = p
  · subst hqp
    simp only [BEq.rfl, Option.some.injEq] at hq
    exact hq ▸ hread
  · simp only [beq_false_of_ne hqp] at hq
    exact h q u hq

/-! ## Work on documents -/

theorem answers_pure (w : World) (a : α) : Answers w (pure a) (.ok a) :=
  fun docs h => ⟨docs, h, rfl⟩

/-- Work that fails keeps what it started with. -/
theorem answers_throw (w : World) (f : Failure) :
    Answers w (throw f : Loading α) (.error f) :=
  fun docs h => ⟨docs, h, rfl⟩

/-- **A kept document is as good as one read now.** -/
theorem answers_fetch (w : World) (p : Path) : Answers w (fetch w p) (readDocument w p) := by
  intro docs h
  unfold fetch
  cases hp : docs.lookup p with
  | some v =>
      rw [h p v hp]
      exact ⟨docs, h, rfl⟩
  | none =>
      cases hread : readDocument w p with
      | ok v => exact ⟨(p, v) :: docs, h.cons hread, rfl⟩
      | error f => exact ⟨docs, h, rfl⟩

theorem hasAnswer_pure (w : World) (a : α) : HasAnswer w (pure a) :=
  ⟨_, answers_pure w a⟩

theorem hasAnswer_throw (w : World) (f : Failure) : HasAnswer w (throw f : Loading α) :=
  ⟨_, answers_throw w f⟩

/-- Reading a document through what is kept has an answer. -/
theorem hasAnswer_fetch (w : World) (p : Path) : HasAnswer w (fetch w p) :=
  ⟨_, answers_fetch w p⟩

/-- Work that follows work goes on from the documents that it keeps. -/
theorem bind_eq_of_ok {f : α → Loading β} {docs docs' : Documents} {a : α}
    (h : x docs = answered (.ok a) docs') : (x >>= f) docs = f a docs' := by
  change EStateM.bind x f docs = f a docs'
  rw [EStateM.bind, h]
  rfl

/-- Nothing follows work that fails. -/
theorem bind_eq_of_error {f : α → Loading β} {docs docs' : Documents} {fault : Failure}
    (h : x docs = answered (.error fault) docs') :
    (x >>= f) docs = answered (.error fault) docs' := by
  change EStateM.bind x f docs = _
  rw [EStateM.bind, h]
  rfl

/-- Work after work starts from current documents again. -/
theorem Answers.bind {f : α → Loading β} {a : α} {z : Except Failure β}
    (hx : Answers w x (.ok a)) (hf : Answers w (f a) z) : Answers w (x >>= f) z := by
  intro docs h
  obtain ⟨docs', h', hrun⟩ := hx docs h
  obtain ⟨docs'', h'', hrest⟩ := hf docs' h'
  exact ⟨docs'', h'', (bind_eq_of_ok hrun).trans hrest⟩

/-- Work that fails ends what would follow it. -/
theorem Answers.bind_error {f : α → Loading β} {fault : Failure}
    (hx : Answers w x (.error fault)) : Answers w (x >>= f) (.error fault) := by
  intro docs h
  obtain ⟨docs', h', hrun⟩ := hx docs h
  exact ⟨docs', h', bind_eq_of_error hrun⟩

/-- Work after work has an answer if both have one. -/
theorem HasAnswer.bind {f : α → Loading β} (hx : HasAnswer w x) (hf : ∀ a, HasAnswer w (f a)) :
    HasAnswer w (x >>= f) := by
  obtain ⟨y, hy⟩ := hx
  cases y with
  | error fault => exact ⟨.error fault, hy.bind_error⟩
  | ok a =>
      obtain ⟨z, hz⟩ := hf a
      exact ⟨z, hy.bind hz⟩

/-! ## References -/

/-- Following one reference has an answer. -/
theorem hasAnswer_follow (w : World) (document : Path) (text : String) :
    HasAnswer w (follow w document text) := by
  unfold follow
  refine (hasAnswer_fetch w _).bind fun root => ?_
  split
  · exact hasAnswer_pure w _
  · exact hasAnswer_throw w _

/-- So has following a chain of them, by induction on the steps that are left. -/
theorem hasAnswer_resolveWithin (w : World) (start : Path) (steps : Nat) (document : Path)
    (v : Value) : HasAnswer w (resolveWithin w start steps document v) := by
  induction steps generalizing document v with
  | zero => exact hasAnswer_throw w _
  | succ steps ih =>
      rw [resolveWithin]
      split
      · exact hasAnswer_pure w v
      · exact (hasAnswer_follow w document _).bind fun next => ih next.1 next.2

/-- So resolving a schema has an answer. -/
theorem hasAnswer_resolve (w : World) (document : Path) (v : Value) :
    HasAnswer w (resolve w document v) :=
  hasAnswer_resolveWithin w document referenceLimit document v

/-! ## The search for an enum -/

/-- Going on with a search has an answer, whatever was found first. -/
theorem HasAnswer.continueWith {next : Loading EnumLookup} (h : HasAnswer w next)
    (first : EnumLookup) : HasAnswer w (first.continueWith next) := by
  cases first with
  | found m => exact hasAnswer_pure w _
  | notEnum fault => exact h.bind fun _ => hasAnswer_pure w _
  | missing => exact h.bind fun _ => hasAnswer_pure w _

/-- Trying things in order has an answer if each try has one. -/
theorem hasAnswer_search {try_ : α → Loading EnumLookup} (h : ∀ a, HasAnswer w (try_ a))
    (xs : List α) : HasAnswer w (search try_ xs) := by
  induction xs with
  | nil => exact hasAnswer_pure w _
  | cons a xs ih => exact (h a).bind fun first => ih.continueWith first

/-- Looking at a schema has an answer. -/
theorem hasAnswer_lookAt (w : World) (document : Path) (entry : String × Value) :
    HasAnswer w (lookAt w document entry) := by
  unfold lookAt
  refine (hasAnswer_resolve w document entry.2).bind fun schema => ?_
  split
  · exact hasAnswer_pure w _
  · exact hasAnswer_pure w _

/-- So has looking for a name among keys. -/
theorem hasAnswer_searchKeys (w : World) (document : Path) (keys : List (String × Value))
    (name : String) : HasAnswer w (searchKeys w document keys name) :=
  hasAnswer_search (hasAnswer_lookAt w document) _

/-- So has looking for it in the root document. -/
theorem hasAnswer_searchRoot (w : World) (root : Path) (name : String) :
    HasAnswer w (searchRoot w root name) :=
  (hasAnswer_fetch w root).bind fun _ => hasAnswer_searchKeys w root _ name

/-- The walk over the documents has an answer, wherever it stands. -/
theorem hasAnswer_searchFrom (w : World) (name : String) (fuel : Nat)
    (visited pending : List Path) : HasAnswer w (searchFrom w name fuel visited pending) := by
  fun_induction searchFrom w name fuel visited pending with
  | case1 => exact hasAnswer_pure w _
  | case2 fuel visited path pending hvisited ih => exact ih
  | case3 => exact hasAnswer_pure w _
  | case4 visited path pending hvisited fuel ih =>
      refine (hasAnswer_fetch w path).bind fun document => ?_
      exact (hasAnswer_searchKeys w path _ name).bind fun first => (ih document).continueWith first

/-- So has the search in all documents that can be reached. -/
theorem hasAnswer_searchReachable (w : World) (root : Path) (name : String) :
    HasAnswer w (searchReachable w root name) := by
  unfold searchReachable
  generalize pathCount = fuel
  exact hasAnswer_searchFrom w name fuel [] [root]

/-- A whole search, first in the root and then everywhere, has an answer. -/
theorem hasAnswer_searchAll (w : World) (root : Path) (names : List String) :
    HasAnswer w (Specification.searchAll w root names) := by
  unfold Specification.searchAll
  refine (hasAnswer_search (hasAnswer_searchRoot w root) names).bind fun first => ?_
  exact (hasAnswer_search (hasAnswer_searchReachable w root) names).continueWith first

namespace Specification

variable {s t : Specification} {p : Path}

/-- An opened specification keeps its root document and nothing else. -/
theorem openAt_eq_ok_iff : openAt w p = .ok s ↔
    ∃ v, readDocument w p.normalize = .ok v ∧ s = ⟨p.normalize, [(p.normalize, v)]⟩ := by
  unfold openAt fetch
  generalize p.normalize = root
  cases readDocument w root with
  | ok v =>
      constructor
      · intro h
        cases h
        exact ⟨v, rfl, rfl⟩
      · rintro ⟨v', hv, rfl⟩
        cases hv
        rfl
  | error f =>
      constructor
      · intro h
        cases h
      · rintro ⟨v, hv, -⟩
        cases hv

/-- A specification in the working directory is opened when its document is read. -/
theorem openAt_specFile {v : Value} (h : readDocument w ⟨"s.json"⟩ = .ok v) :
    openAt w ⟨"s.json"⟩ = .ok ⟨⟨"s.json"⟩, [(⟨"s.json"⟩, v)]⟩ := by
  have hnormal : (⟨"s.json"⟩ : Path).normalize = ⟨"s.json"⟩ := by decide
  rw [openAt_eq_ok_iff, hnormal]
  exact ⟨v, h, rfl⟩

/-- An opened specification is current. -/
theorem current_openAt (h : openAt w p = .ok s) : Current w s.documents := by
  obtain ⟨v, hv, rfl⟩ := openAt_eq_ok_iff.mp h
  exact (current_nil w).cons hv

/-- A lookup leaves the specification current, with the same root. -/
theorem current_findEnum (h : Current w s.documents) (names : List String) :
    Current w (s.findEnum w names).2.documents := by
  obtain ⟨y, hy⟩ := hasAnswer_searchAll w s.root names
  obtain ⟨docs, hdocs, hrun⟩ := hy s.documents h
  rw [findEnum, hrun]
  cases y with
  | ok a => exact hdocs
  | error f => exact hdocs

/-- A lookup leaves the root as it is. -/
theorem root_findEnum (s : Specification) (w : World) (names : List String) :
    (s.findEnum w names).2.root = s.root := by
  unfold findEnum
  split <;> rfl

/-- **What a lookup finds does not depend on the lookups before it.** -/
theorem findEnum_fst_eq (hs : Current w s.documents) (ht : Current w t.documents)
    (hroot : s.root = t.root) (names : List String) :
    (s.findEnum w names).1 = (t.findEnum w names).1 := by
  obtain ⟨y, hy⟩ := hasAnswer_searchAll w t.root names
  obtain ⟨docs, -, hrun⟩ := hy s.documents hs
  obtain ⟨docs', -, hrun'⟩ := hy t.documents ht
  rw [findEnum, findEnum, hroot, hrun, hrun']
  cases y with
  | ok a => rfl
  | error f => rfl

end Specification

end ClientRegen
