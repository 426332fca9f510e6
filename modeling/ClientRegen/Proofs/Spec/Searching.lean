import ClientRegen.Proofs.Document.JsonReader
import ClientRegen.Proofs.FileTree.Locating
import ClientRegen.Proofs.Outcomes
import ClientRegen.Proofs.Spec.Matches
import ClientRegen.Proofs.Spec.PathCount
import ClientRegen.Proofs.Spec.References

/-!
# What a lookup finds

A lookup goes over the schemas of the root document and then over those of every
document.  Each step of the walk over the documents leaves it in a state in which
it may look into every new one that there can be (`WalkState.next`), so it looks
into just the documents that can be reached, however their references run
(`exists_tries_searchFrom`).  So a lookup finds an enum whenever there is one,
and tells a type without an enum from one that is not there
(`findEnum_complete`).
-/

namespace ClientRegen

variable {w : World} {root : Path} {names : List String} {fuel : ℕ}
  {visited pending ps : List Path}

/-! ## The walk over the documents -/

/-- The documents among some that the walk has not been to. -/
def unvisited (visited ps : List Path) : List Path :=
  ps.filter fun p => !visited.contains p

/-- Where a walk can stand that has been to the documents `visited`, is still to
go to those in `pending` and may look into `fuel` more. -/
structure WalkState (w : World) (root : Path) (fuel : ℕ) (visited pending : List Path) : Prop where
  /-- It has been to no document twice. -/
  nodup_visited : visited.Nodup
  /-- It has been to documents that can be reached. -/
  visited_reachable : ∀ p ∈ visited, Reachable w root p
  /-- It is to go to documents that can be reached. -/
  pending_reachable : ∀ p ∈ pending, Reachable w root p
  /-- It may look into all documents that can be reached. -/
  length_le : ∀ ps : List Path, ps.Nodup → (∀ p ∈ ps, Reachable w root p) →
    ps.length ≤ visited.length + fuel

/-- A walk may leave out the next document. -/
theorem WalkState.tail {p : Path} (h : WalkState w root fuel visited (p :: pending)) :
    WalkState w root fuel visited pending :=
  ⟨h.nodup_visited, h.visited_reachable, (List.forall_mem_cons.mp h.pending_reachable).2,
    h.length_le⟩

/-- A walk with a new document to go to may look into one more. -/
theorem WalkState.fuel_ne_zero {p : Path} (h : WalkState w root fuel visited (p :: pending))
    (hp : p ∉ visited) : fuel ≠ 0 := by
  have hnew : (p :: visited).Nodup := List.nodup_cons.mpr ⟨hp, h.nodup_visited⟩
  have hreach : ∀ q ∈ p :: visited, Reachable w root q :=
    List.forall_mem_cons.mpr ⟨h.pending_reachable p List.mem_cons_self, h.visited_reachable⟩
  have hlength := h.length_le _ hnew hreach
  rw [List.length_cons] at hlength
  omega

/-- The walk goes on from a new document to the new ones among those that it
refers to. -/
theorem WalkState.next {p : Path} {v : Value}
    (h : WalkState w root (fuel + 1) visited (p :: pending)) (hp : p ∉ visited)
    (hread : readDocument w p = .ok v) :
    WalkState w root fuel (p :: visited)
      ((unvisited (p :: visited) (referredDocuments w p v)).reverse ++ pending) := by
  have hreach := h.pending_reachable p List.mem_cons_self
  refine ⟨List.nodup_cons.mpr ⟨hp, h.nodup_visited⟩,
    List.forall_mem_cons.mpr ⟨hreach, h.visited_reachable⟩, ?_, ?_⟩
  · intro q hq
    rcases List.mem_append.mp hq with hq | hq
    · rw [List.mem_reverse, unvisited, List.mem_filter] at hq
      exact hreach.of_mem_referredDocuments hread hq.1
    · exact h.tail.pending_reachable q hq
  · intro ps hps hall
    have hlength := h.length_le ps hps hall
    rw [List.length_cons]
    omega

/-- A walk that has been to `visited` and is still to go to `pending` looks into
`ps`: only documents that can be reached, all that are pending, and with each
document those that it refers to. -/
structure LooksInto (w : World) (root : Path) (visited pending ps : List Path) : Prop where
  /-- It looks into documents that can be reached. -/
  reachable : ∀ p ∈ ps, Reachable w root p
  /-- It goes to what is pending unless it has been there. -/
  pending_mem : ∀ p ∈ pending, p ∈ visited ∨ p ∈ ps
  /-- It goes to what it finds referred to unless it has been there. -/
  referred_mem : ∀ p ∈ ps, ∀ v, readDocument w p = .ok v → ∀ q ∈ referredDocuments w p v,
    q ∈ visited ∨ q ∈ ps

theorem looksInto_nil (w : World) (root : Path) (visited : List Path) :
    LooksInto w root visited [] [] :=
  ⟨by simp, by simp, by simp⟩

/-- A document that it has been to is passed over. -/
theorem LooksInto.cons_visited {p : Path} (h : LooksInto w root visited pending ps)
    (hp : p ∈ visited) : LooksInto w root visited (p :: pending) ps :=
  ⟨h.reachable, List.forall_mem_cons.mpr ⟨Or.inl hp, h.pending_mem⟩, h.referred_mem⟩

/-- A new document is looked into, and after it what the walk looks into that
goes on from there. -/
theorem LooksInto.cons {p : Path} {v : Value} (hread : readDocument w p = .ok v)
    (hp : Reachable w root p)
    (h : LooksInto w root (p :: visited)
      ((unvisited (p :: visited) (referredDocuments w p v)).reverse ++ pending) ps) :
    LooksInto w root visited (p :: pending) (p :: ps) := by
  have hmem : ∀ q, q ∈ p :: visited ∨ q ∈ ps → q ∈ visited ∨ q ∈ p :: ps := by
    intro q hq
    rcases hq with hq | hq
    · rcases List.mem_cons.mp hq with rfl | hq
      · exact Or.inr List.mem_cons_self
      · exact Or.inl hq
    · exact Or.inr (List.mem_cons_of_mem _ hq)
  refine ⟨List.forall_mem_cons.mpr ⟨hp, h.reachable⟩, ?_, ?_⟩
  · refine List.forall_mem_cons.mpr ⟨Or.inr List.mem_cons_self, fun q hq => ?_⟩
    exact hmem q (h.pending_mem q (List.mem_append_right _ hq))
  · intro r hr u hu q hq
    rcases List.mem_cons.mp hr with rfl | hr
    · rw [hread, Except.ok.injEq] at hu
      subst hu
      by_cases hvisited : q ∈ r :: visited
      · exact hmem q (Or.inl hvisited)
      · refine hmem q (h.pending_mem q (List.mem_append_left _ ?_))
        rw [List.mem_reverse, unvisited, List.mem_filter]
        exact ⟨hq, by simpa using hvisited⟩
    · exact hmem q (h.referred_mem r hr u hu q hq)

/-- In a document that is read the schemas of a name are found among its keys. -/
theorem matchesIn_eq {p : Path} {v : Value} (hread : readDocument w p = .ok v) (name : String) :
    matchesIn w name p = matchesAmong p (namedValues v) name := by
  rw [matchesIn, hread]

/-- **The walk looks at every schema of a name that it can get to**, and does not
stop before nothing is pending. -/
theorem exists_tries_searchFrom
    (hload : ∀ p, Reachable w root p → ∃ v, readDocument w p = .ok v) (name : String)
    (h : WalkState w root fuel visited pending) :
    ∃ ps, LooksInto w root visited pending ps ∧
      Tries w (ps.flatMap (matchesIn w name)) (searchFrom w name fuel visited pending) := by
  fun_induction searchFrom w name fuel visited pending with
  | case1 fuel visited => exact ⟨[], looksInto_nil w root visited, tries_nil w⟩
  | case2 fuel visited p pending hmem ih =>
      obtain ⟨ps, hps, htries⟩ := ih h.tail
      exact ⟨ps, hps.cons_visited (by simpa using hmem), htries⟩
  | case3 visited p pending hmem =>
      have hp : p ∉ visited := by simpa using hmem
      exact absurd rfl (h.fuel_ne_zero hp)
  | case4 visited p pending hmem fuel ih =>
      have hp : p ∉ visited := by simpa using hmem
      have hreach := h.pending_reachable p List.mem_cons_self
      obtain ⟨v, hread⟩ := hload p hreach
      obtain ⟨ps, hps, htries⟩ := ih v (h.next hp hread)
      refine ⟨p :: ps, hps.cons hread hreach, ?_⟩
      rw [List.flatMap_cons, matchesIn_eq hread]
      exact Tries.fetch hread ((tries_searchKeys w p (namedValues v) name).continueWith htries)

/-- The walk starts at the root, and may look into as many documents as there
are paths. -/
theorem walkState_root (hshort : ∀ p, Reachable w root p → p.text.utf8ByteSize ≤ pathLimit) :
    WalkState w root pathCount [] [root] := by
  refine ⟨List.nodup_nil, by simp, fun p hp => ?_, fun ps hps hreach => ?_⟩
  · rw [List.mem_singleton] at hp
    exact hp ▸ .root
  · rw [List.length_nil, Nat.zero_add]
    exact length_le_pathCount hps fun p hp => hshort p (hreach p hp)

/-- The documents that the walk from the root looks into are those that can be
reached. -/
theorem exists_tries_searchReachable
    (hload : ∀ p, Reachable w root p → ∃ v, readDocument w p = .ok v) (name : String) :
    ∃ ps : List Path, (∀ p, p ∈ ps ↔ Reachable w root p) ∧
      Tries w (ps.flatMap (matchesIn w name)) (searchReachable w root name) := by
  have hshort : ∀ p, Reachable w root p → p.text.utf8ByteSize ≤ pathLimit := by
    intro p hp
    obtain ⟨v, hread⟩ := hload p hp
    obtain ⟨l, content, executable, hlocate⟩ := exists_locate_of_readDocument hread
    exact (locate_eq_ok_iff.mp hlocate).2.2.1
  obtain ⟨ps, hps, htries⟩ := exists_tries_searchFrom hload name (walkState_root hshort)
  refine ⟨ps, fun p => ⟨hps.reachable p, fun hp => ?_⟩, htries⟩
  have hroot : root ∈ ps := by simpa using hps.pending_mem root List.mem_cons_self
  exact hp.mem_of_closed hroot fun p hp v hread q hq => by
    simpa using hps.referred_mem p hp v hread q hq

/-! ## What is found -/

/-- A schema that goes by one of some names, in a document that can be reached
from the root. -/
structure IsMatch (w : World) (root : Path) (names : List String) (c : Match) : Prop where
  /-- The document can be reached. -/
  reachable : Reachable w root c.document
  /-- The key spells one of the names, and an object stands under it. -/
  isSchemaNamed : ∃ name ∈ names, isSchemaNamed name c.entry = true
  /-- The key is one of the document's schemas or stands at its top level. -/
  mem_namedValues : ∃ v, readDocument w c.document = .ok v ∧ c.entry ∈ namedValues v

/-- The schemas of a name stand under the keys that spell it. -/
theorem mem_matchesAmong {p : Path} {keys : List (String × Value)} {name : String} {c : Match} :
    c ∈ matchesAmong p keys name ↔
      c.document = p ∧ c.entry ∈ keys ∧ isSchemaNamed name c.entry = true := by
  rw [matchesAmong, List.mem_map]
  constructor
  · intro h
    obtain ⟨entry, hentry, rfl⟩ := h
    exact ⟨rfl, List.mem_filter.mp hentry⟩
  · intro h
    obtain ⟨rfl, hentry⟩ := h
    exact ⟨c.entry, List.mem_filter.mpr hentry, rfl⟩

/-- In a document they stand under its schemas or at its top level. -/
theorem mem_matchesIn {p : Path} {name : String} {c : Match} :
    c ∈ matchesIn w name p ↔ c.document = p ∧ isSchemaNamed name c.entry = true ∧
      ∃ v, readDocument w p = .ok v ∧ c.entry ∈ namedValues v := by
  unfold matchesIn
  cases readDocument w p with
  | error f => simp
  | ok v => simp [mem_matchesAmong, and_comm]

/-- The schemas that the root is asked for first go by one of the names. -/
theorem isMatch_of_mem_rootMatches {c : Match} (h : c ∈ rootMatches w root names) :
    IsMatch w root names c := by
  unfold rootMatches at h
  cases hread : readDocument w root with
  | error f => simp [hread] at h
  | ok v =>
      rw [hread] at h
      obtain ⟨name, hname, hc⟩ := List.mem_flatMap.mp h
      obtain ⟨rfl, hentry, hnamed⟩ := mem_matchesAmong.mp hc
      exact ⟨.root, ⟨name, hname, hnamed⟩, v, hread, List.mem_append_left _ hentry⟩

/-- A lookup looks at the schemas of the root document, and at all that go by
one of the names. -/
theorem exists_tries_searchAll
    (hload : ∀ p, Reachable w root p → ∃ v, readDocument w p = .ok v) (names : List String) :
    ∃ cs, (∀ c, c ∈ rootMatches w root names ++ cs ↔ IsMatch w root names c) ∧
      Tries w (rootMatches w root names ++ cs) (Specification.searchAll w root names) := by
  choose ps hps htries using exists_tries_searchReachable hload
  obtain ⟨v, hread⟩ := hload root .root
  refine ⟨names.flatMap fun name => (ps name).flatMap (matchesIn w name), fun c => ?_,
    (tries_searchRoot hread names).continueWith (Tries.search htries names)⟩
  rw [List.mem_append, List.mem_flatMap]
  constructor
  · intro h
    rcases h with hc | ⟨name, hname, hc⟩
    · exact isMatch_of_mem_rootMatches hc
    · obtain ⟨p, hp, hc⟩ := List.mem_flatMap.mp hc
      obtain ⟨rfl, hnamed, hkey⟩ := mem_matchesIn.mp hc
      exact ⟨(hps name _).mp hp, ⟨name, hname, hnamed⟩, hkey⟩
  · intro h
    obtain ⟨hreach, ⟨name, hname, hnamed⟩, hkey⟩ := h
    exact Or.inr ⟨name, hname, List.mem_flatMap.mpr
      ⟨_, (hps name _).mpr hreach, mem_matchesIn.mpr ⟨rfl, hnamed, hkey⟩⟩⟩

namespace Specification

variable {s : Specification}

/-- A lookup on current documents answers what the whole search does. -/
theorem findEnum_fst_of_answers {names : List String} {y : Except Failure EnumLookup}
    (hs : Current w s.documents) (h : Answers w (searchAll w s.root names) y) :
    (s.findEnum w names).1 = y := by
  obtain ⟨docs, -, hrun⟩ := h s.documents hs
  rw [findEnum, hrun]
  cases y with
  | ok a => rfl
  | error f => rfl

/-- **A lookup is complete.**  When every document that can be reached loads and
every schema that goes by one of the names resolves, a lookup finds an enum if
and only if one of these schemas declares one, and then the enum is declared by
one of them under the key as it is written.  If a schema of the root document
declares one, it is the first such enum by the order of the names and then of
the schemas, with the components before the definitions, whatever the other
documents hold.  It answers that a type is no enum if there are schemas but none
declares one, and that it is missing if there are none. -/
theorem findEnum_complete (hs : Current w s.documents)
    (hload : ∀ p, Reachable w s.root p → ∃ v, readDocument w p = .ok v)
    (hresolve : ∀ c, IsMatch w s.root names c → c.Resolves w) :
    ∃ lookup, (s.findEnum w names).1 = .ok lookup ∧
      ((∃ m, lookup = .found m) ↔ ∃ c m, IsMatch w s.root names c ∧ c.enum? w = some m) ∧
      (∀ m, lookup = .found m → ∃ c, IsMatch w s.root names c ∧ c.enum? w = some m) ∧
      (∀ m, (rootMatches w s.root names).findSome? (Match.enum? w) = some m →
        lookup = .found m) ∧
      ((∃ fault, lookup = .notEnum fault) ↔
        (∃ c, IsMatch w s.root names c) ∧ ∀ c, IsMatch w s.root names c → c.enum? w = none) ∧
      (lookup = .missing ↔ ∀ c, ¬ IsMatch w s.root names c) := by
  obtain ⟨cs, hmem, htries⟩ := exists_tries_searchAll hload names
  generalize htried : rootMatches w s.root names ++ cs = tried at hmem htries
  have hall : ∀ c ∈ tried, c.Resolves w := fun c hc => hresolve c ((hmem c).mp hc)
  have hfound : ∀ m, outcome w tried = .found m →
      ∃ c, IsMatch w s.root names c ∧ c.enum? w = some m := by
    intro m hm
    obtain ⟨c, hc, henum⟩ := List.exists_of_findSome?_eq_some (outcome_eq_found_iff.mp hm)
    exact ⟨c, (hmem c).mp hc, henum⟩
  have hsome : (∃ m, outcome w tried = .found m) ↔
      ∃ c m, IsMatch w s.root names c ∧ c.enum? w = some m := by
    constructor
    · intro h
      obtain ⟨m, hm⟩ := h
      obtain ⟨c, hc, henum⟩ := hfound m hm
      exact ⟨c, m, hc, henum⟩
    · intro h
      obtain ⟨c, m, hc, henum⟩ := h
      have hisSome : (tried.findSome? (Match.enum? w)).isSome = true :=
        List.findSome?_isSome_iff.mpr ⟨c, (hmem c).mpr hc, by rw [henum]; rfl⟩
      obtain ⟨m', hm'⟩ := Option.isSome_iff_exists.mp hisSome
      exact ⟨m', outcome_eq_found_iff.mpr hm'⟩
  have hmissing : outcome w tried = .missing ↔ ∀ c, ¬ IsMatch w s.root names c := by
    rw [outcome_eq_missing_iff hall, List.eq_nil_iff_forall_not_mem]
    exact forall_congr' fun c => not_congr (hmem c)
  refine ⟨outcome w tried, findEnum_fst_of_answers hs (htries hall), hsome, hfound, ?_, ?_,
    hmissing⟩
  · intro m hm
    rw [outcome_eq_found_iff, ← htried, List.findSome?_append, hm]
    rfl
  · rw [exists_notEnum_iff, Ne, hmissing, hsome]
    constructor
    · intro h
      obtain ⟨hmatch, hnone⟩ := h
      push Not at hmatch
      refine ⟨hmatch, fun c hc => Option.eq_none_iff_forall_ne_some.mpr fun m hm => ?_⟩
      exact hnone ⟨c, m, hc, hm⟩
    · intro h
      obtain ⟨⟨c, hc⟩, hnone⟩ := h
      refine ⟨fun h => h c hc, fun ⟨c', m, hc', hm⟩ => ?_⟩
      rw [hnone c' hc'] at hm
      cases hm

/-! ## A document with its definitions before its components -/

/-- A document that declares an enum twice. -/
def twiceSpec : String :=
  "\x7b\"definitions\":\x7b\"A\":\x7b\"enum\":[\"x\"]\x7d\x7d," ++
    "\"components\":\x7b\"schemas\":\x7b\"A\":\x7b\"enum\":[\"y\"]\x7d\x7d\x7d\x7d"

/-- A schema with one permitted value. -/
def oneValue (value : String) : Value :=
  .object [("enum", .array [.string value])]

/-- What the document holds. -/
def twiceDocument : Value :=
  .object [("definitions", .object [("A", oneValue "x")]),
    ("components", .object [("schemas", .object [("A", oneValue "y")])])]

/-- A world with the document. -/
def twiceWorld : World :=
  ⟨.dir [("s.json", .file twiceSpec.toUTF8 false)], [], []⟩

/-- The specification, opened. -/
def twiceOpened : Specification :=
  ⟨⟨"s.json"⟩, [(⟨"s.json"⟩, twiceDocument)]⟩

/-- A schema with one permitted value is read. -/
theorem readValue_oneValue {depth : Nat} {s cs rest : List Char}
    (h : Json.readString cs = some (s, ']' :: '\x7d' :: rest)) :
    Json.outcome (Json.readValue (depth + 2)
      ('\x7b' :: '"' :: ("enum".toList ++ '"' :: ':' :: '[' :: '"' :: cs))) =
        some (oneValue (String.ofList s), rest) :=
  Json.outcome_readValue_object (by simp [Json.skipSpace, Json.isSpace])
    (Json.outcome_readFields_last rfl
      (Json.outcome_readValue_array (by simp [Json.skipSpace, Json.isSpace])
        (Json.outcome_readItems_last (Json.outcome_readValue_string h) rfl)) rfl)

/-- The text is JSON of the document. -/
theorem parse?_twiceSpec : Json.parse? twiceSpec = some twiceDocument := by
  have hchars : twiceSpec.toList =
      '\x7b' :: '"' :: ("definitions".toList ++ '"' :: ':' ::
        '\x7b' :: '"' :: ("A".toList ++ '"' :: ':' ::
          '\x7b' :: '"' :: ("enum".toList ++ '"' :: ':' ::
            '[' :: '"' :: 'x' :: '"' :: ']' :: '\x7d' :: '\x7d' :: ',' ::
      '"' :: ("components".toList ++ '"' :: ':' ::
        '\x7b' :: '"' :: ("schemas".toList ++ '"' :: ':' ::
          '\x7b' :: '"' :: ("A".toList ++ '"' :: ':' ::
            '\x7b' :: '"' :: ("enum".toList ++ '"' :: ':' ::
              '[' :: '"' :: 'y' :: '"' :: ']' ::
                '\x7d' :: '\x7d' :: '\x7d' :: ['\x7d']))))))) := by
    decide
  have hdefinitions (rest : List Char) : Json.outcome (Json.readValue 126
      ('\x7b' :: '"' :: ("A".toList ++ '"' :: ':' ::
        '\x7b' :: '"' :: ("enum".toList ++ '"' :: ':' ::
          '[' :: '"' :: 'x' :: '"' :: ']' :: '\x7d' :: '\x7d' :: rest)))) =
      some (.object [("A", oneValue "x")], rest) :=
    Json.outcome_readValue_object (by simp [Json.skipSpace, Json.isSpace])
      (Json.outcome_readFields_last rfl (readValue_oneValue rfl) rfl)
  have hcomponents : Json.outcome (Json.readValue 126
      ('\x7b' :: '"' :: ("schemas".toList ++ '"' :: ':' ::
        '\x7b' :: '"' :: ("A".toList ++ '"' :: ':' ::
          '\x7b' :: '"' :: ("enum".toList ++ '"' :: ':' ::
            '[' :: '"' :: 'y' :: '"' :: ']' ::
              '\x7d' :: '\x7d' :: '\x7d' :: ['\x7d']))))) =
      some (.object [("schemas", .object [("A", oneValue "y")])], ['\x7d']) :=
    Json.outcome_readValue_object (by decide) (Json.outcome_readFields_last rfl
      (Json.outcome_readValue_object (by decide) (Json.outcome_readFields_last rfl
        (readValue_oneValue rfl) rfl)) rfl)
  have hread : Json.outcome (Json.readValue Json.depthLimit twiceSpec.toList) =
      some (twiceDocument, []) := by
    rw [hchars]
    refine Json.outcome_readValue_object (by decide) (Json.outcome_readFields_cons
      (Json.readString_plain (by decide)) (hdefinitions _) rfl ?_)
    exact Json.outcome_readFields_last (Json.readString_plain (by decide)) hcomponents rfl
  exact Json.parse?_eq_some hread rfl

theorem readDocument_twiceWorld : readDocument twiceWorld ⟨"s.json"⟩ = .ok twiceDocument :=
  readDocument_specFile Entry.at?_nil rfl parse?_twiceSpec

/-- The specification is opened. -/
theorem openAt_twiceWorld : openAt twiceWorld ⟨"s.json"⟩ = .ok twiceOpened :=
  openAt_specFile readDocument_twiceWorld

/-- The document refers to no other. -/
theorem eq_of_reachable_twiceWorld {p : Path} (h : Reachable twiceWorld ⟨"s.json"⟩ p) :
    p = ⟨"s.json"⟩ := by
  have hnone : references twiceDocument = [] := by rfl
  induction h with
  | root => rfl
  | referred _ hread htext _ _ ih =>
      rw [ih, readDocument_twiceWorld, Except.ok.injEq] at hread
      subst hread
      rw [← mem_references_iff, hnone] at htext
      cases htext

/-- So every document that can be reached is read. -/
theorem exists_readDocument_twiceWorld (p : Path) (h : Reachable twiceWorld twiceOpened.root p) :
    ∃ v, readDocument twiceWorld p = .ok v := by
  rw [eq_of_reachable_twiceWorld h]
  exact ⟨twiceDocument, readDocument_twiceWorld⟩

/-- No schema of it is a reference, so each resolves to itself. -/
theorem resolves_twiceWorld (c : Match) (h : IsMatch twiceWorld twiceOpened.root ["A"] c) :
    c.Resolves twiceWorld := by
  obtain ⟨hreach, -, v, hread, hmem⟩ := h
  rw [eq_of_reachable_twiceWorld hreach, readDocument_twiceWorld, Except.ok.injEq] at hread
  subst hread
  have hnone : ∀ e ∈ namedValues twiceDocument, referenceIn? e.2 = none := by decide +kernel
  refine ⟨c.entry.2, ?_⟩
  rw [resolve, show referenceLimit = 31 + 1 from rfl, resolveWithin, hnone _ hmem]
  rfl

/-- The definition stands before the component, but it is the component that is
found. -/
theorem findEnum_prefers_components :
    openAt twiceWorld ⟨"s.json"⟩ = .ok twiceOpened ∧
      (∀ p, Reachable twiceWorld twiceOpened.root p → ∃ v, readDocument twiceWorld p = .ok v) ∧
      (∀ c, IsMatch twiceWorld twiceOpened.root ["A"] c → c.Resolves twiceWorld) ∧
      readDocument twiceWorld twiceOpened.root =
        .ok (.object [("definitions", .object [("A", oneValue "x")]),
          ("components", .object [("schemas", .object [("A", oneValue "y")])])]) ∧
      Match.enum? twiceWorld ⟨twiceOpened.root, ("A", oneValue "x")⟩ =
        some ⟨"A", [⟨"x", "x", none⟩]⟩ ∧
      (twiceOpened.findEnum twiceWorld ["A"]).1 = .ok (.found ⟨"A", [⟨"y", "y", none⟩]⟩) := by
  have hfind : (twiceOpened.findEnum twiceWorld ["A"]).1.toOption =
      some (.found ⟨"A", [⟨"y", "y", none⟩]⟩) := by
    decide +kernel
  exact ⟨openAt_twiceWorld, exists_readDocument_twiceWorld, resolves_twiceWorld,
    readDocument_twiceWorld, by decide +kernel, eq_ok_of_toOption hfind⟩

/-! ## An enum in a document that is referred to -/

/-- An object with one text is read. -/
theorem readValue_textField {depth : Nat} {key text : List Char} (hkey : Json.isPlain key = true)
    (htext : Json.isPlain text = true) (rest : List Char) :
    Json.outcome (Json.readValue (depth + 1)
      ('\x7b' :: '"' :: (key ++ '"' :: ':' :: '"' :: (text ++ '"' :: '\x7d' :: rest)))) =
        some (.object [(String.ofList key, .string (String.ofList text))], rest) :=
  Json.outcome_readValue_object (by simp [Json.skipSpace, Json.isSpace])
    (Json.outcome_readFields_last (Json.readString_plain hkey)
      (Json.outcome_readValue_string (Json.readString_plain htext)) rfl)

/-- A document with a type that is no enum, and a reference to another document. -/
def referringSpec : String :=
  "\x7b\"definitions\":\x7b\"A\":\x7b\"type\":\"string\"\x7d," ++
    "\"B\":\x7b\"$ref\":\"t.json#/A\"\x7d\x7d\x7d"

/-- The other document, with an enum of the same name. -/
def referredSpec : String :=
  "\x7b\"A\":\x7b\"enum\":[\"y\"]\x7d\x7d"

/-- What the first document holds. -/
def referringDocument : Value :=
  .object [("definitions", .object [("A", .object [("type", .string "string")]),
    ("B", .object [("$ref", .string "t.json#/A")])])]

/-- What the other document holds. -/
def referredDocument : Value :=
  .object [("A", oneValue "y")]

/-- A world with the two documents. -/
def referringWorld : World :=
  ⟨.dir [("s.json", .file referringSpec.toUTF8 false),
    ("t.json", .file referredSpec.toUTF8 false)], [], []⟩

/-- The first document, opened. -/
def referringOpened : Specification :=
  ⟨⟨"s.json"⟩, [(⟨"s.json"⟩, referringDocument)]⟩

/-- The first document is JSON. -/
theorem parse?_referringSpec : Json.parse? referringSpec = some referringDocument := by
  have hchars : referringSpec.toList =
      '\x7b' :: '"' :: ("definitions".toList ++ '"' :: ':' ::
        '\x7b' :: '"' :: ("A".toList ++ '"' :: ':' ::
          '\x7b' :: '"' :: ("type".toList ++ '"' :: ':' ::
            '"' :: ("string".toList ++ '"' :: '\x7d' :: ',' ::
        '"' :: ("B".toList ++ '"' :: ':' ::
          '\x7b' :: '"' :: ("$ref".toList ++ '"' :: ':' ::
            '"' :: ("t.json#/A".toList ++ '"' :: '\x7d' :: '\x7d' :: ['\x7d']))))))) := by
    decide
  have hdefinitions : Json.outcome (Json.readValue 126
      ('\x7b' :: '"' :: ("A".toList ++ '"' :: ':' ::
          '\x7b' :: '"' :: ("type".toList ++ '"' :: ':' ::
            '"' :: ("string".toList ++ '"' :: '\x7d' :: ',' ::
        '"' :: ("B".toList ++ '"' :: ':' ::
          '\x7b' :: '"' :: ("$ref".toList ++ '"' :: ':' ::
            '"' :: ("t.json#/A".toList ++ '"' :: '\x7d' :: '\x7d' :: ['\x7d'])))))))) =
      some (.object [("A", .object [("type", .string "string")]),
        ("B", .object [("$ref", .string "t.json#/A")])], ['\x7d']) := by
    refine Json.outcome_readValue_object (by decide) (Json.outcome_readFields_cons
      (Json.readString_plain (by decide))
      (readValue_textField (by decide) (by decide) _) rfl ?_)
    exact Json.outcome_readFields_last (Json.readString_plain (by decide))
      (readValue_textField (by decide) (by decide) _) rfl
  have hread : Json.outcome (Json.readValue Json.depthLimit referringSpec.toList) =
      some (referringDocument, []) := by
    rw [hchars]
    exact Json.outcome_readValue_object (by decide) (Json.outcome_readFields_last
      (Json.readString_plain (by decide)) hdefinitions rfl)
  exact Json.parse?_eq_some hread rfl

/-- The other document is JSON too. -/
theorem parse?_referredSpec : Json.parse? referredSpec = some referredDocument := by
  have hchars : referredSpec.toList = '\x7b' :: '"' :: ("A".toList ++ '"' :: ':' ::
      '\x7b' :: '"' :: ("enum".toList ++ '"' :: ':' ::
        '[' :: '"' :: 'y' :: '"' :: ']' :: '\x7d' :: ['\x7d'])) := by
    decide
  have hread : Json.outcome (Json.readValue Json.depthLimit referredSpec.toList) =
      some (referredDocument, []) := by
    rw [hchars]
    exact Json.outcome_readValue_object (by decide) (Json.outcome_readFields_last
      (Json.readString_plain (by decide)) (readValue_oneValue rfl) rfl)
  exact Json.parse?_eq_some hread rfl

/-- Both documents are read. -/
theorem readDocument_referringWorld :
    readDocument referringWorld ⟨"s.json"⟩ = .ok referringDocument ∧
      readDocument referringWorld ⟨"t.json"⟩ = .ok referredDocument :=
  ⟨readDocument_specFile Entry.at?_nil rfl parse?_referringSpec,
    readDocument_of_json (readText_name (by decide) (by decide) (by decide) Entry.at?_nil rfl)
      (by decide) parse?_referredSpec⟩

/-- The other document is the only one that is referred to. -/
theorem referredDocuments_referringWorld :
    referredDocuments referringWorld ⟨"s.json"⟩ referringDocument = [⟨"t.json"⟩] ∧
      referredDocuments referringWorld ⟨"t.json"⟩ referredDocument = [] := by
  have hthere : referringWorld.isFile ⟨"t.json"⟩ = true := by
    exact isFile_of_locate
      (locate_name (by decide) (by decide) (by decide) Entry.at?_nil rfl (by simp) true)
  have hnamed : ((((references referringDocument).map Reference.ofText).filter (·.file ≠ "")).map
      (·.document ⟨"s.json"⟩)) = [⟨"t.json"⟩] := by decide +kernel
  constructor
  · rw [referredDocuments, hnamed]
    simp [hthere]
  · decide +kernel

/-- Just the two documents can be reached. -/
theorem reachable_referringWorld {p : Path} :
    Reachable referringWorld ⟨"s.json"⟩ p ↔ p = ⟨"s.json"⟩ ∨ p = ⟨"t.json"⟩ := by
  obtain ⟨hfirst, hsecond⟩ := readDocument_referringWorld
  obtain ⟨hrefers, hnone⟩ := referredDocuments_referringWorld
  constructor
  · intro h
    have hclosed : ∀ q ∈ [⟨"s.json"⟩, ⟨"t.json"⟩], ∀ v, readDocument referringWorld q = .ok v →
        ∀ r ∈ referredDocuments referringWorld q v, r ∈ [⟨"s.json"⟩, ⟨"t.json"⟩] := by
      intro q hq v hread r hr
      rcases List.mem_pair.mp hq with rfl | rfl
      · rw [hfirst, Except.ok.injEq] at hread
        rw [← hread, hrefers] at hr
        exact List.mem_cons_of_mem _ hr
      · rw [hsecond, Except.ok.injEq] at hread
        rw [← hread, hnone] at hr
        cases hr
    exact List.mem_pair.mp (h.mem_of_closed List.mem_cons_self hclosed)
  · intro h
    rcases h with rfl | rfl
    · exact .root
    · exact Reachable.root.of_mem_referredDocuments hfirst (by rw [hrefers]; simp)

/-- In either document one schema goes by the name. -/
theorem mem_namedValues_referringWorld (entry : String × Value) :
    (entry ∈ namedValues referringDocument ∧ isSchemaNamed "A" entry = true ↔
      entry = ("A", .object [("type", .string "string")])) ∧
    (entry ∈ namedValues referredDocument ∧ isSchemaNamed "A" entry = true ↔
      entry = ("A", oneValue "y")) := by
  have hother : typeNameKey "B" ≠ typeNameKey "A" ∧
      typeNameKey "definitions" ≠ typeNameKey "A" := by
    decide +kernel
  have hfirst : namedValues referringDocument =
      [("A", .object [("type", .string "string")]), ("B", .object [("$ref", .string "t.json#/A")]),
        ("definitions", .object [("A", .object [("type", .string "string")]),
          ("B", .object [("$ref", .string "t.json#/A")])])] := by
    rw [namedValues, schemasOf_eq]
    rfl
  have hsecond : namedValues referredDocument = [("A", oneValue "y")] := by
    rw [namedValues, schemasOf_eq]
    rfl
  constructor
  · rw [← List.mem_filter, hfirst]
    simp [isSchemaNamed, Value.isObject, hother]
  · rw [← List.mem_filter, hsecond]
    simp [isSchemaNamed, Value.isObject, oneValue]

/-- So there are two schemas to look at. -/
theorem isMatch_referringWorld {c : Match} :
    IsMatch referringWorld referringOpened.root ["A"] c ↔
      c = ⟨⟨"s.json"⟩, ("A", .object [("type", .string "string")])⟩ ∨
        c = ⟨⟨"t.json"⟩, ("A", oneValue "y")⟩ := by
  obtain ⟨hfirst, hsecond⟩ := readDocument_referringWorld
  obtain ⟨document, entry⟩ := c
  obtain ⟨hnamed, hnamed'⟩ := mem_namedValues_referringWorld entry
  simp only [Match.mk.injEq]
  constructor
  · intro h
    obtain ⟨hreach, ⟨name, hname, hspells⟩, v, hread, hmem⟩ := h
    rw [List.mem_singleton.mp hname] at hspells
    rcases reachable_referringWorld.mp hreach with rfl | rfl
    · rw [hfirst, Except.ok.injEq] at hread
      exact .inl ⟨rfl, hnamed.mp ⟨hread ▸ hmem, hspells⟩⟩
    · rw [hsecond, Except.ok.injEq] at hread
      exact .inr ⟨rfl, hnamed'.mp ⟨hread ▸ hmem, hspells⟩⟩
  · intro h
    rcases h with ⟨rfl, hentry⟩ | ⟨rfl, hentry⟩
    · obtain ⟨hmem, hspells⟩ := hnamed.mpr hentry
      exact ⟨.root, ⟨"A", List.mem_singleton_self _, hspells⟩, _, hfirst, hmem⟩
    · obtain ⟨hmem, hspells⟩ := hnamed'.mpr hentry
      exact ⟨reachable_referringWorld.mpr (.inr rfl), ⟨"A", List.mem_singleton_self _, hspells⟩, _,
        hsecond, hmem⟩

/-- The root document declares no enum, and the one that is found is declared by the document
that it refers to. -/
theorem findEnum_complete_referring :
    openAt referringWorld ⟨"s.json"⟩ = .ok referringOpened ∧
      (rootMatches referringWorld referringOpened.root ["A"]).findSome?
        (Match.enum? referringWorld) = none ∧
      (referringOpened.findEnum referringWorld ["A"]).1 =
        .ok (.found ⟨"A", [⟨"y", "y", none⟩]⟩) := by
  obtain ⟨hfirst, hsecond⟩ := readDocument_referringWorld
  have hopen : openAt referringWorld ⟨"s.json"⟩ = .ok referringOpened := openAt_specFile hfirst
  have hnone : Match.enum? referringWorld
      ⟨⟨"s.json"⟩, ("A", .object [("type", .string "string")])⟩ = none := by decide +kernel
  have henum : Match.enum? referringWorld ⟨⟨"t.json"⟩, ("A", oneValue "y")⟩ =
      some ⟨"A", [⟨"y", "y", none⟩]⟩ := by decide +kernel
  have hload : ∀ p, Reachable referringWorld ⟨"s.json"⟩ p →
      ∃ v, readDocument referringWorld p = .ok v := by
    intro p hp
    rcases reachable_referringWorld.mp hp with rfl | rfl
    · exact ⟨_, hfirst⟩
    · exact ⟨_, hsecond⟩
  have hresolve : ∀ c, IsMatch referringWorld ⟨"s.json"⟩ ["A"] c → c.Resolves referringWorld := by
    intro c hc
    rcases isMatch_referringWorld.mp hc with rfl | rfl
    · exact ⟨_, rfl⟩
    · exact ⟨_, rfl⟩
  obtain ⟨lookup, hlookup, hfound, hdeclared, -, -, -⟩ :=
    findEnum_complete (current_openAt hopen) hload hresolve
  obtain ⟨m, rfl⟩ := hfound.mpr ⟨_, _, isMatch_referringWorld.mpr (.inr rfl), henum⟩
  obtain ⟨c, hc, hm⟩ := hdeclared m rfl
  refine ⟨hopen, ?_, ?_⟩
  · rw [rootMatches, show referringOpened.root = ⟨"s.json"⟩ from rfl, hfirst]
    decide +kernel
  · rw [hlookup]
    rcases isMatch_referringWorld.mp hc with rfl | rfl
    · rw [hnone] at hm
      cases hm
    · rw [henum, Option.some.injEq] at hm
      rw [hm]

end Specification

end ClientRegen
