import ClientRegen.Proofs.FileTree.Ways
import ClientRegen.Proofs.Spec.Chains

/-!
# Lookups one after another

One specification serves many lookups, and each of them keeps what it reads,
also when it fails half way.  A lookup leaves the specification current and does
not depend on what is kept as long as it is current, so by induction on the
lookups each one answers what it would answer first, and every document that is
kept in the end is what its file holds (`lookups_answer_fresh`).
-/

namespace ClientRegen

variable {w : World} {p : Path} {s t : Specification}

namespace Specification

/-- The answers of lookups that follow one another, and the specification after
the last of them. -/
def lookups (w : World) :
    List (List String) → Specification → List (Except Failure EnumLookup) × Specification
  | [], s => ([], s)
  | names :: calls, s =>
    let first := s.findEnum w names
    let others := lookups w calls first.2
    (first.1 :: others.1, others.2)

/-- Lookups leave the specification current, with the same root. -/
theorem current_lookups (hs : Current w s.documents) (calls : List (List String)) :
    Current w (s.lookups w calls).2.documents ∧ (s.lookups w calls).2.root = s.root := by
  induction calls generalizing s with
  | nil => exact ⟨hs, rfl⟩
  | cons names calls ih =>
      obtain ⟨hcurrent, hroot⟩ := ih (current_findEnum hs names)
      exact ⟨hcurrent, hroot.trans (root_findEnum s w names)⟩

/-- Lookups answer what each of them answers alone. -/
theorem lookups_fst_eq (hs : Current w s.documents) (ht : Current w t.documents)
    (hroot : s.root = t.root) (calls : List (List String)) :
    (s.lookups w calls).1 = calls.map fun names => (t.findEnum w names).1 := by
  induction calls generalizing s with
  | nil => rfl
  | cons names calls ih =>
      have hrest := ih (current_findEnum hs names) ((root_findEnum s w names).trans hroot)
      rw [List.map_cons, ← findEnum_fst_eq hs ht hroot names, ← hrest]
      rfl

/-- **What is kept cannot be seen.**  Each of the lookups that follow one another
on an opened specification answers, or fails with, what it does on the
specification as it was opened, whether those before it found anything or not or
failed.  Whatever they keep is what reading the file gives. -/
theorem lookups_answer_fresh (hopen : openAt w p = .ok s) (calls : List (List String)) :
    (s.lookups w calls).1 = calls.map (fun names => (s.findEnum w names).1) ∧
      (s.lookups w calls).2.root = s.root ∧
      ∀ q v, (s.lookups w calls).2.documents.lookup q = some v → readDocument w q = .ok v := by
  have hs := current_openAt hopen
  obtain ⟨hcurrent, hroot⟩ := current_lookups hs calls
  exact ⟨lookups_fst_eq hs hs rfl calls, hroot, hcurrent⟩

end Specification

/-! ## Two documents that refer to each other -/

/-- A document with an enum, and a reference to what the other document does not
hold. -/
def firstSpec : String :=
  "\x7b\"definitions\":\x7b\"A\":\x7b\"$ref\":\"t.json#/Z\"\x7d," ++
    "\"B\":\x7b\"enum\":[\"x\"]\x7d\x7d\x7d"

/-- A document that refers back, in another spelling. -/
def secondSpec : String :=
  "\x7b\"C\":\x7b\"$ref\":\"./x/../s.json\"\x7d\x7d"

/-- What the first document holds. -/
def firstDocument : Value :=
  .object [("definitions", .object [("A", refValue "t.json#/Z"),
    ("B", Specification.oneValue "x")])]

/-- What the second document holds. -/
def secondDocument : Value :=
  .object [("C", refValue "./x/../s.json")]

/-- A world with the two documents. -/
def mutualWorld : World :=
  ⟨.dir [("s.json", .file firstSpec.toUTF8 false), ("t.json", .file secondSpec.toUTF8 false)],
    [], []⟩

/-- The specification, opened. -/
def mutualOpened : Specification :=
  ⟨⟨"/s.json"⟩, [(⟨"/s.json"⟩, firstDocument)]⟩

theorem parse?_firstSpec : Json.parse? firstSpec = some firstDocument := by
  have hchars : firstSpec.toList = '\x7b' :: '"' :: ("definitions".toList ++ '"' :: ':' ::
      '\x7b' :: '"' :: ("A".toList ++ '"' :: ':' ::
        refChars "t.json#/Z".toList (',' :: '"' :: ("B".toList ++ '"' :: ':' ::
          '\x7b' :: '"' :: ("enum".toList ++ '"' :: ':' ::
            '[' :: '"' :: 'x' :: '"' :: ']' :: '\x7d' :: '\x7d' :: ['\x7d']))))) := by
    decide
  have hdefinitions : Json.outcome (Json.readValue 126
      ('\x7b' :: '"' :: ("A".toList ++ '"' :: ':' ::
        refChars "t.json#/Z".toList (',' :: '"' :: ("B".toList ++ '"' :: ':' ::
          '\x7b' :: '"' :: ("enum".toList ++ '"' :: ':' ::
            '[' :: '"' :: 'x' :: '"' :: ']' :: '\x7d' :: '\x7d' :: ['\x7d'])))))) =
      some (.object [("A", refValue "t.json#/Z"), ("B", Specification.oneValue "x")],
        ['\x7d']) := by
    refine Json.outcome_readValue_object (by decide) (Json.outcome_readFields_cons
      (Json.readString_plain (by decide)) (readValue_refChars (by decide) _) rfl ?_)
    exact Json.outcome_readFields_last (Json.readString_plain (by decide))
      (Specification.readValue_oneValue rfl) rfl
  have hread : Json.outcome (Json.readValue Json.depthLimit firstSpec.toList) =
      some (firstDocument, []) := by
    rw [hchars]
    exact Json.outcome_readValue_object (by decide) (Json.outcome_readFields_last
      (Json.readString_plain (by decide)) hdefinitions rfl)
  exact Json.parse?_eq_some hread rfl

theorem parse?_secondSpec : Json.parse? secondSpec = some secondDocument := by
  have hchars : secondSpec.toList = '\x7b' :: '"' :: ("C".toList ++ '"' :: ':' ::
      refChars "./x/../s.json".toList ['\x7d']) := by
    decide
  have hread : Json.outcome (Json.readValue Json.depthLimit secondSpec.toList) =
      some (secondDocument, []) := by
    rw [hchars]
    exact Json.outcome_readValue_object (by decide) (Json.outcome_readFields_last
      (Json.readString_plain (by decide)) (readValue_refChars (by decide) _) rfl)
  exact Json.parse?_eq_some hread rfl

theorem readDocument_mutualWorld :
    readDocument mutualWorld ⟨"/s.json"⟩ = .ok firstDocument ∧
      readDocument mutualWorld ⟨"/t.json"⟩ = .ok secondDocument :=
  ⟨readDocument_of_json
      (@readText_of_spells mutualWorld ⟨"/s.json"⟩ ["s.json"] _ false (by decide +kernel) rfl)
      (by decide +kernel) parse?_firstSpec,
    readDocument_of_json
      (@readText_of_spells mutualWorld ⟨"/t.json"⟩ ["t.json"] _ false (by decide +kernel) rfl)
      (by decide +kernel) parse?_secondSpec⟩

namespace Specification

theorem openAt_mutualWorld : openAt mutualWorld ⟨"/s.json"⟩ = .ok mutualOpened := by
  have hnormal : (⟨"/s.json"⟩ : Path).normalize = ⟨"/s.json"⟩ := by decide +kernel
  rw [openAt_eq_ok_iff, hnormal]
  exact ⟨firstDocument, readDocument_mutualWorld.1, rfl⟩

/-- The first lookup fails after it has read the second document, and the next one
finds what it would have found without it. -/
theorem lookups_answer_fresh_mutual :
    openAt mutualWorld ⟨"/s.json"⟩ = .ok mutualOpened ∧
      ∃ fault, (mutualOpened.lookups mutualWorld [["A"], ["B"]]).1 =
        [.error fault, .ok (.found ⟨"B", [⟨"x", "x", none⟩]⟩)] := by
  obtain ⟨hanswers, -, -⟩ := lookups_answer_fresh openAt_mutualWorld [["A"], ["B"]]
  -- both answers are those that are given when all documents are kept
  have hkept : Current mutualWorld [(⟨"/t.json"⟩, secondDocument), (⟨"/s.json"⟩, firstDocument)] :=
    ((current_nil _).cons readDocument_mutualWorld.1).cons readDocument_mutualWorld.2
  have hsame := findEnum_fst_eq (current_openAt openAt_mutualWorld)
    (t := ⟨⟨"/s.json"⟩, [(⟨"/t.json"⟩, secondDocument), (⟨"/s.json"⟩, firstDocument)]⟩) hkept rfl
  have hfails : (mutualOpened.findEnum mutualWorld ["A"]).1.toOption = none := by
    rw [hsame]
    decide +kernel
  have hfinds : (mutualOpened.findEnum mutualWorld ["B"]).1 =
      .ok (.found ⟨"B", [⟨"x", "x", none⟩]⟩) := by
    rw [hsame]
    exact eq_ok_of_toOption (by decide +kernel)
  refine ⟨openAt_mutualWorld, ?_⟩
  rw [hanswers, List.map_cons, List.map_singleton, hfinds]
  cases hfirst : (mutualOpened.findEnum mutualWorld ["A"]).1 with
  | ok lookup =>
      rw [hfirst] at hfails
      cases hfails
  | error fault => exact ⟨fault, rfl⟩

end Specification

end ClientRegen
