import ClientRegen.Proofs.Spec.Searching
import ClientRegen.Proofs.Text.LetterCase

/-!
# The names that a lookup takes for one

What a search finds stands under a key that has the letters of one of the names
looked for, as far as they are ASCII (`findEnum_typeName`).  Where all letters
and digits of two names are ASCII, such names differ only in case and in
characters that are neither (`typeNameKey_eq_iff`).

Other letters are left out of a key.  So two names that differ in these only are
taken for one (`findEnum_confuses`), and so are all names without ASCII letters
and digits (`typeNameKey_eq_empty_iff`).
-/

namespace ClientRegen

variable {α β : Type} {w : World} {P Q : EnumMetadata → Prop} {name name' : String}
  {counts : Char → Bool}

/-! ## The letters of a name -/

/-- The letters and digits of a name, in lower case.  `counts` tells which
characters are letters or digits. -/
def lettersOf (counts : Char → Bool) (name : String) : List Char :=
  (name.toList.filter counts).flatMap Text.lowerForm

/-- Among the ASCII characters the letters and digits count. -/
def CountsAscii (counts : Char → Bool) : Prop :=
  ∀ c : Char, c.toNat < 128 → counts c = c.isAlphanum

/-- All letters and digits of a name are ASCII. -/
def IsAsciiName (counts : Char → Bool) (name : String) : Prop :=
  ∀ c ∈ name.toList, counts c = true → c.toNat < 128

/-- The key of a name has its letters, if these are ASCII. -/
theorem toList_typeNameKey (hcounts : CountsAscii counts) (hname : IsAsciiName counts name) :
    (typeNameKey name).toList = lettersOf counts name := by
  have hsame : ∀ c ∈ name.toList, c.isAlphanum = counts c := by
    intro c hc
    rw [Bool.eq_iff_iff]
    constructor
    · intro h
      rw [hcounts c (toNat_lt_of_isAlphanum h), h]
    · intro h
      rw [← hcounts c (hname c hc h), h]
  rw [typeNameKey, String.toList_ofList, Text.nameKey, lettersOf, List.filter_congr hsame,
    List.map_eq_flatMap]
  apply List.flatMap_congr
  intro c hc
  obtain ⟨hmem, hcount⟩ := List.mem_filter.mp hc
  rw [lowerForm_of_ascii (hname c hmem hcount)]

/-- **Names with ASCII letters and digits only have one key when they have the
same letters and digits up to case.** -/
theorem typeNameKey_eq_iff (hcounts : CountsAscii counts) (hname : IsAsciiName counts name)
    (hname' : IsAsciiName counts name') :
    typeNameKey name = typeNameKey name' ↔ lettersOf counts name = lettersOf counts name' := by
  rw [← String.toList_inj, toList_typeNameKey hcounts hname, toList_typeNameKey hcounts hname']

/-- Without ASCII letters and digits nothing of a name is left. -/
theorem typeNameKey_eq_empty_iff :
    typeNameKey name = "" ↔ ∀ c ∈ name.toList, c.isAlphanum = false := by
  rw [← String.toList_inj, typeNameKey, String.toList_ofList, Text.nameKey, String.toList_empty,
    List.map_eq_nil_iff, List.filter_eq_nil_iff]
  simp only [Bool.not_eq_true]

/-! ## What work answers -/

/-- Whatever the work answers has a property. -/
def Yields (Q : α → Prop) (x : Loading α) : Prop :=
  ∀ docs docs' a, x docs = .ok a docs' → Q a

theorem yields_true (x : Loading α) : Yields (fun _ => True) x :=
  fun _ _ _ _ => trivial

/-- What is answered at once has the property if it is given with it. -/
theorem yields_pure {Q : α → Prop} {a : α} (h : Q a) : Yields Q (pure a) := by
  intro docs docs' b hb
  cases hb
  exact h

/-- A weaker property holds as well. -/
theorem Yields.mono {Q R : α → Prop} {x : Loading α} (h : Yields Q x) (hQR : ∀ a, Q a → R a) :
    Yields R x :=
  fun docs docs' a ha => hQR a (h docs docs' a ha)

/-- What follows work may rely on a property of its answer. -/
theorem Yields.bind {Q : α → Prop} {R : β → Prop} {x : Loading α} {f : α → Loading β}
    (hx : Yields Q x) (hf : ∀ a, Q a → Yields R (f a)) : Yields R (x >>= f) := by
  intro docs docs' b hb
  cases hrun : x docs with
  | ok a docs'' =>
      rw [bind_eq_of_ok hrun] at hb
      exact hf a (hx _ _ _ hrun) _ _ _ hb
  | error fault docs'' =>
      rw [bind_eq_of_error hrun] at hb
      cases hb

/-! ## The enums that a search finds -/

/-- If a lookup found an enum, it has a property. -/
def EnumLookup.FindsOnly (P : EnumMetadata → Prop) (lookup : EnumLookup) : Prop :=
  ∀ m, lookup = .found m → P m

theorem EnumLookup.findsOnly_missing : EnumLookup.missing.FindsOnly P := by
  intro m hm
  cases hm

theorem EnumLookup.findsOnly_notEnum (fault : SchemaFault) :
    (EnumLookup.notEnum fault).FindsOnly P := by
  intro m hm
  cases hm

theorem EnumLookup.FindsOnly.mono {lookup : EnumLookup} (h : lookup.FindsOnly P)
    (hPQ : ∀ m, P m → Q m) : lookup.FindsOnly Q :=
  fun m hm => hPQ m (h m hm)

/-- Of two answers with the property the better one has it. -/
theorem EnumLookup.FindsOnly.orLater {first later : EnumLookup} (hfirst : first.FindsOnly P)
    (hlater : later.FindsOnly P) : (first.orLater later).FindsOnly P := by
  cases first with
  | found m => exact hfirst
  | missing => exact hlater
  | notEnum fault =>
      cases later with
      | found m => exact hlater
      | notEnum _ => exact EnumLookup.findsOnly_notEnum fault
      | missing => exact EnumLookup.findsOnly_notEnum fault

/-- So has what a search comes to when it goes on. -/
theorem yields_continueWith {first : EnumLookup} {next : Loading EnumLookup}
    (hfirst : first.FindsOnly P) (hnext : Yields (EnumLookup.FindsOnly P) next) :
    Yields (EnumLookup.FindsOnly P) (first.continueWith next) := by
  cases first with
  | found m => exact yields_pure hfirst
  | notEnum fault => exact hnext.bind fun later hlater => yields_pure (hfirst.orLater hlater)
  | missing => exact hnext.bind fun later hlater => yields_pure (hfirst.orLater hlater)

/-- Trying things finds only what one of the tries finds. -/
theorem yields_search {try_ : α → Loading EnumLookup} {xs : List α}
    (h : ∀ a ∈ xs, Yields (EnumLookup.FindsOnly P) (try_ a)) :
    Yields (EnumLookup.FindsOnly P) (search try_ xs) := by
  induction xs with
  | nil => exact yields_pure EnumLookup.findsOnly_missing
  | cons a xs ih =>
      rw [List.forall_mem_cons] at h
      exact h.1.bind fun first hfirst => yields_continueWith hfirst (ih h.2)

/-- An enum is named by the key that it was read under. -/
theorem Schema.typeName_of_enum {typeName : String} {schema : Value} {m : EnumMetadata}
    (h : Schema.enum typeName schema = .ok m) : m.typeName = typeName := by
  unfold Schema.enum at h
  split at h
  · obtain ⟨entries, -, rfl⟩ := map_eq_ok_iff.mp h
    rfl
  · split at h
    · obtain ⟨entries, -, rfl⟩ := map_eq_ok_iff.mp h
      rfl
    · cases h

/-- An enum has the name under which its schema stands. -/
theorem yields_lookAt (w : World) (document : Path) (entry : String × Value) :
    Yields (EnumLookup.FindsOnly fun m => m.typeName = entry.1) (lookAt w document entry) := by
  refine (yields_true (resolve w document entry.2)).bind fun schema _ => ?_
  split
  · rename_i m henum
    refine yields_pure fun m' hm' => ?_
    cases hm'
    exact Schema.typeName_of_enum henum
  · exact yields_pure (EnumLookup.findsOnly_notEnum _)

/-- The name of an enum is spelled like the name that is looked for. -/
theorem yields_searchKeys (w : World) (document : Path) (keys : List (String × Value))
    (name : String) :
    Yields (EnumLookup.FindsOnly fun m => typeNameKey m.typeName = typeNameKey name)
      (searchKeys w document keys name) := by
  refine yields_search fun entry hentry => (yields_lookAt w document entry).mono fun lookup h => ?_
  refine h.mono fun m hm => ?_
  rw [hm]
  have hnamed := (List.mem_filter.mp hentry).2
  exact eq_of_beq (Bool.and_eq_true_iff.mp hnamed).2

/-- The walk over the documents finds only enums under a spelling of the name. -/
theorem yields_searchFrom (w : World) (name : String) (fuel : Nat) (visited pending : List Path) :
    Yields (EnumLookup.FindsOnly fun m => typeNameKey m.typeName = typeNameKey name)
      (searchFrom w name fuel visited pending) := by
  fun_induction searchFrom w name fuel visited pending with
  | case1 => exact yields_pure EnumLookup.findsOnly_missing
  | case2 fuel visited path pending hvisited ih => exact ih
  | case3 => exact yields_pure EnumLookup.findsOnly_missing
  | case4 visited path pending hvisited fuel ih =>
      refine (yields_true (fetch w path)).bind fun document _ => ?_
      exact (yields_searchKeys w path _ name).bind fun first hfirst =>
        yields_continueWith hfirst (ih document)

/-- So a whole search finds only enums under a spelling of one of the names. -/
theorem yields_searchAll (w : World) (root : Path) (names : List String) :
    Yields (EnumLookup.FindsOnly fun m => ∃ name ∈ names, typeNameKey m.typeName = typeNameKey name)
      (Specification.searchAll w root names) := by
  have hroot : ∀ name ∈ names, Yields (EnumLookup.FindsOnly fun m =>
      ∃ name ∈ names, typeNameKey m.typeName = typeNameKey name) (searchRoot w root name) := by
    intro name hname
    refine (yields_true (fetch w root)).bind fun document _ => ?_
    exact (yields_searchKeys w root _ name).mono fun lookup h =>
      h.mono fun m hm => ⟨name, hname, hm⟩
  have hreachable : ∀ name ∈ names, Yields (EnumLookup.FindsOnly fun m =>
      ∃ name ∈ names, typeNameKey m.typeName = typeNameKey name) (searchReachable w root name) := by
    intro name hname
    unfold searchReachable
    generalize pathCount = fuel
    exact (yields_searchFrom w name fuel [] [root]).mono fun lookup h =>
      h.mono fun m hm => ⟨name, hname, hm⟩
  exact (yields_search hroot).bind fun first hfirst =>
    yields_continueWith hfirst (yields_search hreachable)

namespace Specification

/-- **A lookup finds an enum under a name that is spelled like one of the names
looked for.**  The two have the same ASCII letters and digits up to case, and so
the same letters and digits at all if they have no others. -/
theorem findEnum_typeName {s : Specification} {names : List String} {m : EnumMetadata}
    (h : (s.findEnum w names).1 = .ok (.found m)) :
    ∃ name ∈ names, typeNameKey m.typeName = typeNameKey name ∧
      ∀ counts, CountsAscii counts → IsAsciiName counts m.typeName → IsAsciiName counts name →
        lettersOf counts m.typeName = lettersOf counts name := by
  unfold findEnum at h
  split at h
  · rename_i lookup docs hrun
    cases h
    obtain ⟨name, hname, hkey⟩ := yields_searchAll w s.root names _ _ _ hrun m rfl
    exact ⟨name, hname, hkey, fun counts hcounts hm hn =>
      (typeNameKey_eq_iff hcounts hm hn).mp hkey⟩
  · cases h

/-- A name in other words than that of the schema. -/
theorem findEnum_typeName_spelled :
    (twiceOpened.findEnum twiceWorld ["B", "_a-"]).1 = .ok (.found ⟨"A", [⟨"y", "y", none⟩]⟩) ∧
      ∃ name ∈ ["B", "_a-"], typeNameKey "A" = typeNameKey name ∧
        lettersOf Char.isAlphanum "A" = lettersOf Char.isAlphanum name := by
  have h : (twiceOpened.findEnum twiceWorld ["B", "_a-"]).1 =
      .ok (.found ⟨"A", [⟨"y", "y", none⟩]⟩) := eq_ok_of_toOption (by decide +kernel)
  obtain ⟨name, hname, hkey, hletters⟩ := findEnum_typeName h
  exact ⟨h, name, hname, hkey, hletters Char.isAlphanum (fun _ _ => rfl)
    (fun _ _ => toNat_lt_of_isAlphanum) fun _ _ => toNat_lt_of_isAlphanum⟩

/-! ## Two words that differ in a letter -/

/-- A document with a schema whose name has letters that are not ASCII. -/
def umlautSpec : String :=
  "\x7b\"components\":\x7b\"schemas\":\x7b\"größe\":\x7b\"enum\":[\"x\"]\x7d\x7d\x7d\x7d"

/-- What the document holds. -/
def umlautDocument : Value :=
  .object [("components", .object [("schemas", .object [("größe", oneValue "x")])])]

/-- A world with the document. -/
def umlautWorld : World :=
  ⟨.dir [("s.json", .file umlautSpec.toUTF8 false)], [], []⟩

/-- The specification, opened. -/
def umlautOpened : Specification :=
  ⟨⟨"s.json"⟩, [(⟨"s.json"⟩, umlautDocument)]⟩

/-- The text is JSON of the document. -/
theorem parse?_umlautSpec : Json.parse? umlautSpec = some umlautDocument := by
  have hchars : umlautSpec.toList =
      '\x7b' :: '"' :: ("components".toList ++ '"' :: ':' ::
        '\x7b' :: '"' :: ("schemas".toList ++ '"' :: ':' ::
          '\x7b' :: '"' :: ("größe".toList ++ '"' :: ':' ::
            '\x7b' :: '"' :: ("enum".toList ++ '"' :: ':' ::
              '[' :: '"' :: 'x' :: '"' :: ']' ::
                '\x7d' :: '\x7d' :: '\x7d' :: ['\x7d'])))) := by
    decide
  have hread : Json.outcome (Json.readValue Json.depthLimit umlautSpec.toList) =
      some (umlautDocument, []) := by
    rw [hchars]
    exact Json.outcome_readValue_object (by decide) (Json.outcome_readFields_last rfl
      (Json.outcome_readValue_object (by decide) (Json.outcome_readFields_last rfl
        (Json.outcome_readValue_object (by decide) (Json.outcome_readFields_last rfl
          (readValue_oneValue rfl) rfl)) rfl)) rfl)
  exact Json.parse?_eq_some hread rfl

/-- The specification is opened. -/
theorem openAt_umlautWorld : openAt umlautWorld ⟨"s.json"⟩ = .ok umlautOpened :=
  openAt_specFile (readDocument_specFile Entry.at?_nil rfl parse?_umlautSpec)

/-- Whether all characters of a name are lower-case letters. -/
def isLowercaseName (name : String) : Bool :=
  name.toList.all fun c => Text.isLowercase c && Text.lowerForm c == [c]

/-- A name of lower-case letters has these letters. -/
theorem lettersOf_of_isLowercaseName
    (hcounts : ∀ c, Text.isLowercase c = true → counts c = true)
    (hname : isLowercaseName name = true) : lettersOf counts name = name.toList := by
  have hall : ∀ c ∈ name.toList, Text.isLowercase c = true ∧ Text.lowerForm c = [c] := by
    intro c hc
    have h := List.all_eq_true.mp hname c hc
    rwa [Bool.and_eq_true, beq_iff_eq] at h
  rw [lettersOf, List.filter_eq_self.mpr fun c hc => hcounts c (hall c hc).1,
    List.flatMap_congr fun c hc => (hall c hc).2, List.flatMap_singleton']

/-- Two words that differ in a letter are taken for one type, whatever counts as a
letter beside the lower-case ones. -/
theorem findEnum_confuses :
    openAt umlautWorld ⟨"s.json"⟩ = .ok umlautOpened ∧
      (umlautOpened.findEnum umlautWorld ["grüße"]).1 =
        .ok (.found ⟨"größe", [⟨"x", "x", none⟩]⟩) ∧
      ∀ counts : Char → Bool, (∀ c, Text.isLowercase c = true → counts c = true) →
        lettersOf counts "größe" ≠ lettersOf counts "grüße" := by
  refine ⟨openAt_umlautWorld, eq_ok_of_toOption (by decide +kernel), fun counts hcounts => ?_⟩
  rw [lettersOf_of_isLowercaseName hcounts (by decide +kernel),
    lettersOf_of_isLowercaseName hcounts (by decide +kernel)]
  decide +kernel

end Specification

end ClientRegen
