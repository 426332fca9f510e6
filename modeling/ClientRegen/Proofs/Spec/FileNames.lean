import ClientRegen.Proofs.EnumFiles
import ClientRegen.Proofs.Spec.Names

/-!
# The names under which the enum of a file is looked up

A file that is named for an enum gives two names to look for.  Both have the
letters and digits of what stands before the suffix, the second with `enum`
after them (`candidates_spell_stem`), as far as the file's name is ASCII.

A lookup uses nothing of a name but these (`searchAll_congr`).  So files whose
names differ in case and in other characters only are looked up as one, whatever
was read before.
-/

namespace ClientRegen

variable {w : World} {root : Path} {name name' stem ending : String} {names names' : List String}
  {f f' : FoundFile} {g g' : EnumFile}

/-! ## Keys of file names -/

/-- A text without other characters than ASCII ones. -/
def IsAscii (text : String) : Prop :=
  ∀ c ∈ text.toList, c.toNat < 128

instance (text : String) : Decidable (IsAscii text) :=
  decidable_of_iff (text.toList.all (·.toNat < 128) = true) (by simp [IsAscii])

/-- The key of a concatenation is that of its parts. -/
theorem typeNameKey_append (name name' : String) :
    typeNameKey (name ++ name') = typeNameKey name ++ typeNameKey name' := by
  rw [typeNameKey, String.toList_append, nameKey_append, String.ofList_append]
  rfl

/-- The name of a type has the letters and digits of the stem that it is taken from. -/
theorem typeNameKey_pascalCase (h : IsAscii stem) :
    typeNameKey (String.ofList (Text.pascalCase stem.toList)) = typeNameKey stem := by
  rw [typeNameKey, String.toList_ofList, nameKey_pascalCase h]
  rfl

/-- All spellings of the suffix have the same letters and digits. -/
theorem typeNameKey_of_ending (h : ending.toList.map Char.toLower = enumFileSuffix) :
    typeNameKey ending = "enumts" := by
  rw [typeNameKey, nameKey_eq_filter, h]
  decide

/-- A stem and a suffix name a type, in whatever case the suffix is written. -/
theorem enumTypeName?_append (hstem : stem ≠ "")
    (hending : ending.toList.map Char.toLower = enumFileSuffix) :
    enumTypeName? (stem ++ ending) = some (String.ofList (Text.pascalCase stem.toList)) := by
  refine enumTypeName?_eq_some_iff.mpr ⟨stem.toList, ending.toList, String.toList_append .., ?_,
    hending, rfl⟩
  exact fun h => hstem (String.toList_eq_nil_iff.mp h)

/-- The name of an ASCII file spells its type with the suffix after it. -/
theorem typeNameKey_of_enumTypeName? {typeName : String}
    (hname : enumTypeName? name = some typeName) (hascii : IsAscii name) :
    typeNameKey name = typeNameKey typeName ++ "enumts" := by
  obtain ⟨stem, ending, hparts, -, hending, rfl⟩ := enumTypeName?_eq_some_iff.mp hname
  have hstem : IsAscii (String.ofList stem) := by
    intro c hc
    rw [String.toList_ofList] at hc
    exact hascii c (hparts ▸ List.mem_append_left _ hc)
  have hkey := typeNameKey_pascalCase hstem
  rw [String.toList_ofList] at hkey
  have hsuffix : (String.ofList ending).toList.map Char.toLower = enumFileSuffix := by
    rwa [String.toList_ofList]
  have hwhole : name = String.ofList stem ++ String.ofList ending := by
    rw [← String.ofList_append, ← hparts, String.ofList_toList]
  rw [hkey, hwhole, typeNameKey_append, typeNameKey_of_ending hsuffix]

/-! ## Lookups under names with the same key -/

/-- Names with one key fit the same schemas. -/
theorem isSchemaNamed_congr (h : typeNameKey name = typeNameKey name') :
    isSchemaNamed name = isSchemaNamed name' := by
  funext entry
  rw [isSchemaNamed, isSchemaNamed, h]

/-- Names with one key are found in the same document or not. -/
theorem searchKeys_congr (w : World) (document : Path) (keys : List (String × Value))
    (h : typeNameKey name = typeNameKey name') :
    searchKeys w document keys name = searchKeys w document keys name' := by
  rw [searchKeys, searchKeys, isSchemaNamed_congr h]

/-- Names with one key are found in the same reachable documents or not. -/
theorem searchFrom_congr (w : World) (h : typeNameKey name = typeNameKey name') (fuel : Nat)
    (visited pending : List Path) :
    searchFrom w name fuel visited pending = searchFrom w name' fuel visited pending := by
  fun_induction searchFrom w name fuel visited pending with
  | case1 => rw [searchFrom]
  | case2 fuel visited p pending hvisited ih =>
      rw [ih, searchFrom_of_mem fuel (List.contains_iff_mem.mp hvisited)]
  | case3 visited p pending hvisited => rw [searchFrom, if_neg hvisited]
  | case4 visited p pending hvisited fuel ih =>
      rw [searchFrom_of_notMem fuel fun hp => hvisited (List.contains_iff_mem.mpr hp)]
      simp only [searchKeys_congr w p _ h, ih]

/-- **A lookup uses the keys of names only.** -/
theorem searchAll_congr (w : World) (root : Path)
    (h : names.map typeNameKey = names'.map typeNameKey) :
    Specification.searchAll w root names = Specification.searchAll w root names' := by
  have hsearch : ∀ try_ : String → Loading EnumLookup,
      (∀ name name', typeNameKey name = typeNameKey name' → try_ name = try_ name') →
        search try_ names = search try_ names' := by
    intro try_ htry
    induction names generalizing names' with
    | nil =>
        rw [List.map_eq_nil_iff.mp h.symm]
    | cons name names ih =>
        obtain ⟨name', names', rfl, hname, hnames⟩ := List.map_eq_cons_iff.mp h.symm
        rw [search, search, htry name name' hname.symm, ih hnames.symm]
  rw [Specification.searchAll, Specification.searchAll]
  have hroot := hsearch (searchRoot w root) fun name name' hname => by
    rw [searchRoot, searchRoot]
    simp only [searchKeys_congr w root _ hname]
  have hreachable := hsearch (searchReachable w root) fun name name' hname => by
    unfold searchReachable
    generalize pathCount = fuel
    exact searchFrom_congr w hname fuel [] [root]
  rw [hroot, hreachable]

/-- So are lists of names with the same keys, whatever has been read before. -/
theorem Specification.findEnum_congr (s : Specification) (w : World)
    (h : names.map typeNameKey = names'.map typeNameKey) :
    s.findEnum w names = s.findEnum w names' := by
  rw [findEnum, findEnum, searchAll_congr w s.root h]

/-! ## The names that a file gives -/

/-- Names with the same letters and digits up to case have the same key. -/
theorem typeNameKey_eq_of_lettersOf
    (h : lettersOf Char.isAlphanum name = lettersOf Char.isAlphanum name') :
    typeNameKey name = typeNameKey name' :=
  (typeNameKey_eq_iff (fun _ _ => rfl) (fun _ _ => toNat_lt_of_isAlphanum)
    fun _ _ => toNat_lt_of_isAlphanum).mpr h

/-- A file gives the type that it is named for, and the type with `Enum` after it. -/
theorem candidates_of_enumFile? (h : f.enumFile? = some (.ok g)) :
    ∃ typeName, enumTypeName? f.name = some typeName ∧
      g.candidates = [typeName, typeName ++ "Enum"] :=
  ⟨g.typeName, (enumFile?_eq_some_ok h).1, rfl⟩

/-- **A file gives two names to look for: one that spells the stem of its own
name, and one that spells it with `enum` after it,** in whatever case the suffix
is written.  So enum files whose ASCII names have the same letters and digits, up
to case, look up the same enum in every specification. -/
theorem candidates_spell_stem (hstem : stem ≠ "") (hascii : IsAscii stem)
    (hending : ending.toList.map Char.toLower = enumFileSuffix) :
    ∃ typeName, enumTypeName? (stem ++ ending) = some typeName ∧
      typeNameKey typeName = typeNameKey stem ∧
      typeNameKey (typeName ++ "Enum") = typeNameKey stem ++ "enum" ∧
      ∀ f g, f.name = stem ++ ending → FoundFile.enumFile? f = some (.ok g) →
        g.candidates = [typeName, typeName ++ "Enum"] ∧
        ∀ f' g', IsAscii f'.name → FoundFile.enumFile? f' = some (.ok g') →
          lettersOf Char.isAlphanum f'.name = lettersOf Char.isAlphanum f.name →
          ∀ w (s : Specification), s.findEnum w g'.candidates = s.findEnum w g.candidates := by
  have hname := enumTypeName?_append hstem hending
  have hkey := typeNameKey_pascalCase hascii
  refine ⟨_, hname, hkey, by rw [typeNameKey_append, hkey]; rfl, fun f g hf hopen => ?_⟩
  obtain ⟨typeName, htype, hcandidates⟩ := candidates_of_enumFile? hopen
  rw [hf, hname, Option.some.injEq] at htype
  subst htype
  refine ⟨hcandidates, fun f' g' hascii' hopen' hletters w s => ?_⟩
  obtain ⟨typeName', htype', hcandidates'⟩ := candidates_of_enumFile? hopen'
  -- the two file names have the same key, and it ends in that of the suffix for both
  have hsame := typeNameKey_eq_of_lettersOf hletters
  rw [typeNameKey_of_enumTypeName? htype' hascii', hf, typeNameKey_append,
    typeNameKey_of_ending hending, ← hkey] at hsame
  have hkeys := String.append_left_inj _ |>.mp hsame
  rw [hcandidates, hcandidates']
  refine s.findEnum_congr w ?_
  simp only [List.map_cons, List.map_nil, typeNameKey_append, hkeys]

/-- An empty file in the working directory. -/
def namedFile (name : String) : FoundFile :=
  ⟨⟨name⟩, [name], name, "".toUTF8⟩

/-- A file with the name of an enum file is opened. -/
theorem exists_enumFile?_namedFile (h : (enumTypeName? name).isSome) :
    ∃ g, (namedFile name).enumFile? = some (.ok g) := by
  obtain ⟨typeName, htype⟩ := Option.isSome_iff_exists.mp h
  refine ⟨⟨⟨name⟩, [name], typeName, ""⟩, ?_⟩
  rw [FoundFile.enumFile?, namedFile, htype]
  simp only [Option.map_some, textOf_toUTF8]

/-- Two spellings of one name, the first with separators in front and the suffix
in another case. -/
theorem candidates_spell_stem_mixed :
    enumTypeName? "--payment_STATUS-Enum.TS" = some "-PaymentStatus" ∧
      typeNameKey "-PaymentStatus" = typeNameKey "--payment_STATUS" ∧
      typeNameKey "-PaymentStatusEnum" = typeNameKey "--payment_STATUS" ++ "enum" ∧
      ∃ g g', (namedFile "--payment_STATUS-Enum.TS").enumFile? = some (.ok g) ∧
        (namedFile "PayMent status-enum.ts").enumFile? = some (.ok g') ∧
        g.candidates = ["-PaymentStatus", "-PaymentStatusEnum"] ∧
        ∀ w (s : Specification), s.findEnum w g'.candidates = s.findEnum w g.candidates := by
  obtain ⟨typeName, htype, hkey, hsecond, hlookup⟩ :=
    @candidates_spell_stem "--payment_STATUS" "-Enum.TS" (by decide) (by decide)
      (by decide +kernel)
  have hname : enumTypeName? "--payment_STATUS-Enum.TS" = some "-PaymentStatus" := by
    decide +kernel
  obtain rfl : typeName = "-PaymentStatus" := Option.some.inj (htype.symm.trans hname)
  obtain ⟨g, hg⟩ := @exists_enumFile?_namedFile "--payment_STATUS-Enum.TS" (by rw [hname]; rfl)
  obtain ⟨g', hg'⟩ := @exists_enumFile?_namedFile "PayMent status-enum.ts" (by decide +kernel)
  obtain ⟨hcandidates, hsame⟩ := hlookup _ g rfl hg
  exact ⟨hname, hkey, hsecond, g, g', hg, hg', hcandidates,
    hsame _ g' (by decide +kernel) hg' (by decide +kernel)⟩

end ClientRegen
