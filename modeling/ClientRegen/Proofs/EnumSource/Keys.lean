import ClientRegen.Proofs.EnumSource.Completeness
import Mathlib.Data.List.Nodup

/-!
# The keys of a patched enum

A name can be read back from the key that it is written as
(`unescape_flatMap_escapeQuote`), so different names are different keys
(`memberKey_injective`).  After a patch a member has the key of the name that the
schema gives it, and otherwise the key that it had (`keyAfter`).

Two members with names have different keys when their names differ, and two
members without names have the keys they had.  What is left is a member with a
name beside one that keeps its key, and there nothing keeps the keys apart:
they are distinct just when no supplied name is written as a key that some
member keeps (`nodup_keyAfter_iff`).
-/

namespace ClientRegen.EnumSource

variable {source p name : List Char} {m : EnumMetadata} {e : EnumEntry} {member : Member}
  {before : List Member} {labelled : List (EnumEntry × Member)} {c : Char}

/-! ## Names as keys -/

theorem unescape_cons (hc : c ≠ '\\') (cs : List Char) : unescape (c :: cs) = c :: unescape cs := by
  rw [unescape.eq_4]
  · rintro rfl
    exact absurd rfl hc
  · rintro d ds rfl
    exact absurd rfl hc

/-- A name that stands in single quotes is read back. -/
theorem unescape_flatMap_escapeQuote (name : List Char) :
    unescape (name.flatMap escapeQuote) = name := by
  induction name with
  | nil => rfl
  | cons c name ih =>
      rw [List.flatMap_cons, escapeQuote]
      split
      · rename_i hc
        rcases hc with rfl | rfl <;> simp [unescape, ih]
      · rename_i hc
        rw [List.singleton_append, unescape_cons (not_or.mp hc).1, ih]

/-- **Different names are different keys.** -/
theorem memberKey_injective : Function.Injective memberKey := by
  have hquoted : ∀ name cs, Text.isName name = true → name ≠ '\'' :: cs := by
    rintro name cs hname rfl
    exact absurd hname (by simp [Text.isName, Text.isNameStart])
  intro x y h
  unfold memberKey at h
  split at h
  · rename_i hx
    split at h
    · exact h
    · exact absurd h (hquoted x _ hx)
  · split at h
    · rename_i hy
      exact absurd h.symm (hquoted y _ hy)
    · have hbody := congrArg unescape (List.append_cancel_right (List.cons.inj h).2)
      rwa [unescape_flatMap_escapeQuote, unescape_flatMap_escapeQuote] at hbody

/-! ## Entries and members -/

/-- Where no value is declared twice, an entry is found under its value. -/
theorem get?_raw (hentries : (m.entries.map (·.raw)).Nodup) (he : e ∈ m.entries) :
    m.get? e.raw = some e := by
  have hsome : (m.get? e.raw).isSome := List.find?_isSome.mpr ⟨e, he, beq_self_eq_true e.raw⟩
  obtain ⟨e', he'⟩ := Option.isSome_iff_exists.mp hsome
  have hraw : e'.raw = e.raw := beq_iff_eq.mp (List.find?_some he' :)
  rw [he', List.inj_on_of_nodup_map hentries (List.mem_of_find?_eq_some he') he hraw]

/-- The entry for a member is one of the schema, with the member's value. -/
theorem mem_of_entryFor? (h : entryFor? m member = some e) :
    e ∈ m.entries ∧ e.raw = String.ofList member.raw :=
  ⟨List.mem_of_find?_eq_some h, beq_iff_eq.mp (List.find?_some h :)⟩

/-- **A patched source has its members again, relabelled.**  The values of the
members were those of the schema. -/
theorem exists_isPatched (h : patch source m = .ok p) :
    ∃ old new before labelled, findDeclaration source = .ok old ∧
      findDeclaration p = .ok new ∧ valueFault? m before = none ∧
      old.IsPatched m new before labelled := by
  obtain ⟨d, ms, text, rows, hd, hms, hfault, hrows, -, -, -, hnew⟩ := patch_spec h
  obtain ⟨hindent, hline⟩ := memberIndent_spec d.body
  have hclosing := (closingIndent_spec (d.head ++ d.body)).1
  refine ⟨d, _, ms, rows.map fun row => (row.entry, row.code.member), hd, hnew, hfault,
    rfl, rfl, hms, ?_, ?_, ?_⟩
  · rw [List.map_map]
    exact members_bodyLexemes hindent hclosing _ rows
  · rw [List.forall₂_map_right_iff]
    exact hrows.imp fun _ _ hrow => hrow.relabelled
  · rw [writtenBody, lexemes_textOf_bodyLexemes hindent hclosing]
    exact labelledBody_bodyLexemes hindent hline hclosing _ rows

/-! ## The keys after a patch -/

/-- The key of a member after a patch. -/
def keyAfter (m : EnumMetadata) (member : Member) : List Char :=
  match entryFor? m member with
  | some e => newKey e member
  | none => member.key

/-- A member keeps its key when the entry for it has no name. -/
def KeepsKey (m : EnumMetadata) (member : Member) : Prop :=
  ∃ e, entryFor? m member = some e ∧ e.name = none

theorem keyAfter_of_name {name : String} (he : entryFor? m member = some e)
    (hname : e.name = some name) : keyAfter m member = memberKey name.toList := by
  simp [keyAfter, he, newKey, hname]

theorem KeepsKey.keyAfter_eq (h : KeepsKey m member) : keyAfter m member = member.key := by
  obtain ⟨e, he, hname⟩ := h
  simp [keyAfter, he, newKey, hname]

theorem map_key_eq (h : List.Forall₂ (Relabelled m) before labelled) :
    (labelled.map (·.2)).map (·.key) = before.map (keyAfter m) := by
  induction h with
  | nil => rfl
  | @cons member row before labelled hrow _ ih =>
      have hkey : row.2.key = keyAfter m member := by
        have hentry : entryFor? m member = some row.1 := hrow.entry
        rw [hrow.key_eq, keyAfter, hentry]
        rfl
      rw [List.map_cons, List.map_cons, List.map_cons, hkey, ih]

/-- Where no name is supplied twice, a name tells the entry. -/
theorem eq_of_name_eq {e' : EnumEntry} {name : String}
    (hnames : (m.entries.filterMap (·.name)).Nodup) (he : e ∈ m.entries) (he' : e' ∈ m.entries)
    (hname : e.name = some name) (hname' : e'.name = some name) : e = e' := by
  have hapart := List.pairwise_filterMap.mp hnames
  by_contra hne
  have hsymm : Std.Symm fun e e' : EnumEntry =>
      ∀ n, e.name = some n → ∀ n', e'.name = some n' → n ≠ n' :=
    ⟨fun e e' h n hn n' hn' => (h n' hn' n hn).symm⟩
  exact hapart.forall he he' hne name hname name hname' rfl

/-- A member whose value the schema declares has an entry. -/
theorem exists_entryFor? (hvalues : valueFault? m before = none) (hmember : member ∈ before) :
    ∃ e, entryFor? m member = some e := by
  rw [← Option.isSome_iff_exists, entryFor?, isSome_get?_iff,
    ← valueFault?_eq_none_iff_mem.mp hvalues, mem_valuesOf_iff, String.toList_ofList]
  exact List.mem_map_of_mem hmember

/-- A value that the schema declares is that of some member. -/
theorem exists_member_raw_eq (hvalues : valueFault? m before = none) (he : e ∈ m.entries) :
    ∃ member ∈ before, member.raw = e.raw.toList :=
  List.mem_map.mp (mem_valuesOf_iff.mp
    ((valueFault?_eq_none_iff_mem.mp hvalues e.raw).mpr (List.mem_map_of_mem he)))

/-- A name that the schema supplies is the key of some member. -/
theorem exists_keyAfter_eq {name : String} (hvalues : valueFault? m before = none)
    (hentries : (m.entries.map (·.raw)).Nodup) (he : e ∈ m.entries) (hname : e.name = some name) :
    ∃ member ∈ before, entryFor? m member = some e ∧
      keyAfter m member = memberKey name.toList := by
  obtain ⟨member, hmember, hraw⟩ := exists_member_raw_eq hvalues he
  have hfound : entryFor? m member = some e := by
    rw [entryFor?, hraw, String.ofList_toList]
    exact get?_raw hentries he
  exact ⟨member, hmember, hfound, keyAfter_of_name hfound hname⟩

/-- Two members with one key after a patch are the same, unless a supplied name is
a key that is kept. -/
theorem eq_of_keyAfter_eq {x y : Member} (hkeys : (before.map (·.key)).Nodup)
    (hraws : (before.map (·.raw)).Nodup) (hnames : (m.entries.filterMap (·.name)).Nodup)
    (hvalues : valueFault? m before = none)
    (hapart : ∀ e ∈ m.entries, ∀ name, e.name = some name →
      ∀ member ∈ before, KeepsKey m member → member.key ≠ memberKey name.toList)
    (hx : x ∈ before) (hy : y ∈ before) (hkey : keyAfter m x = keyAfter m y) : x = y := by
  obtain ⟨e, he⟩ := exists_entryFor? hvalues hx
  obtain ⟨e', he'⟩ := exists_entryFor? hvalues hy
  obtain ⟨hmem, hraw⟩ := mem_of_entryFor? he
  obtain ⟨hmem', hraw'⟩ := mem_of_entryFor? he'
  cases hname : e.name with
  | some name =>
      rw [keyAfter_of_name he hname] at hkey
      cases hname' : e'.name with
      | some name' =>
          -- two names: equal names stand in one entry, and the members have its value
          rw [keyAfter_of_name he' hname'] at hkey
          have hnameeq := String.toList_inj.mp (memberKey_injective hkey)
          subst hnameeq
          have hsame := eq_of_name_eq hnames hmem hmem' hname hname'
          rw [hsame, hraw', String.ofList_inj] at hraw
          exact List.inj_on_of_nodup_map hraws hx hy hraw.symm
      | none =>
          have hkeeps : KeepsKey m y := ⟨e', he', hname'⟩
          rw [hkeeps.keyAfter_eq] at hkey
          exact absurd hkey.symm (hapart e hmem name hname y hy hkeeps)
  | none =>
      have hkeeps : KeepsKey m x := ⟨e, he, hname⟩
      rw [hkeeps.keyAfter_eq] at hkey
      cases hname' : e'.name with
      | some name' =>
          rw [keyAfter_of_name he' hname'] at hkey
          exact absurd hkey (hapart e' hmem' name' hname' x hx hkeeps)
      | none =>
          have hkeeps' : KeepsKey m y := ⟨e', he', hname'⟩
          rw [hkeeps'.keyAfter_eq] at hkey
          exact List.inj_on_of_nodup_map hkeys hx hy hkey

/-- **Keys stay apart unless a supplied name is a key that is kept.** -/
theorem nodup_keyAfter_iff (hkeys : (before.map (·.key)).Nodup)
    (hraws : (before.map (·.raw)).Nodup) (hentries : (m.entries.map (·.raw)).Nodup)
    (hnames : (m.entries.filterMap (·.name)).Nodup) (hvalues : valueFault? m before = none) :
    (before.map (keyAfter m)).Nodup ↔ ∀ e ∈ m.entries, ∀ name, e.name = some name →
      ∀ member ∈ before, KeepsKey m member → member.key ≠ memberKey name.toList := by
  rw [List.nodup_map_iff_inj_on (List.Nodup.of_map _ hraws)]
  constructor
  · intro hinj e he name hname member hmember hkeeps hclash
    -- the member that gets the name has the same key as the one that keeps its own
    obtain ⟨named, hnamed, hfound, hkey⟩ := exists_keyAfter_eq hvalues hentries he hname
    have heq : named = member := by
      apply hinj named hnamed member hmember
      rw [hkey, hkeeps.keyAfter_eq, hclash]
    obtain ⟨e', he', hnone⟩ := hkeeps
    rw [← heq, hfound, Option.some.injEq] at he'
    rw [← he', hname] at hnone
    cases hnone
  · intro hapart x hx y hy hkey
    exact eq_of_keyAfter_eq hkeys hraws hnames hvalues hapart hx hy hkey

end ClientRegen.EnumSource

namespace ClientRegen

open EnumSource

/-- The members of a patched enum, by their keys. -/
theorem exists_members_keyAfter {source p : String} {m : EnumMetadata} {old : Declaration}
    {before : List Member} (hold : findDeclaration source.toList = .ok old)
    (hbefore : members old.body = .ok before) (h : patchEnumSource source m = .ok p) :
    ∃ new after, findDeclaration p.toList = .ok new ∧ members new.body = .ok after ∧
      after.map (·.key) = before.map (keyAfter m) ∧ valueFault? m before = none := by
  obtain ⟨old', new, before', labelled, hold', hnew, hvalues, hpatched⟩ :=
    exists_isPatched (patchEnumSource_eq_ok_iff.mp h)
  rw [hold, Except.ok.injEq] at hold'
  subst hold'
  have hsame := hpatched.members_old
  rw [hbefore, Except.ok.injEq] at hsame
  subst hsame
  exact ⟨new, _, hnew, hpatched.members_new, map_key_eq hpatched.relabelled, hvalues⟩

/-- **A schema's names make no key occur twice, but a name and a kept key may be
the same.**  Where keys and values of an enum are distinct, and so are values and
names of the schema, the keys of the patched enum are distinct just when no
supplied name is written as a key that a member without a name keeps. -/
theorem patchEnumSource_nodup_keys_iff {source p : String} {m : EnumMetadata} {old : Declaration}
    {before : List Member} (hold : findDeclaration source.toList = .ok old)
    (hbefore : members old.body = .ok before) (hkeys : (before.map (·.key)).Nodup)
    (hraws : (before.map (·.raw)).Nodup) (hentries : (m.entries.map (·.raw)).Nodup)
    (hnames : (m.entries.filterMap (·.name)).Nodup) (h : patchEnumSource source m = .ok p) :
    ∃ new after, findDeclaration p.toList = .ok new ∧ members new.body = .ok after ∧
      ((after.map (·.key)).Nodup ↔ ∀ e ∈ m.entries, ∀ name, e.name = some name →
        ∀ member ∈ before, KeepsKey m member → member.key ≠ memberKey name.toList) := by
  obtain ⟨new, after, hnew, hafter, hkey, hvalues⟩ := exists_members_keyAfter hold hbefore h
  refine ⟨new, after, hnew, hafter, ?_⟩
  rw [hkey]
  exact nodup_keyAfter_iff hkeys hraws hentries hnames hvalues

/-- A member that gets a name, and one that keeps its key in quotes. -/
theorem patchEnumSource_nodup_keys_iff_mixed :
    let source := "export enum E \x7bA=1,'b c'=2\x7d"
    let m : EnumMetadata := ⟨"E", [⟨"2", "y", none⟩, ⟨"1", "x", some "b'c"⟩]⟩
    let p := "export enum E \x7b\n/**\n * x\n */\n'b\\'c' = 1,\n/**\n * y\n */\n'b c' = 2\n\x7d"
    let old : Declaration := ⟨"export enum E \x7b".toList, "A=1,'b c'=2".toList, ['\x7d']⟩
    let before : List Member := [⟨['A'], '=', ['1'], ['1']⟩, ⟨"'b c'".toList, '=', ['2'], ['2']⟩]
    findDeclaration source.toList = .ok old ∧ members old.body = .ok before ∧
      (before.map (·.key)).Nodup ∧ (before.map (·.raw)).Nodup ∧
      (m.entries.map (·.raw)).Nodup ∧ (m.entries.filterMap (·.name)).Nodup ∧
      patchEnumSource source m = .ok p ∧
      ∃ new after, findDeclaration p.toList = .ok new ∧ members new.body = .ok after ∧
        (after.map (·.key)).Nodup := by
  intro source m p old before
  have hfacts : (findDeclaration source.toList).toOption = some old ∧
      (members old.body).toOption = some before ∧ (patchEnumSource source m).toOption = some p ∧
      (before.map (·.key)).Nodup ∧ (before.map (·.raw)).Nodup ∧
      (m.entries.map (·.raw)).Nodup ∧ (m.entries.filterMap (·.name)).Nodup ∧
      ∀ member ∈ before, member.key ≠ memberKey "b'c".toList := by
    decide +kernel
  obtain ⟨hold, hbefore, h, hkeys, hraws, hentries, hnames, hapart⟩ := hfacts
  have hold := eq_ok_of_toOption hold
  have hbefore := eq_ok_of_toOption hbefore
  have h := eq_ok_of_toOption h
  obtain ⟨new, after, hnew, hafter, hiff⟩ :=
    patchEnumSource_nodup_keys_iff hold hbefore hkeys hraws hentries hnames h
  refine ⟨hold, hbefore, hkeys, hraws, hentries, hnames, h, new, after, hnew, hafter, ?_⟩
  rw [hiff]
  intro e he name hsupplied member hmember _
  simp only [m, List.mem_cons, List.not_mem_nil, or_false] at he
  rcases he with rfl | rfl
  · cases hsupplied
  · cases hsupplied
    exact hapart member hmember

/-- A name that the schema supplies for one member is the key that another member
keeps, and the key occurs twice. -/
theorem patchEnumSource_repeats_key :
    let source := "export enum E \x7bA=1,B=2\x7d"
    let m : EnumMetadata := ⟨"E", [⟨"1", "x", some "B"⟩, ⟨"2", "y", none⟩]⟩
    let old : Declaration := ⟨"export enum E \x7b".toList, "A=1,B=2".toList, ['\x7d']⟩
    let before : List Member := [⟨['A'], '=', ['1'], ['1']⟩, ⟨['B'], '=', ['2'], ['2']⟩]
    findDeclaration source.toList = .ok old ∧ members old.body = .ok before ∧
      (before.map (·.key)).Nodup ∧ (before.map (·.raw)).Nodup ∧
      (m.entries.map (·.raw)).Nodup ∧ (m.entries.filterMap (·.name)).Nodup ∧
      ∃ p new after, patchEnumSource source m = .ok p ∧ findDeclaration p.toList = .ok new ∧
        members new.body = .ok after ∧ ¬ (after.map (·.key)).Nodup := by
  intro source m old before
  have hfacts : (findDeclaration source.toList).toOption = some old ∧
      (members old.body).toOption = some before ∧
      (patchEnumSource source m).toOption.isSome = true ∧
      (before.map (·.key)).Nodup ∧ (before.map (·.raw)).Nodup ∧
      (m.entries.map (·.raw)).Nodup ∧ (m.entries.filterMap (·.name)).Nodup ∧
      ¬ (before.map (keyAfter m)).Nodup := by
    decide +kernel
  obtain ⟨hold, hbefore, hsome, hkeys, hraws, hentries, hnames, htwice⟩ := hfacts
  have hold := eq_ok_of_toOption hold
  have hbefore := eq_ok_of_toOption hbefore
  obtain ⟨p, hp⟩ := Option.isSome_iff_exists.mp hsome
  have h := eq_ok_of_toOption hp
  obtain ⟨new, after, hnew, hafter, hkey, -⟩ := exists_members_keyAfter hold hbefore h
  refine ⟨hold, hbefore, hkeys, hraws, hentries, hnames, p, new, after, h, hnew, hafter, ?_⟩
  rw [hkey]
  exact htwice

end ClientRegen
