import ClientRegen.Spec.Schema
import ClientRegen.Proofs.EnumSource.Keys
import ClientRegen.Proofs.Number.Text

/-!
# The values of a schema and their entries

A schema permits values (`Schema.values`), and each of them gets the entry that
stands at its place: its text, what describes it, and its name
(`exists_describes`).  Entries are found by text alone.

No two numbers have one text, and no number has the text of a truth value or of
the missing value, so scalars of one text are equal unless one of them is a
string and the other is not (`eq_of_scalarText?_eq`).  A string may be the text
of another scalar: the values `1` and `"1"` share an entry.  Where no string
among the values is the text of another scalar among them, every value is found
under its own entry.
-/

namespace ClientRegen

namespace Value

variable {v w : Value} {raw : String}

/-- The letters of the words for scalars are not those of numbers. -/
theorem text_ne_of_mem {c : Char} {word : String} (hc : c ∈ word.toList)
    (hdigit : c.isDigit = false) (hmark : c ∉ ['.', 'e', '+', '-']) (n : Number) :
    n.text ≠ word := by
  rintro rfl
  rcases Number.mem_text hc with h | h
  · simp [hdigit] at h
  · exact hmark h

theorem text_ne_word (n : Number) : n.text ≠ "null" ∧ n.text ≠ "true" ∧ n.text ≠ "false" :=
  ⟨text_ne_of_mem (c := 'n') (by decide) rfl (by decide) n,
    text_ne_of_mem (c := 't') (by decide) rfl (by decide) n,
    text_ne_of_mem (c := 'f') (by decide) rfl (by decide) n⟩

/-- **Scalars of one text are equal, strings among themselves and the others among
themselves.** -/
theorem eq_of_scalarText?_eq (hscalar : v.scalarText?.isSome) (h : v.scalarText? = w.scalarText?)
    (hkind : v.string?.isSome = w.string?.isSome) : v = w := by
  rcases v with _ | (_ | _) | n | s | _ | _ <;> rcases w with _ | (_ | _) | n' | s' | _ | _ <;>
    simp_all [scalarText?, string?, Number.text_injective.eq_iff, text_ne_word]
  · exact absurd h.symm (text_ne_word n').1
  · exact absurd h.symm (text_ne_word n').2.2
  · exact absurd h.symm (text_ne_word n').2.1

end Value

namespace Schema

variable {schema v : Value} {typeName : String} {m : EnumMetadata} {e : EnumEntry}
  {entries : List EnumEntry} {descriptions names : List String}

/-- The values that a schema permits: those of its list, or the constants of its
alternatives. -/
def values (schema : Value) : List Value :=
  match listField? schema "enum" with
  | some vs => vs
  | none => ((listField? schema "oneOf").getD []).filterMap constant?

/-- What the schema says to describe the value at an index. -/
def description? (schema : Value) (index : Nat) : Option String :=
  match listField? schema "enum" with
  | some _ => meaningful? (texts schema ["x-enum-descriptions", "x-enumDescriptions"])[index]?
  | none => ((listField? schema "oneOf").getD [])[index]?.bind fun alternative =>
      (stringField? alternative "description").or (stringField? alternative "title")

/-- The name that the schema gives the member of the value at an index. -/
def name? (schema : Value) (index : Nat) : Option String :=
  match listField? schema "enum" with
  | some _ => (texts schema ["x-enum-varnames", "x-enumNames"])[index]?.filter (· ≠ "")
  | none => ((listField? schema "oneOf").getD [])[index]?.bind fun alternative =>
      stringField? alternative "title"

theorem entriesFrom_spec {vs : List Value} {index : Nat}
    (h : entriesFrom typeName index descriptions names vs = .ok entries) :
    List.Forall₂ (fun v e => v.scalarText? = some e.raw) vs entries ∧
      ∀ (i : Nat) (e : EnumEntry), entries[i]? = some e →
        e.label = (meaningful? descriptions[i]?).getD e.raw ∧
          e.name = names[i]?.filter (· ≠ "") := by
  induction vs generalizing index descriptions names entries with
  | nil =>
      cases h
      exact ⟨.nil, by simp⟩
  | cons v vs ih =>
      rw [entriesFrom] at h
      split at h
      · cases h
      · rename_i raw hraw
        split at h
        · cases h
        · rename_i es hes
          cases h
          obtain ⟨hvalues, hrest⟩ := ih hes
          refine ⟨.cons hraw hvalues, ?_⟩
          rintro (_ | i) e he
          · cases he
            simp only [List.head?_eq_getElem?, and_self]
          · rw [List.getElem?_cons_succ] at he
            simpa using hrest i e he

theorem alternatives_spec {alternatives : List Value}
    (h : List.Forall₂ (fun a e => alternativeEntry typeName a = .ok e) alternatives entries) :
    List.Forall₂ (fun v e => v.scalarText? = some e.raw) (alternatives.filterMap constant?)
        entries ∧
      ∀ (i : Nat) (e : EnumEntry), entries[i]? = some e → ∃ a, alternatives[i]? = some a ∧
        e.label = ((stringField? a "description").or (stringField? a "title")).getD e.raw ∧
        e.name = stringField? a "title" := by
  induction h with
  | nil => exact ⟨.nil, by simp⟩
  | @cons a e alternatives entries hfirst _ ih =>
      unfold alternativeEntry at hfirst
      split at hfirst
      · cases hfirst
      · rename_i v hconstant
        split at hfirst
        · cases hfirst
        · rename_i raw hraw
          cases hfirst
          rw [List.filterMap_cons_some hconstant]
          refine ⟨.cons hraw ih.1, ?_⟩
          rintro (_ | i) e he
          · cases he
            exact ⟨a, rfl, rfl, rfl⟩
          · exact ih.2 i e he

/-- **Values and entries stand in the same order.** -/
theorem enum_spec (h : enum typeName schema = .ok m) :
    List.Forall₂ (fun v e => v.scalarText? = some e.raw) (values schema) m.entries ∧
      ∀ (i : Nat) (e : EnumEntry), m.entries[i]? = some e →
        e.label = (description? schema i).getD e.raw ∧ e.name = name? schema i := by
  cases hlist : listField? schema "enum" with
  | some vs =>
      simp only [enum, hlist] at h
      obtain ⟨entries, hentries, rfl⟩ := map_eq_ok_iff.mp h
      simp only [values, description?, name?, hlist]
      exact entriesFrom_spec hentries
  | none =>
      simp only [enum, hlist] at h
      cases halternatives : listField? schema "oneOf" with
      | none =>
          simp only [halternatives] at h
          cases h
      | some alternatives =>
          simp only [halternatives] at h
          obtain ⟨entries, hentries, rfl⟩ := map_eq_ok_iff.mp h
          obtain ⟨hvalues, hrest⟩ := alternatives_spec (mapM_eq_ok_iff.mp hentries)
          simp only [values, description?, name?, hlist, halternatives, Option.getD_some]
          refine ⟨hvalues, fun i e he => ?_⟩
          obtain ⟨a, ha, hlabel, hname⟩ := hrest i e he
          rw [ha]
          exact ⟨hlabel, hname⟩

/-- No string among the values is the text of another scalar among them. -/
def TextsApart (vs : List Value) : Prop :=
  ∀ s, .string s ∈ vs → ∀ v ∈ vs, v.string? = none → v.scalarText? ≠ some s

/-- Values that differ have different texts unless a string is the text of another scalar. -/
theorem nodup_scalarTexts_iff {vs : List Value} (hscalar : ∀ v ∈ vs, v.scalarText?.isSome)
    (hdistinct : vs.Nodup) : (vs.map Value.scalarText?).Nodup ↔ TextsApart vs := by
  rw [List.nodup_map_iff_inj_on hdistinct]
  constructor
  · intro hinj s hs v hv hnone htext
    have heq := hinj v hv (.string s) hs htext
    rw [heq] at hnone
    cases hnone
  · intro hapart v hv w hw htext
    have hkind : ∀ x ∈ vs, ∀ y ∈ vs, x.scalarText? = y.scalarText? →
        x.string?.isSome → y.string?.isSome := by
      intro x hx y hy hxy hstring
      cases x with
      | string s =>
          by_contra hnone
          exact hapart s hx y hy (Option.not_isSome_iff_eq_none.mp hnone) hxy.symm
      | _ => cases hstring
    exact Value.eq_of_scalarText?_eq (hscalar v hv) htext
      (Bool.eq_iff_iff.mpr ⟨hkind v hv w hw htext, hkind w hw v hv htext.symm⟩)

/-- An entry has the text of the value at its index, with the description and the name that the
schema gives there. -/
structure Describes (schema : Value) (index : Nat) (v : Value) (e : EnumEntry) : Prop where
  /-- The entry has the text of the value. -/
  raw_eq : v.scalarText? = some e.raw
  /-- A value without a description describes itself. -/
  label_eq : e.label = (description? schema index).getD e.raw
  /-- The name is that of the index. -/
  name_eq : e.name = name? schema index

theorem exists_describes (h : enum typeName schema = .ok m) {i : Nat}
    (hv : (values schema)[i]? = some v) : ∃ e, m.entries[i]? = some e ∧ Describes schema i v e := by
  obtain ⟨hvalues, hrest⟩ := enum_spec h
  obtain ⟨hi, hv⟩ := List.getElem?_eq_some_iff.mp hv
  have hi' : i < m.entries.length := hvalues.length_eq ▸ hi
  have he := List.getElem?_eq_getElem hi'
  obtain ⟨hlabel, hname⟩ := hrest i _ he
  have hraw := hvalues.get hi hi'
  rw [List.get_eq_getElem, hv] at hraw
  exact ⟨_, he, hraw, hlabel, hname⟩

theorem nodup_raws_iff (h : enum typeName schema = .ok m) (hdistinct : (values schema).Nodup) :
    (m.entries.map (·.raw)).Nodup ↔ TextsApart (values schema) := by
  obtain ⟨hvalues, -⟩ := enum_spec h
  have htexts : (values schema).map Value.scalarText? = (m.entries.map (·.raw)).map some := by
    rw [List.map_map, ← List.forall₂_eq_eq_eq, List.forall₂_map_left_iff,
      List.forall₂_map_right_iff]
    exact hvalues
  have hscalar : ∀ v ∈ values schema, v.scalarText?.isSome := by
    intro v hv
    obtain ⟨e, -, he⟩ := exists_of_mem_left hvalues hv
    rw [he]
    rfl
  rw [← nodup_scalarTexts_iff hscalar hdistinct, htexts,
    List.nodup_map_iff (Option.some_injective _)]

end Schema

namespace EnumSource

/-- **A patch labels and names the members with a value from the entry of the value.** -/
theorem Declaration.IsPatched.labelled_from {m : EnumMetadata} {old new : Declaration}
    {before : List Member} {labelled : List (EnumEntry × Member)} {e : EnumEntry}
    (h : old.IsPatched m new before labelled) (hvalues : valueFault? m before = none)
    (he : e ∈ m.entries) (hfound : m.get? e.raw = some e) :
    e ∈ labelled.map (·.1) ∧ ∀ row ∈ labelled, row.2.raw = e.raw.toList →
      row.1 = e ∧ ∀ name, e.name = some name → row.2.key = memberKey name.toList := by
  have hentry : ∀ member row, Relabelled m member row → member.raw = e.raw.toList → row.1 = e := by
    intro member row hrow hraw
    have hfirst : m.get? (String.ofList member.raw) = some row.1 := hrow.entry
    rw [hraw, String.ofList_toList, hfound, Option.some.injEq] at hfirst
    exact hfirst.symm
  constructor
  · obtain ⟨member, hmember, hraw⟩ := exists_member_raw_eq hvalues he
    obtain ⟨row, hrow, hrelabelled⟩ := exists_of_mem_left h.relabelled hmember
    exact List.mem_map.mpr ⟨row, hrow, hentry member row hrelabelled hraw⟩
  · intro row hrow hraw
    obtain ⟨member, -, hrelabelled⟩ := exists_of_mem_right h.relabelled hrow
    have heq := hentry member row hrelabelled (hrelabelled.raw_eq ▸ hraw)
    refine ⟨heq, fun name hname => ?_⟩
    rw [hrelabelled.key_eq, heq, hname]

end EnumSource

open EnumSource Schema

variable {schema : Value} {typeName : String} {m : EnumMetadata}

/-- **Values are found under their own entries unless a string is the text of another
scalar.**  Where the values of a schema are distinct, so are the texts of their
entries, just when no string among the values is the text of another scalar
among them.  Then each value's entry is the one that is found for its text, and
a patch labels and names the members with the value from the description and the
name that the schema gives at the index of the value. -/
theorem enum_entry_found (h : Schema.enum typeName schema = .ok m)
    (hdistinct : (values schema).Nodup) :
    ((m.entries.map (·.raw)).Nodup ↔ TextsApart (values schema)) ∧
    (TextsApart (values schema) → ∀ i v, (values schema)[i]? = some v →
      ∃ e, m.entries[i]? = some e ∧ Describes schema i v e ∧ m.get? e.raw = some e ∧
        ∀ source p, patchEnumSource source m = .ok p → ∃ old new before labelled,
          findDeclaration source.toList = .ok old ∧ findDeclaration p.toList = .ok new ∧
          old.IsPatched m new before labelled ∧ e ∈ labelled.map (·.1) ∧
          ∀ row ∈ labelled, row.2.raw = e.raw.toList →
            row.1 = e ∧ ∀ name, e.name = some name → row.2.key = memberKey name.toList) := by
  have hiff := nodup_raws_iff h hdistinct
  refine ⟨hiff, fun hapart i v hv => ?_⟩
  obtain ⟨e, he, hdescribes⟩ := exists_describes h hv
  have hmem := List.mem_of_getElem? he
  have hfound := get?_raw (hiff.mpr hapart) hmem
  refine ⟨e, he, hdescribes, hfound, fun source p hp => ?_⟩
  obtain ⟨old, new, before, labelled, hold, hnew, hvalues, hpatched⟩ :=
    exists_isPatched (patchEnumSource_eq_ok_iff.mp hp)
  exact ⟨old, new, before, labelled, hold, hnew, hpatched,
    hpatched.labelled_from hvalues hmem hfound⟩

/-- A number and a string, with one name and one description. -/
theorem enum_entry_found_mixed :
    let schema : Value := .object [("enum", .array [.number (.integer 1), .string "x"]),
      ("x-enum-varnames", .array [.string "ONE"]),
      ("x-enum-descriptions", .array [.string " ", .string "the x"])]
    let m : EnumMetadata := ⟨"E", [⟨"1", "1", some "ONE"⟩, ⟨"x", "the x", none⟩]⟩
    let source := "export enum E \x7b\n  B = 'x',\n  A = 1\n\x7d\n"
    let p := "export enum E \x7b\n  /**\n   * the x\n   */\n  B = 'x',\n" ++
      "  /**\n   * 1\n   */\n  ONE = 1\n\x7d\n"
    Schema.enum "E" schema = .ok m ∧ (values schema).Nodup ∧ TextsApart (values schema) ∧
      patchEnumSource source m = .ok p ∧
      ∃ e, m.entries[0]? = some e ∧ Describes schema 0 (.number (.integer 1)) e ∧
        m.get? e.raw = some e ∧ ∃ new before labelled, findDeclaration p.toList = .ok new ∧
          members new.body = .ok (labelled.map (·.2)) ∧
          List.Forall₂ (Relabelled m) before labelled ∧ e ∈ labelled.map (·.1) := by
  intro schema m source p
  have h : Schema.enum "E" schema = .ok m := eq_ok_of_toOption (by decide +kernel)
  have hp : patchEnumSource source m = .ok p := eq_ok_of_toOption (by decide +kernel)
  have hvalues : values schema = [.number (.integer 1), .string "x"] := by rfl
  have hdistinct : (values schema).Nodup := by simp [hvalues]
  have hapart : TextsApart (values schema) :=
    (nodup_raws_iff h hdistinct).mp (by decide +kernel)
  obtain ⟨e, he, hdescribes, hget, hpatch⟩ :=
    (enum_entry_found h hdistinct).2 hapart 0 _ (by rw [hvalues]; rfl)
  obtain ⟨old, new, before, labelled, -, hnew, hpatched, hmem, -⟩ := hpatch source p hp
  exact ⟨h, hdistinct, hapart, hp, e, he, hdescribes, hget, new, before, labelled, hnew,
    hpatched.members_new, hpatched.relabelled, hmem⟩

/-- A number and a string that is its text: the entry of the number is found for both. -/
theorem enum_entry_shared :
    let schema : Value := .object [("enum", .array [.number (.integer 1), .string "1"]),
      ("x-enum-descriptions", .array [.string "number", .string "text"])]
    let m : EnumMetadata := ⟨"E", [⟨"1", "number", none⟩, ⟨"1", "text", none⟩]⟩
    Schema.enum "E" schema = .ok m ∧ (values schema).Nodup ∧
      ¬ (m.entries.map (·.raw)).Nodup ∧
      ∃ e, m.entries[1]? = some e ∧ m.get? e.raw ≠ some e := by
  intro schema m
  have hvalues : values schema = [.number (.integer 1), .string "1"] := by rfl
  exact ⟨eq_ok_of_toOption (by decide +kernel), by simp [hvalues], by decide +kernel,
    ⟨"1", "text", none⟩, rfl, by decide +kernel⟩

end ClientRegen
