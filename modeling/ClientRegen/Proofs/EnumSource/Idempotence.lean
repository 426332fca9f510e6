import ClientRegen.Proofs.EnumSource.Patch

/-!
# Patching twice

A second patch finds what the first one wrote.  The members have the same
values, so they get the same entries (`renderMembers_rows`,
`valueFault?_eq_none_iff`), and the layout that is guessed from the written body
is the one it was written in.  So the second patch writes the same text
(`patchEnumSource_idempotent`).

Keys that begin with a star are left out.  The line of such a member is taken
for one of a comment, and the indentation is guessed from another line.
-/

namespace ClientRegen.EnumSource

variable {source p : List Char} {m : EnumMetadata} {indent : List Char} {trailing : Bool}
  {e : EnumEntry} {member : Member} {ms : List Member} {rows : List Row}

/-- Members have the values of a schema when each value has an entry and each
entry's value is one of theirs. -/
theorem valueFault?_eq_none_iff : valueFault? m ms = none ↔
    (∀ raw ∈ ms.map (·.raw), (m.get? (String.ofList raw)).isSome) ∧
      ∀ e ∈ m.entries, e.raw.toList ∈ ms.map (·.raw) := by
  have hdeclared : (ms.find? fun member => (entryFor? m member).isNone) = none ↔
      ∀ raw ∈ ms.map (·.raw), (m.get? (String.ofList raw)).isSome := by
    simp [List.find?_eq_none, entryFor?, Option.isSome_iff_ne_none]
  have hmissing : (m.entries.filter fun e => !ms.any fun member => member.raw == e.raw.toList) = []
      ↔ ∀ e ∈ m.entries, e.raw.toList ∈ ms.map (·.raw) := by
    simp [List.filter_eq_nil_iff]
  rw [← hdeclared, ← hmissing, valueFault?]
  split
  · rename_i hfind
    simp [hfind]
  · rename_i hfind
    split
    · rename_i hfilter
      simp [hfind, hfilter]
    · rename_i hfilter
      exact ⟨by simp, fun h => absurd h.2 hfilter⟩

/-- A member that has its name already is written the same way. -/
theorem renderMember_newKey (e : EnumEntry) (indent : List Char) (comma : Bool) (member : Member) :
    renderMember e indent comma { member with key := newKey e member } =
      renderMember e indent comma member := by
  have hkey : newKey e { member with key := newKey e member } = newKey e member := by
    unfold newKey
    cases e.name <;> rfl
  rw [renderMember, hkey, renderMember]

/-- **Rows are written as the members they were made from.** -/
theorem renderMembers_rows (h : List.Forall₂ (LabelsMember m) ms rows) :
    renderMembers m indent trailing (rows.map (·.code.member)) =
      renderMembers m indent trailing ms := by
  induction h with
  | nil => rfl
  | @cons member row ms rows hrow hrows ih =>
      obtain ⟨hentry, hmember⟩ := hrow
      have hentry' : entryFor? m row.code.member = some row.entry := by
        rw [hmember]
        exact hentry
      have hempty : (rows.map (·.code.member)).isEmpty = ms.isEmpty := by
        cases hrows <;> rfl
      rw [List.map_cons, renderMembers, hentry', renderMembers, hentry, ih, hempty]
      simp only [hmember, renderMember_newKey]

theorem LabelsMember.head?_key {row : Row} (h : LabelsMember m member row)
    (hstar : member.key.head? ≠ some '*') : row.code.member.key.head? ≠ some '*' := by
  rw [h.2]
  show (newKey row.entry member).head? ≠ some '*'
  unfold newKey
  cases row.entry.name with
  | none => exact hstar
  | some name => exact head?_memberKey name.toList

/-- No member of the source has a key that begins with a star. -/
def NoStarKey (source : List Char) : Prop :=
  ∀ d ms, findDeclaration source = .ok d → members d.body = .ok ms →
    ∀ member ∈ ms, member.key.head? ≠ some '*'

/-- **The layout of a written body is the one it was written in.** -/
theorem renderMembers_layout {d : Declaration} (hd : findDeclaration source = .ok d)
    (hrows : List.Forall₂ (LabelsMember m) ms rows)
    (hstar : ∀ member ∈ ms, member.key.head? ≠ some '*') :
    renderMembers m (memberIndent (textOf (writtenBody d rows)))
        (hasTrailingComma (textOf (writtenBody d rows))) ms =
      renderMembers m (memberIndent d.body) (hasTrailingComma d.body) ms := by
  obtain ⟨hindent, hline⟩ := memberIndent_spec d.body
  have hclosing := (closingIndent_spec (d.head ++ d.body)).1
  cases hrows with
  | nil => rfl
  | cons hrow hrows =>
      have hkey := hrow.head?_key (hstar _ List.mem_cons_self)
      rw [writtenBody, memberIndent_bodyLexemes hindent hline hkey,
        hasTrailingComma_bodyLexemes hindent hclosing (isPlainBlank_of_mem_closingIndent hd)]

/-- What a patch wrote is what a second one writes. -/
theorem patch_patch (h : patch source m = .ok p) (hstar : NoStarKey source) :
    patch p m = .ok p := by
  obtain ⟨d, ms, text, rows, hd, hms, hfault, hrows, htext, hbody, hp, hnew⟩ := patch_spec h
  obtain ⟨hclosing, hnewline, -⟩ := closingIndent_spec (d.head ++ d.body)
  have hmembers : members (textOf (writtenBody d rows)) = .ok (rows.map (·.code.member)) :=
    members_bodyLexemes (memberIndent_spec _).1 hclosing _ rows
  have hraws : (rows.map (·.code.member)).map (·.raw) = ms.map (·.raw) := by
    rw [raws_eq hrows, List.map_map]
    rfl
  refine patch_eq_ok_iff.mpr ⟨_, _, text, hnew, hmembers, ?_, ?_, ?_, ?_⟩
  · rw [valueFault?_eq_none_iff, hraws, ← valueFault?_eq_none_iff]
    exact hfault
  · rw [renderMembers_rows hrows]
    exact (renderMembers_layout hd hrows (hstar d ms hd hms)).trans htext
  · rw [hp]
    simp only
    rw [writtenBody, closingIndent_bodyLexemes hclosing hnewline, ← writtenBody, ← hbody,
      ← List.append_assoc]
  · exact rawValues_eq_ok_iff.mpr ⟨_, _, hnew, hmembers, rfl⟩

end ClientRegen.EnumSource

namespace ClientRegen

open EnumSource

/-- **Patching is idempotent,** unless a key begins with a star. -/
theorem patchEnumSource_idempotent {source p : String} {m : EnumMetadata}
    (h : patchEnumSource source m = .ok p) (hstar : NoStarKey source.toList) :
    patchEnumSource p m = .ok p :=
  patchEnumSource_eq_ok_iff.mpr (patch_patch (patchEnumSource_eq_ok_iff.mp h) hstar)

/-- A body on one line, with a comment and without a trailing comma. -/
theorem patchEnumSource_idempotent_line :
    let source := "export const A = \x7b a: 1, /* b */ 'b' : 'x y' \x7d as const;"
    let m : EnumMetadata := ⟨"A", [⟨"1", "", some "One"⟩, ⟨"x y", "an x\r\n and a y ", none⟩]⟩
    let p := "export const A = \x7b\n /**\n  */\n One: 1,\n" ++
      " /**\n  * an x\n  *  and a y\n  */\n 'b': 'x y'\n\x7d as const;"
    patchEnumSource source m = .ok p ∧ NoStarKey source.toList ∧ patchEnumSource p m = .ok p := by
  intro source m p
  have h : patchEnumSource source m = .ok p := eq_ok_of_toOption (by decide +kernel)
  have hkeys : (findDeclaration source.toList >>= fun d => members d.body >>= fun ms =>
      pure (ms.all fun member => member.key.head? != some '*')).toOption = some true := by
    decide +kernel
  have hstar : NoStarKey source.toList := by
    intro d ms hd hms member hmember
    rw [hd] at hkeys
    simp only [bind, Except.bind, hms, pure, Except.pure, Except.toOption, Option.some.injEq,
      List.all_eq_true, bne_iff_ne] at hkeys
    exact hkeys member hmember
  exact ⟨h, hstar, patchEnumSource_idempotent h hstar⟩

/-- A key that begins with a star moves to another indentation. -/
example :
    let source := "export enum A \x7b\n *a\n = 1 \x7d"
    let m : EnumMetadata := ⟨"A", [⟨"1", "x", none⟩]⟩
    let p := patchEnumSource source m
    p.toOption.isSome ∧ (p.bind (patchEnumSource · m)).toOption ≠ p.toOption := by
  decide +kernel

end ClientRegen
