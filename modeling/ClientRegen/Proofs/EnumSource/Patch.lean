import ClientRegen.Proofs.EnumSource.Layout

/-!
# What a patched source is

A patched source keeps everything outside the body of its enum, and the body is
a written one (`patch_spec`).  That the written body is found again where it
was put (`findDeclaration_written`) needs more than the text around it: a stray
brace in it would end it early.  Here the check that the values are still the
same does its work, for a body that ends at another brace has other values.

`Declaration.IsPatched` says what this means for the members, their values and
the comments between them.
-/

namespace ClientRegen.EnumSource

variable {source p text : List Char} {m : EnumMetadata} {d d' : Declaration} {ms : List Member}
  {raws : List (List Char)} {indent closing : List Char} {trailing : Bool} {rows : List Row}

/-! ## The steps of a patch -/

theorem rawValues_eq_ok_iff : rawValues source = .ok raws ↔
    ∃ d ms, findDeclaration source = .ok d ∧ members d.body = .ok ms ∧ ms.map (·.raw) = raws := by
  constructor
  · intro h
    obtain ⟨d, hd, h⟩ := bind_eq_ok_iff.mp h
    obtain ⟨ms, hms, h⟩ := bind_eq_ok_iff.mp h
    exact ⟨d, ms, hd, hms, Except.ok.inj h⟩
  · rintro ⟨d, ms, hd, hms, rfl⟩
    exact bind_eq_ok_iff.mpr ⟨d, hd, bind_eq_ok_iff.mpr ⟨ms, hms, rfl⟩⟩

/-- A source is patched in one way: its members have the values of the schema,
they are written anew, and they are read back with the values they had. -/
theorem patch_eq_ok_iff : patch source m = .ok p ↔
    ∃ d ms text, findDeclaration source = .ok d ∧ members d.body = .ok ms ∧
      valueFault? m ms = none ∧
      renderMembers m (memberIndent d.body) (hasTrailingComma d.body) ms = .ok text ∧
      p = d.head ++ '\n' :: text ++ closingIndent (d.head ++ d.body) ++ d.tail ∧
      rawValues p = .ok (ms.map (·.raw)) := by
  constructor
  · intro h
    obtain ⟨d, hd, h⟩ := bind_eq_ok_iff.mp h
    obtain ⟨ms, hms, h⟩ := bind_eq_ok_iff.mp h
    split at h
    · simp at h
    · rename_i hfault
      obtain ⟨text, htext, h⟩ := bind_eq_ok_iff.mp h
      obtain ⟨after, hafter, h⟩ := bind_eq_ok_iff.mp h
      by_cases heq : ms.map (·.raw) = after
      · rw [if_pos heq, Except.ok.injEq] at h
        subst heq h
        exact ⟨d, ms, text, hd, hms, hfault, htext, rfl, hafter⟩
      · simp [heq] at h
  · rintro ⟨d, ms, text, hd, hms, hfault, htext, rfl, hafter⟩
    refine bind_eq_ok_iff.mpr ⟨d, hd, bind_eq_ok_iff.mpr ⟨ms, hms, ?_⟩⟩
    rw [hfault]
    exact bind_eq_ok_iff.mpr ⟨text, htext, bind_eq_ok_iff.mpr ⟨_, hafter, if_pos rfl⟩⟩

/-! ## The body is found where it was put -/

/-- Lexemes that stand for a body, with the members they are read as. -/
structure IsBlock (ls : List Lexeme) (ms : List Member) : Prop where
  /-- Their code is settled. -/
  settled : Settled (code ls)
  /-- Their pieces read as the members. -/
  reads : List.Forall₂ ReadsMember ((pieces ls).filter IsMemberPiece) ms

/-- **Blocks of the same text with the same values are the same,** even if they
end at different braces of it. -/
theorem IsBlock.unique {ls ls' t t' : List Lexeme} {ms' : List Member} (h : IsBlock ls ms)
    (h' : IsBlock ls' ms') (hraws : ms.map (·.raw) = ms'.map (·.raw))
    (htext : ls ++ .plain '\x7d' :: t = ls' ++ .plain '\x7d' :: t') : ls = ls' := by
  rcases List.append_eq_append_iff.mp htext with ⟨more, rfl, hmore⟩ | ⟨more, rfl, hmore⟩
  · cases more with
    | nil => simp
    | cons l more =>
        obtain ⟨rfl, -⟩ := List.cons.inj hmore
        exact absurd hraws (raws_ne_of_brace h.settled h'.settled h.reads h'.reads)
  · cases more with
    | nil => simp
    | cons l more =>
        obtain ⟨rfl, -⟩ := List.cons.inj hmore
        exact absurd hraws.symm (raws_ne_of_brace h'.settled h.settled h'.reads h.reads)

theorem isBlock_lexemes (hbody : ReadsBack (lexemes d.body) d.tail) (htail : ClosesBlock d.tail)
    (hms : members d.body = .ok ms) : IsBlock (lexemes d.body) ms :=
  ⟨settled_code hbody htail.ne_nil, members_eq_ok_iff.mp hms⟩

theorem isBlock_bodyLexemes (hindent : Text.allBlank indent = true)
    (hclosing : Text.allBlank closing = true) (trailing : Bool) (rows : List Row) :
    IsBlock (bodyLexemes indent closing trailing rows) (rows.map (·.code.member)) := by
  have hbrace : Neutral ['\x7d'] := by simp [neutral_cons]
  have hmembers := members_eq_ok_iff.mp (members_bodyLexemes hindent hclosing trailing rows)
  rw [lexemes_textOf_bodyLexemes hindent hclosing] at hmembers
  exact ⟨settled_code (readsBack_bodyLexemes hindent hclosing trailing rows hbrace) (by simp),
    hmembers⟩

theorem ClosesBlock.exists_lexemes {t : List Char} (h : ClosesBlock t) :
    ∃ ls, lexemes t = .plain '\x7d' :: ls := by
  obtain ⟨t, rfl⟩ := List.head?_eq_some_iff.mp h
  have hread : ReadsBack [.plain '\x7d'] t :=
    ⟨Lexeme.Closed.standsBefore (.plain (by decide) (by decide)) t, trivial⟩
  exact ⟨lexemes t, lexemes_textOf_append hread⟩

/-- **A written body is found where it was put,** if the values that are read
there are those that were written. -/
theorem findDeclaration_written (hd : findDeclaration source = .ok d)
    (hindent : Text.allBlank indent = true) (hclosing : Text.allBlank closing = true)
    (hvalues : rawValues (d.head ++ textOf (bodyLexemes indent closing trailing rows) ++ d.tail) =
      .ok (rows.map (·.code.member.raw))) :
    findDeclaration (d.head ++ textOf (bodyLexemes indent closing trailing rows) ++ d.tail) =
      .ok ⟨d.head, textOf (bodyLexemes indent closing trailing rows), d.tail⟩ := by
  obtain ⟨-, htail, -⟩ := findDeclaration_spec hd
  obtain ⟨-, -, -, -, -, hagain⟩ := findDeclaration_head_append hd
  obtain ⟨d', ms', hd', hms', hraws⟩ := rawValues_eq_ok_iff.mp hvalues
  have hclose := hd'
  rw [List.append_assoc, hagain] at hclose
  obtain ⟨hhead, htext, htail', hread⟩ := closeBlock_spec hclose
  obtain ⟨t, ht⟩ := htail.exists_lexemes
  obtain ⟨t', ht'⟩ := htail'.exists_lexemes
  -- the text from the body on, read once as it was written and once as it was found
  have hlexemes : bodyLexemes indent closing trailing rows ++ .plain '\x7d' :: t =
      lexemes d'.body ++ .plain '\x7d' :: t' := by
    have hread' := lexemes_textOf_append
      (readsBack_bodyLexemes hindent hclosing trailing rows htail.neutral)
    rw [htext, ← textOf_lexemes d'.body, lexemes_textOf_append hread] at hread'
    rw [← ht, ← ht', hread']
  have hbody := (isBlock_lexemes hread htail' hms').unique
    (isBlock_bodyLexemes hindent hclosing trailing rows) (by simp [hraws]) hlexemes.symm
  obtain ⟨head, body, tail⟩ := d'
  obtain rfl : head = d.head := hhead
  obtain rfl : body = textOf (bodyLexemes indent closing trailing rows) := by
    rw [← hbody, textOf_lexemes]
  rw [hd', List.append_cancel_left htext]

/-! ## What a patch does -/

/-- The lexemes of the body that is written for a declaration. -/
def writtenBody (d : Declaration) (rows : List Row) : List Lexeme :=
  bodyLexemes (memberIndent d.body) (closingIndent (d.head ++ d.body)) (hasTrailingComma d.body)
    rows

/-- **A patch writes a body, and finds it again.**  The body has a row for each
member, and takes the place of the old one. -/
theorem patch_spec (h : patch source m = .ok p) :
    ∃ d ms text rows, findDeclaration source = .ok d ∧ members d.body = .ok ms ∧
      valueFault? m ms = none ∧ List.Forall₂ (LabelsMember m) ms rows ∧
      renderMembers m (memberIndent d.body) (hasTrailingComma d.body) ms = .ok text ∧
      '\n' :: text ++ closingIndent (d.head ++ d.body) = textOf (writtenBody d rows) ∧
      p = d.head ++ textOf (writtenBody d rows) ++ d.tail ∧
      findDeclaration p = .ok ⟨d.head, textOf (writtenBody d rows), d.tail⟩ := by
  obtain ⟨d, ms, text, hd, hms, hfault, htext, hp, hvalues⟩ := patch_eq_ok_iff.mp h
  obtain ⟨-, htail, hread⟩ := findDeclaration_spec hd
  obtain ⟨mcs, rfl⟩ := exists_memberCode hms (settled_code hread htail.ne_nil)
  obtain ⟨rows, hrows, hbody⟩ := exists_rows htext
  have hwritten : p = d.head ++ textOf (writtenBody d rows) ++ d.tail := by
    rw [hp, writtenBody, ← hbody, List.append_assoc d.head]
  rw [hwritten, raws_eq hrows] at hvalues
  refine ⟨d, _, text, rows, hd, hms, hfault, hrows, htext, hbody _, hwritten, ?_⟩
  rw [hwritten]
  exact findDeclaration_written hd (memberIndent_spec _).1 (closingIndent_spec _).1 hvalues

/-- A member under the label and the name that the schema has for its value:
those of the first entry with that value. -/
structure Relabelled (m : EnumMetadata) (old : Member) (labelled : EnumEntry × Member) : Prop where
  /-- The label is that of the first entry for the value. -/
  entry : m.entries.find? (fun e => e.raw == String.ofList old.raw) = some labelled.1
  /-- The key is the name in the entry, and the old key if the entry has no name. -/
  key_eq : labelled.2.key =
    match labelled.1.name with
    | some name => memberKey name.toList
    | none => old.key
  /-- The separator is kept. -/
  separator_eq : labelled.2.separator = old.separator
  /-- The literal is kept. -/
  literal_eq : labelled.2.literal = old.literal
  /-- The value is kept. -/
  raw_eq : labelled.2.raw = old.raw

theorem LabelsMember.relabelled {member : Member} {row : Row} (h : LabelsMember m member row) :
    Relabelled m member (row.entry, row.code.member) := by
  obtain ⟨hentry, hmember⟩ := h
  rw [hmember]
  exact ⟨hentry, rfl, rfl, rfl, rfl⟩

/-- What a patch makes of the declaration of an enum. -/
structure Declaration.IsPatched (m : EnumMetadata) (old new : Declaration)
    (before : List Member) (labelled : List (EnumEntry × Member)) : Prop where
  /-- Everything before the body is kept. -/
  head_eq : new.head = old.head
  /-- So is everything behind it. -/
  tail_eq : new.tail = old.tail
  /-- The old body has members. -/
  members_old : members old.body = .ok before
  /-- The new body has as many, in the same order. -/
  members_new : members new.body = .ok (labelled.map (·.2))
  /-- They are relabelled one by one. -/
  relabelled : List.Forall₂ (Relabelled m) before labelled
  /-- The comments of the new body are their labels. -/
  labels : LabelledBody (lexemes new.body) labelled

end ClientRegen.EnumSource

namespace ClientRegen

open EnumSource

/-- A text is patched as its characters are. -/
theorem patchEnumSource_eq_ok_iff {source p : String} {m : EnumMetadata} :
    patchEnumSource source m = .ok p ↔ patch source.toList m = .ok p.toList := by
  unfold patchEnumSource
  cases patch source.toList m with
  | error f => simp
  | ok text => simp [← String.toList_inj]

/-- **A patch changes keys and comments only.**  The declaration of the patched
source stands where the old one stood, between the same texts.  Its members are
the old ones in the same order, with their separators, literals and values; a
member whose value has a named entry takes that name.  The comments in the new
body are the labels, one directly before each member. -/
theorem patchEnumSource_isPatched {source p : String} {m : EnumMetadata}
    (h : patchEnumSource source m = .ok p) :
    ∃ old new before labelled,
      findDeclaration source.toList = .ok old ∧ findDeclaration p.toList = .ok new ∧
      source.toList = old.head ++ old.body ++ old.tail ∧
      p.toList = new.head ++ new.body ++ new.tail ∧
      old.IsPatched m new before labelled := by
  obtain ⟨d, ms, text, rows, hd, hms, -, hrows, -, -, hp, hnew⟩ :=
    patch_spec (patchEnumSource_eq_ok_iff.mp h)
  obtain ⟨hindent, hline⟩ := memberIndent_spec d.body
  have hclosing := (closingIndent_spec (d.head ++ d.body)).1
  refine ⟨d, _, ms, rows.map fun row => (row.entry, row.code.member), hd, hnew,
    (findDeclaration_spec hd).1, hp, rfl, rfl, hms, ?_, ?_, ?_⟩
  · rw [List.map_map]
    exact members_bodyLexemes hindent hclosing _ rows
  · rw [List.forall₂_map_right_iff]
    exact hrows.imp fun _ _ hrow => hrow.relabelled
  · rw [writtenBody, lexemes_textOf_bodyLexemes hindent hclosing]
    exact labelledBody_bodyLexemes hindent hline hclosing _ rows

/-- A name that needs quotes, a value with a brace in it, a label that would
close its comment and a comment that goes. -/
theorem patchEnumSource_isPatched_quoted :
    let source := "export enum A \x7b\n  x = 'a\\'\x7d' , // y\n\n  'b c' : <any> \"2\"\x7d\n"
    let m : EnumMetadata :=
      ⟨"A", [⟨"2", "Two */ \x7b\n\nx", none⟩, ⟨"a'\x7d", "One", some "the one"⟩]⟩
    let p := "export enum A \x7b\n  /**\n   * One\n   */\n  'the one' = 'a\\'\x7d',\n" ++
      "  /**\n   * Two *\\/ \x7b\n   *\n   * x\n   */\n  'b c': <any> \"2\"\n\x7d\n"
    patchEnumSource source m = .ok p ∧
      ∃ old new before labelled,
        findDeclaration source.toList = .ok old ∧ findDeclaration p.toList = .ok new ∧
        source.toList = old.head ++ old.body ++ old.tail ∧
        p.toList = new.head ++ new.body ++ new.tail ∧
        old.IsPatched m new before labelled := by
  intro source m p
  have h : patchEnumSource source m = .ok p := eq_ok_of_toOption (by decide +kernel)
  exact ⟨h, patchEnumSource_isPatched h⟩

end ClientRegen
