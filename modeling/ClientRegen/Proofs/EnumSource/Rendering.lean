import ClientRegen.Proofs.EnumSource.LabelComment
import ClientRegen.Proofs.EnumSource.MemberCode

/-!
# The body that is written

A written body is a list of rows: a comment, a member on a line of its own, and
a comma unless the member is the last one and had none.  `bodyLexemes` gives
the lexemes of such a body, `textOf_bodyLexemes` says that they make up what is
written, and `readsBack_bodyLexemes` that they are read back from it, before
whatever text comes next.

So the members of a written body are those that were written
(`members_bodyLexemes`), and its comments are the labels, one directly before
each member (`labelledBody_bodyLexemes`).
-/

namespace ClientRegen.EnumSource

variable {indent closing : List Char} {trailing : Bool} {m : EnumMetadata} {text : List Char}
  {mcs : List MemberCode} {ms : List Member} {ls rest : List Lexeme}

/-- A member with the entry of the schema that labels it. -/
structure Row where
  /-- The entry. -/
  entry : EnumEntry
  /-- The member, under the name that the entry gives it. -/
  code : MemberCode

variable {row : Row} {rows : List Row}

/-- The line feed that ends what comes before, and the comment with the
label. -/
def Row.opening (indent : List Char) (row : Row) : List Lexeme :=
  ('\n' :: indent).map .plain ++ [.comment (labelText row.entry.label.toList indent)]

/-- What stands between the key and the separator. -/
def Row.mid (row : Row) : List Char :=
  if row.code.separator = '=' then [' '] else []

/-- The line of the member, up to the comma, and a gap behind it. -/
def Row.line (indent after : List Char) (row : Row) : List Lexeme :=
  row.code.spaced ('\n' :: indent) row.mid [' '] after

/-- The lexemes of a written body. -/
def bodyLexemes (indent closing : List Char) (trailing : Bool) : List Row → List Lexeme
  | [] => ('\n' :: closing).map .plain
  | row :: rows =>
    if rows.isEmpty && !trailing then row.opening indent ++ row.line indent ('\n' :: closing)
    else
      row.opening indent ++
        (row.line indent [] ++ .plain ',' :: bodyLexemes indent closing trailing rows)

/-- A gap behind a line is blanks at its end. -/
theorem Row.line_eq (indent after : List Char) (row : Row) :
    row.line indent after = row.line indent [] ++ after.map .plain := by
  simp [line, MemberCode.spaced]

/-- The row of a member under the entry of the schema for it. -/
def LabelsMember (m : EnumMetadata) (member : Member) (row : Row) : Prop :=
  entryFor? m member = some row.entry ∧
    row.code.member = { member with key := newKey row.entry member }

/-- Rows have the values of the members they were made from. -/
theorem raws_eq (h : List.Forall₂ (LabelsMember m) ms rows) :
    ms.map (·.raw) = rows.map (·.code.member.raw) := by
  induction h with
  | nil => rfl
  | cons hrow _ ih => rw [List.map_cons, List.map_cons, ih, hrow.2]

/-! ## What is written -/

/-- A member under the name that an entry gives it. -/
def MemberCode.relabel (mc : MemberCode) (e : EnumEntry) : MemberCode :=
  match e.name with
  | some name => mc.rename name.toList
  | none => mc

/-- The code under a new name reads as the member under this name. -/
theorem MemberCode.member_relabel (mc : MemberCode) (e : EnumEntry) :
    (mc.relabel e).member = { mc.member with key := newKey e mc.member } := by
  unfold relabel newKey
  cases e.name with
  | none => rfl
  | some name => exact mc.member_rename name.toList

/-- A member is written as its row says, up to the line feeds around it. -/
theorem renderMember_eq (row : Row) (comma : Bool) {member : Member}
    (h : row.code.member = { member with key := newKey row.entry member }) :
    '\n' :: renderMember row.entry indent comma member =
      textOf (row.opening indent ++ row.line indent []) ++
        (if comma then [',', '\n'] else ['\n']) := by
  have hkey := congrArg Member.key h
  have hseparator := congrArg Member.separator h
  have hliteral := congrArg Member.literal h
  simp only [MemberCode.member] at hkey hseparator hliteral
  rw [renderMember, labelComment_eq, ← hkey, ← hliteral, ← hseparator]
  cases comma <;> simp [Row.opening, Row.line, Row.mid, MemberCode.spaced, Lexeme.text]

/-- **Written members make up rows.** -/
theorem exists_rows (h : renderMembers m indent trailing (mcs.map MemberCode.member) = .ok text) :
    ∃ rows, List.Forall₂ (LabelsMember m) (mcs.map MemberCode.member) rows ∧
      ∀ closing, '\n' :: text ++ closing = textOf (bodyLexemes indent closing trailing rows) := by
  induction mcs generalizing text with
  | nil =>
      cases h
      exact ⟨[], .nil, fun closing => by simp [bodyLexemes, Lexeme.text]⟩
  | cons mc mcs ih =>
      rw [List.map_cons, renderMembers] at h
      split at h
      · simp at h
      · rename_i e hentry
        split at h
        · simp at h
        · rename_i later hlater
          cases h
          obtain ⟨rows, hrows, htext⟩ := ih hlater
          have hlabels : LabelsMember m mc.member ⟨e, mc.relabel e⟩ :=
            ⟨hentry, mc.member_relabel e⟩
          refine ⟨⟨e, mc.relabel e⟩ :: rows, .cons hlabels hrows, fun closing => ?_⟩
          have hempty : (mcs.map MemberCode.member).isEmpty = rows.isEmpty := by
            rw [Bool.eq_iff_iff, List.isEmpty_iff, List.isEmpty_iff, ← List.length_eq_zero_iff,
              ← List.length_eq_zero_iff, hrows.length_eq]
          rw [hempty, ← List.cons_append, renderMember_eq _ _ hlabels.2, bodyLexemes]
          have hcomma : (!rows.isEmpty || trailing) = !(rows.isEmpty && !trailing) := by
            cases rows.isEmpty <;> cases trailing <;> rfl
          rw [hcomma]
          cases hlast : rows.isEmpty && !trailing with
          | true =>
              have hnil : rows = [] := List.isEmpty_iff.mp (Bool.and_eq_true_iff.mp hlast).1
              have hlater : later = [] := by
                simpa [hnil, bodyLexemes, Lexeme.text] using htext []
              rw [if_pos rfl, hlater, Row.line_eq indent ('\n' :: closing)]
              simp [Lexeme.text]
          | false =>
              have hclosing := htext closing
              rw [if_neg Bool.false_ne_true, textOf_append, textOf_append, textOf_append,
                textOf_cons, ← hclosing]
              simp [Lexeme.text]

/-! ## Reading it back -/

/-- The lexemes of one member: there is no comment and no comma among them, and
trimmed they read as the member. -/
structure SpellsMember (ls : List Lexeme) (member : Member) : Prop where
  /-- No comment stands in the member. -/
  isComment_eq : ∀ l ∈ ls, l.isComment = false
  /-- No comma does either. -/
  comma_notMem : .plain ',' ∉ ls
  /-- They read as the member. -/
  readsMember : ReadsMember ls member

/-- A line feed and an indentation are blank. -/
theorem allBlank_newline (hindent : Text.allBlank indent = true) :
    Text.allBlank ('\n' :: indent) = true := by
  rw [Text.allBlank_cons, hindent]
  decide

/-- The line of a member reads back before whatever makes no comment mark of a slash. -/
theorem settled_line (row : Row) (hindent : Text.allBlank indent = true) {after : List Char}
    (hafter : Text.allBlank after = true) : Settled (row.line indent after) := by
  have hmid : Text.allBlank row.mid = true := by
    unfold Row.mid
    split <;> decide
  exact MemberCode.settled_spaced (allBlank_newline hindent) hmid (by decide) hafter

/-- The line of a row spells its member. -/
theorem spellsMember_line (row : Row) (hindent : Text.allBlank indent = true) {after : List Char}
    (hafter : Text.allBlank after = true) :
    SpellsMember (row.line indent after) row.code.member := by
  have hmid : Text.allBlank row.mid = true := by
    unfold Row.mid
    split <;> decide
  exact ⟨(settled_line row hindent hafter).isComment_eq,
    MemberCode.comma_notMem_spaced (allBlank_newline hindent) hmid (by decide) hafter,
    MemberCode.readsMember_spaced (allBlank_newline hindent) hmid (by decide) hafter⟩

/-- Blanks and a label cannot grow into what follows them. -/
theorem closed_opening (row : Row) (hindent : Text.allBlank indent = true) :
    ∀ l ∈ row.opening indent, l.Closed := by
  intro l hl
  rcases List.mem_append.mp hl with hl | hl
  · obtain ⟨c, hc, rfl⟩ := List.mem_map.mp hl
    exact closed_of_isBlank (Text.isBlank_of_allBlank (allBlank_newline hindent) hc)
  · rw [List.mem_singleton] at hl
    exact hl ▸ closed_labelText hindent _

/-- **A written body is read back as it was written.** -/
theorem readsBack_bodyLexemes (hindent : Text.allBlank indent = true)
    (hclosing : Text.allBlank closing = true) (trailing : Bool) (rows : List Row)
    {rest : List Char} (hrest : Neutral rest) :
    ReadsBack (bodyLexemes indent closing trailing rows) rest := by
  induction rows with
  | nil => exact (settled_map_blank (allBlank_newline hclosing)).readsBack rest hrest
  | cons row rows ih =>
      have hopening := closed_opening row hindent
      rw [bodyLexemes]
      split
      · exact readsBack_append.mpr ⟨readsBack_of_closed hopening _,
          (settled_line row hindent (allBlank_newline hclosing)).readsBack rest hrest⟩
      · refine readsBack_append.mpr ⟨readsBack_of_closed hopening _, readsBack_append.mpr
          ⟨(settled_line row hindent rfl).readsBack _ ?_, ?_, ih⟩⟩
        · simp [Lexeme.text, neutral_cons]
        · exact Lexeme.Closed.standsBefore (.plain (by decide) (by decide)) _

/-- The text of a written body has the lexemes that were written. -/
theorem lexemes_textOf_bodyLexemes (hindent : Text.allBlank indent = true)
    (hclosing : Text.allBlank closing = true) (trailing : Bool) (rows : List Row) :
    lexemes (textOf (bodyLexemes indent closing trailing rows)) =
      bodyLexemes indent closing trailing rows :=
  (readsBack_bodyLexemes hindent hclosing trailing rows neutral_nil).lexemes_textOf

/-! ## Its members -/

/-- Without comments all lexemes are code. -/
theorem code_of_no_comment (h : ∀ l ∈ ls, l.isComment = false) : code ls = ls :=
  List.filter_eq_self.mpr fun l hl => by simp [h l hl]

/-- Code without a comma is one piece. -/
theorem pieces_of_no_comma (h : .plain ',' ∉ code ls) : pieces ls = [code ls] :=
  List.splitOn_eq_singleton h

/-- The first comma ends the first piece. -/
theorem pieces_append_comma (h : .plain ',' ∉ code ls) :
    pieces (ls ++ .plain ',' :: rest) = code ls :: pieces rest := by
  have hcomma : code (.plain ',' :: rest) = .plain ',' :: code rest := rfl
  rw [pieces, code_append, hcomma]
  exact List.splitOn_append_cons_self_of_not_mem h _

/-- Blanks in front do not change the member that is read. -/
theorem ReadsMember.blanks_append {blanks : List Char} {q : List Lexeme} {member : Member}
    (hblanks : Text.allBlank blanks = true) (h : ReadsMember q member) :
    ReadsMember (blanks.map .plain ++ q) member := by
  rwa [ReadsMember, textOf_append, textOf_map_plain, Text.trim_append_left hblanks]

/-- What reads as a member is not blank. -/
theorem ReadsMember.isMemberPiece {q : List Lexeme} {member : Member} (h : ReadsMember q member) :
    IsMemberPiece q := by
  intro hnil
  rw [ReadsMember, hnil] at h
  simp [Member.ofText, splitSeparator?] at h

/-- Of the opening of a row only the blanks are code. -/
theorem code_opening_append (indent : List Char) (row : Row) (h : ∀ l ∈ ls, l.isComment = false) :
    code (row.opening indent ++ ls) = ('\n' :: indent).map .plain ++ ls := by
  have hblanks : code (('\n' :: indent).map .plain) = ('\n' :: indent).map .plain := by
    refine code_of_no_comment fun l hl => ?_
    obtain ⟨c, -, rfl⟩ := List.mem_map.mp hl
    rfl
  rw [code_append, Row.opening, code_append, hblanks, code_of_no_comment h]
  simp [code, Lexeme.isComment]

/-- **The members of a written body are those that were written.** -/
theorem members_bodyLexemes (hindent : Text.allBlank indent = true)
    (hclosing : Text.allBlank closing = true) (trailing : Bool) (rows : List Row) :
    members (textOf (bodyLexemes indent closing trailing rows)) =
      .ok (rows.map (·.code.member)) := by
  rw [members_eq_ok_iff, lexemes_textOf_bodyLexemes hindent hclosing]
  induction rows with
  | nil =>
      have hcode : code (('\n' :: closing).map .plain) = ('\n' :: closing).map .plain :=
        code_of_no_comment (settled_map_blank (allBlank_newline hclosing)).isComment_eq
      have hcomma : .plain ',' ∉ code (('\n' :: closing).map .plain) := by
        rw [hcode]
        simpa using fun hc => absurd (Text.isBlank_of_allBlank hclosing hc) (by decide)
      have hblank : ¬ IsMemberPiece (('\n' :: closing).map .plain) := by
        rw [IsMemberPiece, textOf_map_plain, not_not, Text.trim_eq_nil_iff]
        exact allBlank_newline hclosing
      rw [bodyLexemes, pieces_of_no_comma hcomma, hcode,
        List.filter_cons_of_neg (by simpa using hblank)]
      exact .nil
  | cons row rows ih =>
      have hpiece : ∀ after, Text.allBlank after = true →
          code (row.opening indent ++ row.line indent after) =
            ('\n' :: indent).map .plain ++ row.line indent after ∧
          .plain ',' ∉ code (row.opening indent ++ row.line indent after) ∧
          ReadsMember (('\n' :: indent).map .plain ++ row.line indent after) row.code.member := by
        intro after hafter
        have hspells := spellsMember_line row hindent hafter
        have hcode := code_opening_append indent row hspells.isComment_eq
        refine ⟨hcode, ?_, hspells.readsMember.blanks_append (allBlank_newline hindent)⟩
        rw [hcode, List.mem_append, not_or]
        refine ⟨fun hmem => ?_, hspells.comma_notMem⟩
        obtain ⟨c, hc, heq⟩ := List.mem_map.mp hmem
        cases heq
        exact absurd (Text.isBlank_of_allBlank (allBlank_newline hindent) hc) (by decide)
      rw [bodyLexemes]
      split
      · rename_i hlast
        obtain ⟨hcode, hcomma, hreads⟩ := hpiece ('\n' :: closing) (allBlank_newline hclosing)
        have hnil : rows = [] := List.isEmpty_iff.mp (Bool.and_eq_true_iff.mp hlast).1
        rw [pieces_of_no_comma hcomma, hcode,
          List.filter_cons_of_pos (by simpa using hreads.isMemberPiece), hnil]
        exact .cons hreads .nil
      · obtain ⟨hcode, hcomma, hreads⟩ := hpiece [] rfl
        rw [← List.append_assoc, pieces_append_comma hcomma, hcode,
          List.filter_cons_of_pos (by simpa using hreads.isMemberPiece)]
        exact .cons hreads ih

/-! ## Its comments -/

/-- A closed block comment with the lines of a label. -/
structure HoldsLabel (comment label : List Char) : Prop where
  /-- The comment is a block comment. -/
  block : (Lexeme.comment comment).Closed
  /-- Between its marks stand the lines of the label, without the blanks at their ends. -/
  lines_eq : commentLines comment = (Text.lines (defuse label)).map Text.trimEnd

/-- A body whose comments are labels.  One comment with the label of an entry
stands directly before each member, and there are no others. -/
inductive LabelledBody : List Lexeme → List (EnumEntry × Member) → Prop
  | done {gap : List Char} (hgap : Text.allBlank gap = true) : LabelledBody (gap.map .plain) []
  | last {gap comment : List Char} {ls : List Lexeme} {e : EnumEntry} {member : Member}
      (hgap : Text.allBlank gap = true) (hlabel : HoldsLabel comment e.label.toList)
      (hmember : SpellsMember ls member) :
      LabelledBody (gap.map .plain ++ .comment comment :: ls) [(e, member)]
  | member {gap comment : List Char} {ls rest : List Lexeme} {e : EnumEntry} {member : Member}
      {labelled : List (EnumEntry × Member)}
      (hgap : Text.allBlank gap = true) (hlabel : HoldsLabel comment e.label.toList)
      (hmember : SpellsMember ls member) (tail : LabelledBody rest labelled) :
      LabelledBody (gap.map .plain ++ .comment comment :: (ls ++ .plain ',' :: rest))
        ((e, member) :: labelled)

/-- **The comments of a written body are its labels.** -/
theorem labelledBody_bodyLexemes (hindent : Text.allBlank indent = true) (hline : '\n' ∉ indent)
    (hclosing : Text.allBlank closing = true) (trailing : Bool) (rows : List Row) :
    LabelledBody (bodyLexemes indent closing trailing rows)
      (rows.map fun row => (row.entry, row.code.member)) := by
  induction rows with
  | nil => exact .done (allBlank_newline hclosing)
  | cons row rows ih =>
      have hlabel : HoldsLabel (labelText row.entry.label.toList indent)
          row.entry.label.toList :=
        ⟨closed_labelText hindent _, commentLines_labelText hindent hline _⟩
      rw [bodyLexemes]
      split
      · rename_i hlast
        have hnil : rows = [] := List.isEmpty_iff.mp (Bool.and_eq_true_iff.mp hlast).1
        rw [Row.opening, List.append_assoc, hnil]
        exact .last (allBlank_newline hindent) hlabel
          (spellsMember_line row hindent (allBlank_newline hclosing))
      · rw [Row.opening, List.append_assoc]
        exact .member (allBlank_newline hindent) hlabel (spellsMember_line row hindent rfl) ih

end ClientRegen.EnumSource
