import ClientRegen.Proofs.EnumSource.Member

/-!
# Members in code

A `MemberCode` is a member whose key and literal are given as lexemes that can
be written into any body: they are settled, no blank stands at their ends, and
no comma or separator in them parts the member.  Every member of a body that
was read is one (`exists_memberCode`), and so is a member under a new name
(`MemberCode.rename`), because a name becomes a key of closed lexemes.

Written with blanks around its parts, such a member is read back as itself
(`MemberCode.readsMember_spaced`).
-/

namespace ClientRegen.EnumSource

variable {kl vl ls : List Lexeme} {q : List Lexeme} {l : Lexeme} {c : Char} {t name : List Char}
  {m : Member} {ms : List Member}

/-- Lexemes that can stand for a part of a member. -/
structure IsPart (ls : List Lexeme) : Prop where
  /-- They read back before everything that makes no comment mark of a slash. -/
  settled : Settled ls
  /-- They neither begin nor end with a blank. -/
  tight : Text.Tight (textOf ls)
  /-- No comma ends the member within them. -/
  comma_notMem : .plain ',' ∉ ls

/-- A member whose parts are lexemes. -/
structure MemberCode where
  /-- The lexemes of the key. -/
  key : List Lexeme
  /-- The equals sign or the colon. -/
  separator : Char
  /-- The lexemes of the literal. -/
  literal : List Lexeme
  /-- The key is a part. -/
  key_isPart : IsPart key
  /-- It goes up to the first separator. -/
  isSeparator_key : ∀ l ∈ key, l.isSeparator = false
  /-- The separator is one. -/
  separator_eq : separator = '=' ∨ separator = ':'
  /-- The literal is a part. -/
  literal_isPart : IsPart literal

/-- The member that the lexemes say. -/
def MemberCode.member (mc : MemberCode) : Member :=
  ⟨textOf mc.key, mc.separator, textOf mc.literal, rawOf (textOf mc.literal)⟩

/-! ## Members that were read -/

/-- What trimming leaves of settled lexemes is a part, unless it is nothing. -/
theorem Settled.exists_isPart (h : Settled ls) (hcomma : .plain ',' ∉ ls)
    (hne : Text.trim (textOf ls) ≠ []) :
    ∃ kept, IsPart kept ∧ Text.trim (textOf ls) = textOf kept ∧ ∀ l ∈ kept, l ∈ ls := by
  obtain ⟨before, kept, after, rfl, hkept, -, -, htrim⟩ := h.trim_textOf
  have hmem : ∀ l ∈ kept, l ∈ before ++ kept ++ after := by
    intro l hl
    simp [hl]
  exact ⟨kept, ⟨hkept, htrim ▸ Text.tight_trim hne, fun hc => hcomma (hmem _ hc)⟩, htrim, hmem⟩

/-- A member that was read from settled lexemes is said by a key, a separator and a literal. -/
theorem ReadsMember.exists_memberCode (h : ReadsMember q m) (hq : Settled q)
    (hcomma : .plain ',' ∉ q) : ∃ mc : MemberCode, mc.member = m := by
  obtain ⟨kl, vl, hsplit, hkey, hliteral, hkeyne, hliteralne, hraw⟩ := h.exists_splitsInto hq
  obtain ⟨heq, hseparator, hfirst⟩ := hsplit
  subst heq
  rw [List.mem_append, List.mem_cons, not_or, not_or] at hcomma
  have hvl : Settled vl := @Settled.right [.plain m.separator] vl hq.right
  obtain ⟨key, hkeypart, hkeytext, hkeymem⟩ := hq.left.exists_isPart hcomma.1 (hkey ▸ hkeyne)
  obtain ⟨literal, hliteralpart, hliteraltext, -⟩ :=
    hvl.exists_isPart hcomma.2.2 (hliteral ▸ hliteralne)
  refine ⟨⟨key, m.separator, literal, hkeypart, fun l hl => hfirst l (hkeymem l hl),
    hseparator, hliteralpart⟩, ?_⟩
  obtain ⟨mkey, mseparator, mliteral, mraw⟩ := m
  simp only at hkey hliteral hraw
  rw [MemberCode.member, ← hkeytext, ← hliteraltext, ← hkey, ← hliteral, ← hraw]

/-- **Members that were read can be written.** -/
theorem exists_memberCode {body : List Char} (h : members body = .ok ms)
    (hbody : Settled (code (lexemes body))) :
    ∃ mcs : List MemberCode, ms = mcs.map MemberCode.member := by
  rw [members_eq_ok_iff] at h
  have hpieces : ∀ q ∈ (pieces (lexemes body)).filter IsMemberPiece,
      Settled q ∧ .plain ',' ∉ q := by
    intro q hq
    have hmem := (List.mem_filter.mp hq).1
    exact ⟨settled_of_mem_pieces hbody hmem, (infix_of_mem_splitOn hmem).2⟩
  generalize (pieces (lexemes body)).filter IsMemberPiece = qs at h hpieces
  induction h with
  | nil => exact ⟨[], rfl⟩
  | cons hm _ ih =>
      obtain ⟨hq, hcomma⟩ := hpieces _ List.mem_cons_self
      obtain ⟨mc, rfl⟩ := hm.exists_memberCode hq hcomma
      obtain ⟨mcs, rfl⟩ := ih fun q hq => hpieces q (List.mem_cons_of_mem _ hq)
      exact ⟨mc :: mcs, rfl⟩

/-! ## Names as keys -/

/-- The ranges of the blanks. -/
def blankRanges : List (Nat × Nat) :=
  [(0x09, 0x0D), (0x20, 0x20), (0x85, 0x85), (0xA0, 0xA0), (0x1680, 0x1680), (0x2000, 0x200A),
    (0x2028, 0x2028), (0x2029, 0x2029), (0x202F, 0x202F), (0x205F, 0x205F), (0x3000, 0x3000)]

/-- The blanks are those of the ranges. -/
theorem isBlank_eq (c : Char) : Text.isBlank c = Text.inRanges blankRanges c.toNat := by
  have hsingle : ∀ k, (c.toNat == k) = (decide (k ≤ c.toNat) && decide (c.toNat ≤ k)) := by
    intro k
    rw [Bool.eq_iff_iff, Bool.and_eq_true, beq_iff_eq, decide_eq_true_eq, decide_eq_true_eq]
    omega
  simp only [Text.isBlank, Text.inRanges, blankRanges, hsingle, List.any_cons, List.any_nil,
    Bool.or_assoc, Bool.or_false]

/-- No range of word characters meets a range of blanks. -/
theorem blankRanges_apart : (Text.wordRanges.all fun r => blankRanges.all fun b =>
    Nat.blt r.2 b.1 || Nat.blt b.2 r.1) = true := by
  decide +kernel

/-- No character of a name is a blank, since the ranges do not meet. -/
theorem isBlank_of_isNameChar (h : Text.isNameChar c = true) : Text.isBlank c = false := by
  cases hblank : Text.isBlank c with
  | false => rfl
  | true =>
      rw [Text.isNameChar, Bool.or_eq_true, beq_iff_eq] at h
      rcases h with hword | rfl
      · obtain ⟨b, hb, hbc⟩ := List.any_eq_true.mp (isBlank_eq c ▸ hblank)
        obtain ⟨r, hr, hrc⟩ := List.any_eq_true.mp hword
        have hapart := List.all_eq_true.mp (List.all_eq_true.mp blankRanges_apart r hr) b hb
        simp only [Bool.or_eq_true, Bool.and_eq_true, decide_eq_true_eq,
          Nat.blt_eq] at hapart hbc hrc
        omega
      · exact absurd hblank (by decide)

/-- The characters that mean something in a body, other than blanks. -/
def marks : List Char :=
  ['\'', '"', Char.ofNat 0x60, '/', '*', ',', '=', ':']

/-- No mark is a character of a name. -/
theorem isNameChar_marks : (marks.all fun c => !Text.isNameChar c) = true := by
  decide +kernel

/-- No character of a name is a mark. -/
theorem notMem_marks (h : Text.isNameChar c = true) : c ∉ marks := by
  intro hc
  have hmark := List.all_eq_true.mp isNameChar_marks c hc
  rw [h] at hmark
  cases hmark

/-- What may begin a name may stand in it. -/
theorem isNameChar_of_isNameStart (h : Text.isNameStart c = true) : Text.isNameChar c = true := by
  have hranges : c.isAlpha = true → (0x41 ≤ c.toNat ∧ c.toNat ≤ 0x5A) ∨
      (0x61 ≤ c.toNat ∧ c.toNat ≤ 0x7A) := by
    intro halpha
    have hval : (decide (c.val ≥ 65 ∧ c.val ≤ 90) || c.val ≥ 97 && c.val ≤ 122) = true := halpha
    simpa [UInt32.le_iff_toNat_le] using hval
  have hword : ∀ a b, (a, b) ∈ Text.wordRanges → a ≤ c.toNat → c.toNat ≤ b →
      Text.isNameChar c = true := by
    intro a b hmem ha hb
    rw [Text.isNameChar, Text.isWordChar, Text.inRanges, Bool.or_eq_true, List.any_eq_true]
    exact Or.inl ⟨(a, b), hmem, by simp [ha, hb]⟩
  simp only [Text.isNameStart, Bool.or_eq_true, beq_iff_eq] at h
  rcases h with (halpha | rfl) | rfl
  · rcases hranges halpha with ⟨ha, hb⟩ | ⟨ha, hb⟩
    · exact hword 0x41 0x5A (by decide) ha hb
    · exact hword 0x61 0x7A (by decide) ha hb
  · exact hword 0x5F 0x5F (by decide) (by decide) (by decide)
  · decide +kernel

/-- The lexemes of a name that is written as a key. -/
def keyLexemes (name : List Char) : List Lexeme :=
  if Text.isName name then name.map .plain
  else [.literal ('\'' :: name.flatMap escapeQuote ++ ['\''])]

/-- The lexemes of a key make up the key. -/
theorem textOf_keyLexemes (name : List Char) : textOf (keyLexemes name) = memberKey name := by
  unfold keyLexemes memberKey
  split
  · exact textOf_map_plain name
  · simp [Lexeme.text]

/-- A name that needs no quotes holds name characters only. -/
theorem isNameChar_of_isName (h : Text.isName name = true) :
    name ≠ [] ∧ ∀ c ∈ name, Text.isNameChar c = true := by
  cases name with
  | nil => simp [Text.isName] at h
  | cons c cs =>
      rw [Text.isName, Bool.and_eq_true, List.all_eq_true] at h
      refine ⟨by simp, fun d hd => ?_⟩
      rcases List.mem_cons.mp hd with rfl | hd
      · exact isNameChar_of_isNameStart h.1
      · exact h.2 d hd

/-- A name with its quotes and backslashes escaped goes on up to the closing
quote. -/
theorem closedBy_escapeQuote (name : List Char) :
    ClosedBy '\'' (name.flatMap escapeQuote ++ ['\'']) := by
  induction name with
  | nil => exact .quote
  | cons c name ih =>
      rw [List.flatMap_cons, escapeQuote]
      split
      · exact .escape c ih
      · rename_i hc
        rw [not_or] at hc
        exact .char hc.1 hc.2 ih

/-- A name that is written as a key ends by itself, whatever follows. -/
theorem closed_of_mem_keyLexemes (hl : l ∈ keyLexemes name) : l.Closed ∧ l.isComment = false := by
  unfold keyLexemes at hl
  split at hl
  · rename_i h
    obtain ⟨c, hc, rfl⟩ := List.mem_map.mp hl
    have hmark := notMem_marks ((isNameChar_of_isName h).2 c hc)
    simp only [marks, List.mem_cons, not_or] at hmark
    exact ⟨.plain (by simp [isQuote, hmark]) hmark.2.2.2.1, rfl⟩
  · rw [List.mem_singleton] at hl
    subst hl
    exact ⟨.literal (by decide) (closedBy_escapeQuote name), rfl⟩

/-- A name that is written as a key neither begins nor ends with a blank. -/
theorem tight_memberKey (name : List Char) : Text.Tight (memberKey name) := by
  unfold memberKey
  split
  · rename_i h
    obtain ⟨hne, hchars⟩ := isNameChar_of_isName h
    exact ⟨hne, fun c hc => isBlank_of_isNameChar (hchars c (List.mem_of_head? hc)),
      fun c hc => isBlank_of_isNameChar (hchars c (List.mem_of_getLast? hc))⟩
  · have hquote : Text.isBlank '\'' = false := by decide
    refine ⟨by simp, by simp [hquote], ?_⟩
    rw [List.getLast?_concat]
    simp [hquote]

/-- **A name as a key can stand for a part of a member,** in quotes or not. -/
theorem keyLexemes_isPart (name : List Char) : IsPart (keyLexemes name) := by
  refine ⟨settled_of_closed fun l => closed_of_mem_keyLexemes,
    textOf_keyLexemes name ▸ tight_memberKey name, fun hcomma => ?_⟩
  unfold keyLexemes at hcomma
  split at hcomma
  · rename_i h
    obtain ⟨c, hc, heq⟩ := List.mem_map.mp hcomma
    cases heq
    exact notMem_marks ((isNameChar_of_isName h).2 ',' hc) (by decide)
  · simp at hcomma

/-- There is no separator among them. -/
theorem isSeparator_keyLexemes : ∀ l ∈ keyLexemes name, l.isSeparator = false := by
  unfold keyLexemes
  split
  · rename_i h
    intro l hl
    obtain ⟨c, hc, rfl⟩ := List.mem_map.mp hl
    have hmark := notMem_marks ((isNameChar_of_isName h).2 c hc)
    simp only [marks, List.mem_cons, not_or] at hmark
    simp [Lexeme.isSeparator, hmark]
  · simp [Lexeme.isSeparator]

/-- A name as a key never begins with a star. -/
theorem head?_memberKey (name : List Char) : (memberKey name).head? ≠ some '*' := by
  unfold memberKey
  split
  · rename_i h
    intro hhead
    exact notMem_marks ((isNameChar_of_isName h).2 '*' (List.mem_of_head? hhead)) (by decide)
  · simp

/-- The member under another name. -/
def MemberCode.rename (mc : MemberCode) (name : List Char) : MemberCode :=
  { mc with
    key := keyLexemes name
    key_isPart := keyLexemes_isPart name
    isSeparator_key := isSeparator_keyLexemes }

/-- Under another name the member has another key and is otherwise the same. -/
theorem MemberCode.member_rename (mc : MemberCode) (name : List Char) :
    (mc.rename name).member = { mc.member with key := memberKey name } := by
  rw [← textOf_keyLexemes]
  rfl

/-! ## Members that are written -/

/-- Blanks make no comment mark of a slash before them. -/
theorem neutral_of_blank (h : Text.allBlank t = true) : Neutral t := by
  cases t with
  | nil => exact neutral_nil
  | cons c t =>
      rw [Text.allBlank_cons, Bool.and_eq_true] at h
      rw [neutral_cons]
      constructor <;> rintro rfl <;> exact absurd h.1 (by decide)

/-- Blanks settle in front of anything settled. -/
theorem Settled.blanks_append (ht : Text.allBlank t = true) (h : Settled ls) :
    Settled (t.map .plain ++ ls) where
  isComment_eq l hl :=
    (List.mem_append.mp hl).elim ((settled_map_blank ht).isComment_eq l) (h.isComment_eq l)
  readsBack rest hrest := by
    refine readsBack_append.mpr ⟨readsBack_of_closed (fun l hl => ?_) _, h.readsBack rest hrest⟩
    obtain ⟨c, hc, rfl⟩ := List.mem_map.mp hl
    exact closed_of_isBlank (Text.isBlank_of_allBlank ht hc)

/-- Settled lexemes settle in front of blanks. -/
theorem Settled.append_blanks (h : Settled ls) (ht : Text.allBlank t = true) :
    Settled (ls ++ t.map .plain) :=
  h.append (settled_map_blank ht) (by rw [textOf_map_plain]; exact neutral_of_blank ht)

/-- A separator ends by itself. -/
theorem closed_separator (hc : c = '=' ∨ c = ':') : (Lexeme.plain c).Closed := by
  rcases hc with rfl | rfl <;> exact .plain (by decide) (by decide)

/-- The lexemes of a member with gaps around its parts. -/
def MemberCode.spaced (mc : MemberCode) (before mid gap after : List Char) : List Lexeme :=
  (before.map .plain ++ (mc.key ++ mid.map .plain)) ++
    .plain mc.separator :: (gap.map .plain ++ (mc.literal ++ after.map .plain))

section Spaced

variable {mc : MemberCode} {before mid gap after : List Char}

/-- A member with gaps around its parts is read back. -/
theorem MemberCode.settled_spaced (hbefore : Text.allBlank before = true)
    (hmid : Text.allBlank mid = true) (hgap : Text.allBlank gap = true)
    (hafter : Text.allBlank after = true) : Settled (mc.spaced before mid gap after) := by
  have hvalue : Settled (gap.map .plain ++ (mc.literal ++ after.map .plain)) :=
    (mc.literal_isPart.settled.append_blanks hafter).blanks_append hgap
  have hseparator : Settled (.plain mc.separator ::
      (gap.map .plain ++ (mc.literal ++ after.map .plain))) := by
    refine ⟨?_, fun rest hrest =>
      ⟨(closed_separator mc.separator_eq).standsBefore _, hvalue.readsBack rest hrest⟩⟩
    rintro l (_ | ⟨_, hl⟩)
    · rfl
    · exact hvalue.isComment_eq l hl
  exact ((mc.key_isPart.settled.append_blanks hmid).blanks_append hbefore).append hseparator
    (neutral_separator mc.separator_eq)

/-- A blank is no separator. -/
theorem isSeparator_of_isBlank (h : Text.isBlank c = true) :
    (Lexeme.plain c).isSeparator = false := by
  cases hs : (Lexeme.plain c).isSeparator with
  | false => rfl
  | true =>
      have hc : c = '=' ∨ c = ':' := by simpa [Lexeme.isSeparator] using hs
      exact absurd h (by simp [isBlank_separator hc])

/-- **Gaps around the parts of a member do not change it.** -/
theorem MemberCode.readsMember_spaced (hbefore : Text.allBlank before = true)
    (hmid : Text.allBlank mid = true) (hgap : Text.allBlank gap = true)
    (hafter : Text.allBlank after = true) :
    ReadsMember (mc.spaced before mid gap after) mc.member := by
  have hsplit : SplitsInto (mc.spaced before mid gap after)
      (before.map .plain ++ (mc.key ++ mid.map .plain)) mc.separator
      (gap.map .plain ++ (mc.literal ++ after.map .plain)) := by
    refine ⟨rfl, mc.separator_eq, fun l hl => ?_⟩
    have hblanks : ∀ t, Text.allBlank t = true → l ∈ t.map .plain → l.isSeparator = false := by
      intro t ht hmem
      obtain ⟨c, hc, rfl⟩ := List.mem_map.mp hmem
      exact isSeparator_of_isBlank (Text.isBlank_of_allBlank ht hc)
    rw [List.mem_append, List.mem_append] at hl
    rcases hl with hl | hl | hl
    · exact hblanks before hbefore hl
    · exact mc.isSeparator_key l hl
    · exact hblanks mid hmid hl
  have hkey : Text.trim (textOf (before.map .plain ++ (mc.key ++ mid.map .plain))) =
      textOf mc.key := by
    simpa using mc.key_isPart.tight.trim_between hbefore hmid
  have hliteral : Text.trim (textOf (gap.map .plain ++ (mc.literal ++ after.map .plain))) =
      textOf mc.literal := by
    simpa using mc.literal_isPart.tight.trim_between hgap hafter
  have hne : ¬ (textOf mc.key = [] ∨ textOf mc.literal = []) :=
    not_or.mpr ⟨mc.key_isPart.tight.ne_nil, mc.literal_isPart.tight.ne_nil⟩
  rw [ReadsMember, ofText_of_splitsInto hsplit (settled_spaced hbefore hmid hgap hafter), hkey,
    hliteral, if_neg hne]
  rfl

/-- There is no comma in it. -/
theorem MemberCode.comma_notMem_spaced (hbefore : Text.allBlank before = true)
    (hmid : Text.allBlank mid = true) (hgap : Text.allBlank gap = true)
    (hafter : Text.allBlank after = true) : .plain ',' ∉ mc.spaced before mid gap after := by
  have hblanks : ∀ t, Text.allBlank t = true → ',' ∉ t := fun t ht hmem =>
    absurd (Text.isBlank_of_allBlank ht hmem) (by decide)
  have hseparator : ',' ≠ mc.separator := by
    rcases mc.separator_eq with h | h <;> rw [h] <;> decide
  simp [spaced, hblanks before hbefore, hblanks mid hmid, hblanks gap hgap, hblanks after hafter,
    hseparator, mc.key_isPart.comma_notMem, mc.literal_isPart.comma_notMem]

end Spaced

end ClientRegen.EnumSource
