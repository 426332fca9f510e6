import ClientRegen.EnumSource.Member
import ClientRegen.Proofs.EnumSource.Reading
import ClientRegen.Proofs.Outcomes
import ClientRegen.Proofs.Text.Replacing
import ClientRegen.Proofs.Text.Trim

/-!
# The members of a body

The code of a body falls at its commas into pieces, and each piece that is not
blank is a member: a key up to the first separator that is a lexeme of its own,
and a literal behind it (`ofText_of_splitsInto`).  The key and the literal of a
member are settled again (`exists_splitsInto`), which is what lets them be
written into another body.

Reading the value of a literal keeps its closing braces, all of them
(`count_brace_rawOf`).  A body that is cut off before a closing brace, or goes
on behind one, therefore has other values: this is `raws_ne_of_brace`, the
reason why a body whose values are right also ends where it should.
-/

namespace ClientRegen.EnumSource

variable {ls kl vl : List Lexeme} {q more : List Lexeme} {l : Lexeme} {s c : Char}
  {t rest : List Char} {m m' : Member} {ms ms' : List Member}

/-! ## Pieces between separators -/

/-- What stands between two occurrences of an item is part of the list and does
not hold the item. -/
theorem infix_of_mem_splitOn {α : Type} [BEq α] [LawfulBEq α] {a : α} {xs ys : List α}
    (h : ys ∈ xs.splitOn a) : ys <:+: xs ∧ a ∉ ys := by
  suffices hsplit : ∀ first others, xs.splitOn a = first :: others →
      (first <+: xs ∧ a ∉ first) ∧ ∀ zs ∈ others, zs <:+: xs ∧ a ∉ zs by
    obtain ⟨first, others, hxs⟩ := List.exists_cons_of_ne_nil (List.splitOn_ne_nil a xs)
    obtain ⟨hfirst, hothers⟩ := hsplit first others hxs
    rw [hxs, List.mem_cons] at h
    rcases h with rfl | h
    · exact ⟨hfirst.1.isInfix, hfirst.2⟩
    · exact hothers ys h
  clear h
  induction xs with
  | nil => simp
  | cons x xs ih =>
      intro first others h
      obtain ⟨first', others', hxs⟩ := List.exists_cons_of_ne_nil (List.splitOn_ne_nil a xs)
      obtain ⟨hfirst, hothers⟩ := ih first' others' hxs
      rw [List.splitOn_cons_eq_if_modifyHead, hxs] at h
      have hlater : ∀ zs ∈ others', zs <:+: x :: xs ∧ a ∉ zs := fun zs hzs =>
        ⟨(hothers zs hzs).1.trans (List.suffix_cons x xs).isInfix, (hothers zs hzs).2⟩
      by_cases hx : x == a
      · rw [if_pos hx] at h
        obtain ⟨rfl, rfl⟩ := List.cons.inj h
        refine ⟨⟨List.nil_prefix, by simp⟩, ?_⟩
        intro zs hzs
        rcases List.mem_cons.mp hzs with rfl | hzs
        · exact ⟨(hfirst.1.isInfix).trans (List.suffix_cons x xs).isInfix, hfirst.2⟩
        · exact hlater zs hzs
      · rw [if_neg hx] at h
        obtain ⟨rfl, rfl⟩ := List.cons.inj h
        refine ⟨⟨List.prefix_cons_inj x |>.mpr hfirst.1, ?_⟩, hlater⟩
        rw [List.mem_cons, not_or]
        exact ⟨fun heq => hx (by simp [heq]), hfirst.2⟩

/-- What follows a list changes its last piece and adds others behind it. -/
theorem exists_splitOn_append {α : Type} [BEq α] [LawfulBEq α] (a : α) (xs : List α) :
    ∃ pieces last, xs.splitOn a = pieces ++ [last] ∧ ∀ ys first others,
      ys.splitOn a = first :: others →
        (xs ++ ys).splitOn a = pieces ++ (last ++ first) :: others := by
  induction xs with
  | nil => exact ⟨[], [], rfl, fun ys first others h => h⟩
  | cons x xs ih =>
      obtain ⟨pieces, last, hxs, happend⟩ := ih
      by_cases hx : x == a
      · refine ⟨[] :: pieces, last, by simp [List.splitOn_cons_eq_if_modifyHead, hx, hxs], ?_⟩
        intro ys first others h
        simp [List.splitOn_cons_eq_if_modifyHead, hx, happend ys first others h]
      · cases pieces with
        | nil =>
            refine ⟨[], x :: last, by simp [List.splitOn_cons_eq_if_modifyHead, hx, hxs], ?_⟩
            intro ys first others h
            simp [List.splitOn_cons_eq_if_modifyHead, hx, happend ys first others h]
        | cons p pieces =>
            refine ⟨(x :: p) :: pieces, last,
              by simp [List.splitOn_cons_eq_if_modifyHead, hx, hxs], ?_⟩
            intro ys first others h
            simp [List.splitOn_cons_eq_if_modifyHead, hx, happend ys first others h]

/-- A list up to the first item of a kind, if it has one. -/
theorem exists_first {α : Type} (p : α → Bool) (xs : List α) :
    (∀ x ∈ xs, p x = false) ∨
      ∃ before x after, xs = before ++ x :: after ∧ p x = true ∧ ∀ y ∈ before, p y = false := by
  cases h : xs.find? p with
  | none => exact Or.inl (by simpa using h)
  | some x =>
      obtain ⟨hx, before, after, rfl, hbefore⟩ := List.find?_eq_some_iff_append.mp h
      exact Or.inr ⟨before, x, after, rfl, hx, by simpa using hbefore⟩

/-- The code of lexemes between its commas. -/
def pieces (ls : List Lexeme) : List (List Lexeme) :=
  (code ls).splitOn (.plain ',')

theorem pieces_comment (t : List Char) (ls : List Lexeme) :
    pieces (.comment t :: ls) = pieces ls := rfl

/-- A comma begins a new piece. -/
theorem pieces_comma (ls : List Lexeme) : pieces (.plain ',' :: ls) = [] :: pieces ls := by
  simp [pieces, code, Lexeme.isComment, List.splitOn_cons_eq_if_modifyHead]

/-- Any other lexeme that is no comment belongs to the first piece. -/
theorem pieces_cons (hcode : l.isComment = false) (hcomma : l ≠ .plain ',')
    (ls : List Lexeme) : pieces (l :: ls) = (pieces ls).modifyHead (l :: ·) := by
  simp [pieces, code, hcode, List.splitOn_cons_eq_if_modifyHead, hcomma]

theorem exists_pieces_cons (ls : List Lexeme) : ∃ p ps, pieces ls = p :: ps :=
  List.exists_cons_of_ne_nil (List.splitOn_ne_nil _ _)

/-- The texts between commas are those of the pieces. -/
theorem memberTexts_eq (ls : List Lexeme) : memberTexts ls = (pieces ls).map textOf := by
  induction ls with
  | nil => rfl
  | cons l ls ih =>
      obtain ⟨p, ps, hp⟩ := exists_pieces_cons ls
      rw [memberTexts.eq_def]
      dsimp only
      rw [ih]
      cases l with
      | comment t => rw [pieces_comment]
      | literal t => simp [pieces_cons (l := .literal t) rfl (by simp), hp]
      | plain c =>
          by_cases hc : c = ','
          · subst hc
            rw [pieces_comma]
            rfl
          · rw [pieces_cons (l := .plain c) rfl (by simpa using hc), hp]
            simp [hc]

/-- A piece that holds something other than blanks. -/
def IsMemberPiece (q : List Lexeme) : Prop :=
  Text.trim (textOf q) ≠ []

instance : DecidablePred IsMemberPiece := fun q =>
  inferInstanceAs (Decidable (Text.trim (textOf q) ≠ []))

/-- A member is what its piece says when it is trimmed. -/
def ReadsMember (q : List Lexeme) (m : Member) : Prop :=
  Member.ofText (Text.trim (textOf q)) = .ok m

/-- **Members are the pieces that are not blank,** read one by one. -/
theorem members_eq_ok_iff {body : List Char} :
    members body = .ok ms ↔
      List.Forall₂ ReadsMember ((pieces (lexemes body)).filter IsMemberPiece) ms := by
  rw [members, mapM_eq_ok_iff, memberTexts_eq, List.map_map, List.filter_map,
    List.forall₂_map_left_iff]
  rfl

/-- The pieces of settled code are settled. -/
theorem settled_of_mem_pieces (h : Settled (code ls)) (hq : q ∈ pieces ls) : Settled q := by
  obtain ⟨before, after, hcode⟩ := (infix_of_mem_splitOn hq).1
  rw [← hcode] at h
  exact h.left.right

/-! ## Blanks around code -/

/-- A blank ends by itself. -/
theorem closed_of_isBlank (h : Text.isBlank c = true) : (Lexeme.plain c).Closed := by
  refine .plain ?_ ?_
  · cases hquote : isQuote c with
    | false => rfl
    | true =>
        have hcases : c = '\'' ∨ c = '"' ∨ c = Char.ofNat 0x60 := by
          simpa [isQuote, or_assoc] using hquote
        rcases hcases with rfl | rfl | rfl <;> exact absurd h (by decide)
  · rintro rfl
    exact absurd h (by decide)

/-- Blanks are settled. -/
theorem settled_map_blank (h : Text.allBlank t = true) :
    Settled (t.map .plain) := by
  refine settled_of_closed fun l hl => ?_
  obtain ⟨c, hc, rfl⟩ := List.mem_map.mp hl
  exact ⟨closed_of_isBlank (Text.isBlank_of_allBlank h hc), rfl⟩

/-- A settled lexeme is a closed literal or a character that is no quote. -/
theorem Settled.cases (h : Settled ls) (hl : l ∈ ls) :
    (∃ quote t, l = .literal (quote :: t) ∧ isQuote quote = true ∧ ClosedBy quote t) ∨
      ∃ c, l = .plain c ∧ isQuote c = false := by
  obtain ⟨before, after, rfl⟩ := List.append_of_mem hl
  have hstands := (h.right.readsBack ['}'] (by simp [neutral_cons])).1
  rcases standsBefore_cases hstands (by simp) with hclosed | ⟨rfl, -⟩ | ⟨t, rfl, -, -⟩
  · cases hclosed with
    | literal hquote hclosed => exact Or.inl ⟨_, _, rfl, hquote, hclosed⟩
    | block => exact absurd (h.isComment_eq _ hl) (by simp [Lexeme.isComment])
    | plain hquote hslash => exact Or.inr ⟨_, rfl, hquote⟩
  · exact Or.inr ⟨'/', rfl, by decide⟩
  · exact absurd (h.isComment_eq _ hl) (by simp [Lexeme.isComment])

/-- A quote is no blank. -/
theorem isBlank_of_isQuote (h : isQuote c = true) : Text.isBlank c = false := by
  cases hblank : Text.isBlank c with
  | false => rfl
  | true =>
      cases closed_of_isBlank hblank with
      | plain hquote => exact absurd h (by simp [hquote])

/-- Blanks are trimmed off the start of settled lexemes as whole lexemes. -/
theorem Settled.trimStart_textOf (h : Settled ls) :
    ∃ blanks kept, ls = blanks ++ kept ∧ Text.allBlank (textOf blanks) = true ∧
      Text.trimStart (textOf ls) = textOf kept := by
  induction ls with
  | nil => exact ⟨[], [], rfl, rfl, rfl⟩
  | cons l ls ih =>
      rcases h.cases List.mem_cons_self with ⟨quote, t, rfl, hquote, -⟩ | ⟨c, rfl, -⟩
      · exact ⟨[], _, rfl, rfl, Text.trimStart_cons_of_not_blank (isBlank_of_isQuote hquote)⟩
      · cases hc : Text.isBlank c with
        | false => exact ⟨[], _, rfl, rfl, Text.trimStart_cons_of_not_blank hc⟩
        | true =>
            obtain ⟨blanks, kept, rfl, hblanks, htrim⟩ := ih (@Settled.right [.plain c] ls h)
            refine ⟨.plain c :: blanks, kept, rfl, by simpa [Lexeme.text, hc] using hblanks, ?_⟩
            rw [← htrim, textOf_cons]
            exact Text.trimStart_append_of_blank (by simp [Lexeme.text, hc])

/-- Blanks are trimmed off the end of settled lexemes as whole lexemes. -/
theorem Settled.trimEnd_textOf (h : Settled ls) :
    ∃ kept blanks, ls = kept ++ blanks ∧ Text.allBlank (textOf blanks) = true ∧
      Text.trimEnd (textOf ls) = textOf kept := by
  induction ls using List.reverseRecOn with
  | nil => exact ⟨[], [], rfl, rfl, rfl⟩
  | append_singleton ls l ih =>
      have hkeep : ∀ init c, Text.isBlank c = false → textOf (ls ++ [l]) = init ++ [c] →
          Text.trimEnd (textOf (ls ++ [l])) = textOf (ls ++ [l]) := by
        intro init c hc htext
        rw [htext, Text.trimEnd_append_cons hc]
        rfl
      rcases h.cases (l := l) (by simp) with ⟨quote, t, rfl, hquote, hclosed⟩ | ⟨c, rfl, -⟩
      · obtain ⟨init, rfl⟩ := hclosed.exists_concat
        exact ⟨_, [], (List.append_nil _).symm, rfl,
          hkeep (textOf ls ++ quote :: init) quote (isBlank_of_isQuote hquote)
            (by simp [Lexeme.text])⟩
      · cases hc : Text.isBlank c with
        | false =>
            exact ⟨_, [], (List.append_nil _).symm, rfl,
              hkeep (textOf ls) c hc (by simp [Lexeme.text])⟩
        | true =>
            obtain ⟨kept, blanks, rfl, hblanks, htrim⟩ := ih h.left
            refine ⟨kept, blanks ++ [.plain c], by simp, ?_, ?_⟩
            · simp [Lexeme.text, hblanks, hc]
            · rw [textOf_append, Text.trimEnd_append_of_blank (by simp [Lexeme.text, hc]), htrim]

/-- What trimming leaves of settled lexemes is settled. -/
theorem Settled.trim_textOf (h : Settled ls) :
    ∃ before kept after, ls = before ++ kept ++ after ∧ Settled kept ∧
      Text.allBlank (textOf before) = true ∧ Text.allBlank (textOf after) = true ∧
      Text.trim (textOf ls) = textOf kept := by
  obtain ⟨before, later, rfl, hbefore, hstart⟩ := h.trimStart_textOf
  obtain ⟨kept, after, rfl, hafter, hend⟩ := h.right.trimEnd_textOf
  exact ⟨before, kept, after, by simp, h.right.left, hbefore, hafter,
    by rw [Text.trim, hstart, hend]⟩

/-! ## The separator of a member -/

/-- Whether a lexeme parts the key of a member from its literal. -/
def Lexeme.isSeparator : Lexeme → Bool
  | plain c => c == '=' || c == ':'
  | _ => false

/-- A piece that falls at its first separator into a key and a literal. -/
structure SplitsInto (q kl : List Lexeme) (s : Char) (vl : List Lexeme) : Prop where
  /-- The parts make up the piece. -/
  eq_append : q = kl ++ .plain s :: vl
  /-- A separator parts them. -/
  separator : s = '=' ∨ s = ':'
  /-- It is the first one. -/
  isSeparator_eq : ∀ l ∈ kl, l.isSeparator = false

/-- A piece falls at its first separator, or has none. -/
theorem splits_or_no_separator (q : List Lexeme) :
    (∃ kl s vl, SplitsInto q kl s vl) ∨ ∀ l ∈ q, l.isSeparator = false := by
  rcases exists_first Lexeme.isSeparator q with hnone | ⟨kl, l, vl, rfl, hl, hkl⟩
  · exact Or.inr hnone
  · cases l with
    | plain s => exact Or.inl ⟨kl, s, vl, rfl, by simpa [Lexeme.isSeparator] using hl, hkl⟩
    | literal | comment => simp [Lexeme.isSeparator] at hl

/-- No separator is found in code that has none. -/
theorem splitSeparator?_textOf_append (hcode : ∀ l ∈ ls, l.isComment = false)
    (hseparator : ∀ l ∈ ls, l.isSeparator = false) (h : ReadsBack ls rest) :
    splitSeparator? (textOf ls ++ rest) =
      (splitSeparator? rest).map fun r => (textOf ls ++ r.1, r.2) := by
  induction ls with
  | nil => simp
  | cons l ls ih =>
      have hrest := ih (fun l hl => hcode l (List.mem_cons_of_mem _ hl))
        (fun l hl => hseparator l (List.mem_cons_of_mem _ hl)) h.2
      obtain ⟨c, t, htext, hnext⟩ := h.1
      have hl := hcode l List.mem_cons_self
      have hs := hseparator l List.mem_cons_self
      rw [textOf_cons, htext, List.append_assoc, List.cons_append, splitSeparator?]
      cases l with
      | comment => simp [Lexeme.isComment] at hl
      | literal text =>
          obtain rfl : text = c :: t := htext
          unfold next at hnext
          by_cases hquote : isQuote c
          · rw [if_pos hquote, Prod.mk.injEq, Lexeme.literal.injEq, List.cons.injEq] at hnext
            obtain ⟨⟨-, hbody⟩, hafter⟩ := hnext
            rw [if_pos hquote, hbody, hafter, hrest, Option.map_map]
            simp [Function.comp_def]
          · rw [if_neg hquote] at hnext
            split at hnext
            · split at hnext <;> simp at hnext
            · simp at hnext
      | plain d =>
          obtain ⟨rfl, rfl⟩ : d = c ∧ [] = t := by simpa [Lexeme.text] using htext
          have hquote : isQuote d = false := by
            cases hquote : isQuote d with
            | false => rfl
            | true => simp [next, hquote] at hnext
          have hne : ¬ (d = '=' ∨ d = ':') := by simpa [Lexeme.isSeparator] using hs
          rw [if_neg (by simp [hquote]), if_neg hne, List.nil_append, hrest, Option.map_map]
          simp [Function.comp_def]

theorem splitSeparator?_cons (hs : s = '=' ∨ s = ':') :
    splitSeparator? (s :: t) = some ([], s, t) := by
  have hquote : isQuote s = false := by rcases hs with rfl | rfl <;> decide
  rw [splitSeparator?, if_neg (by simp [hquote]), if_pos hs]

/-- A separator is no blank. -/
theorem isBlank_separator (hs : s = '=' ∨ s = ':') : Text.isBlank s = false := by
  rcases hs with rfl | rfl <;> decide

/-- A separator makes no comment mark of a slash before it. -/
theorem neutral_separator (hs : s = '=' ∨ s = ':') : Neutral (s :: t) := by
  rcases hs with rfl | rfl <;> simp [neutral_cons]

/-- **A piece with a separator is a member** unless one of its parts is
blank. -/
theorem ofText_of_splitsInto (h : SplitsInto q kl s vl) (hq : Settled q) :
    Member.ofText (Text.trim (textOf q)) =
      if Text.trim (textOf kl) = [] ∨ Text.trim (textOf vl) = [] then
        .error (.malformedMember (String.ofList (Text.trim (textOf q))))
      else
        .ok ⟨Text.trim (textOf kl), s, Text.trim (textOf vl),
          rawOf (Text.trim (textOf vl))⟩ := by
  have hkl : Settled kl := @Settled.left kl (.plain s :: vl) (h.eq_append ▸ hq)
  obtain ⟨blanks, kept, hsplit, hblanks, hstart⟩ := hkl.trimStart_textOf
  obtain ⟨after, hafter, hend⟩ := Text.exists_append_trimEnd (textOf vl)
  have hkept : Settled kept := Settled.right (hsplit ▸ hkl)
  have htext : Text.trim (textOf q) = textOf kept ++ s :: Text.trimEnd (textOf vl) := by
    rw [h.eq_append, textOf_append, textOf_cons, ← hstart]
    exact Text.trim_append_cons (isBlank_separator h.separator)
  have hsep : splitSeparator? (Text.trim (textOf q)) =
      some (textOf kept, s, Text.trimEnd (textOf vl)) := by
    rw [htext, splitSeparator?_textOf_append hkept.isComment_eq
      (fun l hl => h.isSeparator_eq l (hsplit ▸ List.mem_append_right _ hl))
      (hkept.readsBack _ (neutral_separator h.separator)), splitSeparator?_cons h.separator]
    simp
  have hkey : Text.trim (textOf kept) = Text.trim (textOf kl) := by
    rw [hsplit, textOf_append, Text.trim_append_left hblanks]
  have hliteral : Text.trim (Text.trimEnd (textOf vl)) = Text.trim (textOf vl) := by
    rw [← Text.trim_append_right hafter, ← hend]
  rw [Member.ofText, hsep]
  simp only [hkey, hliteral]

/-- A piece without a separator is no member. -/
theorem ofText_of_no_separator (h : ∀ l ∈ q, l.isSeparator = false) (hq : Settled q) :
    Member.ofText (Text.trim (textOf q)) =
      .error (.noValue (String.ofList (Text.trim (textOf q)))) := by
  obtain ⟨before, kept, after, rfl, hkept, -, -, htrim⟩ := hq.trim_textOf
  have hnone : splitSeparator? (textOf kept) = none := by
    have happend := splitSeparator?_textOf_append hkept.isComment_eq
      (fun l hl => h l (by simp [hl])) (hkept.readsBack [] neutral_nil)
    simpa [splitSeparator?] using happend
  rw [Member.ofText, htrim, hnone]

/-- What a member reads as falls into its key and its literal. -/
theorem ReadsMember.exists_splitsInto (h : ReadsMember q m) (hq : Settled q) :
    ∃ kl vl, SplitsInto q kl m.separator vl ∧ m.key = Text.trim (textOf kl) ∧
      m.literal = Text.trim (textOf vl) ∧ m.key ≠ [] ∧ m.literal ≠ [] ∧
      m.raw = rawOf m.literal := by
  rcases splits_or_no_separator q with ⟨kl, s, vl, hsplit⟩ | hnone
  · rw [ReadsMember, ofText_of_splitsInto hsplit hq] at h
    split at h
    · simp at h
    · rename_i hne
      cases h
      rw [not_or] at hne
      exact ⟨kl, vl, hsplit, rfl, rfl, hne.1, hne.2, rfl⟩
  · rw [ReadsMember, ofText_of_no_separator hnone hq] at h
    simp at h

/-! ## Closing braces in values -/

/-- There is no brace among blanks. -/
theorem count_brace_of_blank (h : Text.allBlank t = true) : t.count '\x7d' = 0 := by
  refine List.count_eq_zero.mpr fun hmem => ?_
  exact absurd (Text.isBlank_of_allBlank h hmem) (by decide)

/-- Trimming the start takes no brace away. -/
theorem count_brace_trimStart (t : List Char) :
    (Text.trimStart t).count '\x7d' = t.count '\x7d' := by
  obtain ⟨a, ha, ht⟩ := Text.exists_append_trimStart t
  have hcount := congrArg (List.count '\x7d') ht
  rw [List.count_append, count_brace_of_blank ha, Nat.zero_add] at hcount
  exact hcount.symm

/-- Nor does trimming both ends. -/
theorem count_brace_trim (t : List Char) : (Text.trim t).count '\x7d' = t.count '\x7d' := by
  obtain ⟨a, b, ha, hb, ht⟩ := Text.exists_append_trim t
  have hcount := congrArg (List.count '\x7d') ht
  rw [List.count_append, List.count_append, count_brace_of_blank ha, count_brace_of_blank hb,
    Nat.zero_add, Nat.add_zero] at hcount
  exact hcount.symm

/-- A cast holds no brace. -/
theorem count_brace_skipCast (t : List Char) : (skipCast t).count '\x7d' = t.count '\x7d' := by
  unfold skipCast
  split
  · rename_i rest
    split
    · rename_i after hany
      split
      · rename_i value hclose
        have hafter := count_brace_trimStart after
        have hrest := count_brace_trimStart rest
        rw [hclose] at hafter
        rw [Text.dropStart?_eq_some_iff.mp hany] at hrest
        rw [count_brace_trimStart]
        simp_all
      · rfl
    · rfl
  · rfl

/-- No escape stands for a brace other than the brace itself. -/
theorem count_brace_unescape (t : List Char) : (unescape t).count '\x7d' = t.count '\x7d' := by
  fun_induction unescape t with
  | case1 => rfl
  | case2 => rfl
  | case3 c t ih =>
      by_cases hn : c = 'n'
      · simp [hn, ih]
      · by_cases ht : c = 't'
        · simp [ht, ih]
        · simp [hn, ht, List.count_cons, ih]
  | case4 c t _ _ ih => simp [List.count_cons, ih]

/-- **The value of a literal has all the closing braces of the literal.** -/
theorem count_brace_rawOf (t : List Char) : (rawOf t).count '\x7d' = t.count '\x7d' := by
  have hvalue : (Text.trim (skipCast t)).count '\x7d' = t.count '\x7d' := by
    rw [count_brace_trim, count_brace_skipCast]
  unfold rawOf
  dsimp only
  split
  · rename_i quote c cs heq
    rw [heq] at hvalue
    split
    · rename_i hquoted
      have hquote : quote ≠ '\x7d' := by
        rintro rfl
        exact absurd hquoted.1 (by decide)
      have hlast : c :: cs = (c :: cs).dropLast ++ [quote] := by
        rw [List.dropLast_append_getLast? _ hquoted.2]
      rw [count_brace_unescape, ← hvalue]
      conv_rhs => rw [hlast]
      simp [hquote]
    · rwa [heq]
  · exact hvalue

/-- A member that goes on behind a closing brace has another value. -/
theorem raw_ne_of_brace (h : ReadsMember q m) (hq : Settled q)
    (h' : ReadsMember (q ++ .plain '\x7d' :: more) m')
    (hq' : Settled (q ++ .plain '\x7d' :: more)) :
    m.raw ≠ m'.raw := by
  obtain ⟨kl, vl, hsplit, -, hliteral, -, -, hraw⟩ := h.exists_splitsInto hq
  have hsplit' : SplitsInto (q ++ .plain '\x7d' :: more) kl m.separator
      (vl ++ .plain '\x7d' :: more) :=
    ⟨by simp [hsplit.eq_append], hsplit.separator, hsplit.isSeparator_eq⟩
  rw [ReadsMember, ofText_of_splitsInto hsplit' hq'] at h'
  split at h'
  · simp at h'
  · cases h'
    intro heq
    have hcount := congrArg (List.count '\x7d') heq
    rw [hraw, hliteral, count_brace_rawOf, count_brace_rawOf, count_brace_trim, count_brace_trim,
      textOf_append, textOf_cons] at hcount
    simp only [Lexeme.text, List.count_append, List.count_cons_self, List.count_nil] at hcount
    omega

theorem ReadsMember.unique (h : ReadsMember q m) (h' : ReadsMember q m') : m = m' :=
  Except.ok.inj (h.symm.trans h')

/-- So pieces say one list of members only. -/
theorem readsMember_unique {qs : List (List Lexeme)} (h : List.Forall₂ ReadsMember qs ms)
    (h' : List.Forall₂ ReadsMember qs ms') : ms = ms' := by
  induction h generalizing ms' with
  | nil => cases h'; rfl
  | cons hm _ ih =>
      cases h' with
      | cons hm' htail => rw [hm.unique hm', ih htail]

/-- **A closing brace more gives other values.**  The members of a body that
goes on behind a closing brace do not have the values of the members before the
brace: the last of these goes on with the brace in its value, or there is a
member more. -/
theorem raws_ne_of_brace
    (hls : Settled (code ls)) (hmore : Settled (code (ls ++ .plain '\x7d' :: more)))
    (h : List.Forall₂ ReadsMember ((pieces ls).filter IsMemberPiece) ms)
    (h' : List.Forall₂ ReadsMember
      ((pieces (ls ++ .plain '\x7d' :: more)).filter IsMemberPiece) ms') :
    ms.map (·.raw) ≠ ms'.map (·.raw) := by
  obtain ⟨init, last, hpieces, happend⟩ := exists_splitOn_append (.plain ',') (code ls)
  obtain ⟨first, others, hothers⟩ := exists_pieces_cons more
  have hbrace : pieces (.plain '\x7d' :: more) = (.plain '\x7d' :: first) :: others := by
    rw [pieces_cons rfl (by decide), hothers, List.modifyHead_cons]
  have hpieces' : pieces (ls ++ .plain '\x7d' :: more) =
      init ++ (last ++ .plain '\x7d' :: first) :: others := by
    rw [pieces, code_append]
    exact happend _ _ _ hbrace
  have hlast : Settled last :=
    (settled_of_mem_pieces hls (show last ∈ pieces ls by simp [pieces, hpieces]))
  have hlast' : Settled (last ++ .plain '\x7d' :: first) :=
    settled_of_mem_pieces hmore (by simp [hpieces'])
  have hmember : IsMemberPiece (last ++ .plain '\x7d' :: first) := by
    rw [IsMemberPiece, ne_eq, Text.trim_eq_nil_iff, textOf_append]
    simp [Lexeme.text, show Text.isBlank '\x7d' = false by decide]
  rw [show pieces ls = init ++ [last] from hpieces, List.filter_append] at h
  rw [hpieces', List.filter_append, List.filter_cons_of_pos (by simpa using hmember)] at h'
  obtain ⟨ns, end_, rfl, hns, hend⟩ := forall₂_append_left h
  obtain ⟨ns', end', rfl, hns', hend'⟩ := forall₂_append_left h'
  cases readsMember_unique hns hns'
  cases hend' with
  | cons hm' _ =>
      rw [List.map_append, List.map_append, ne_eq, List.append_cancel_left_eq, List.map_cons]
      by_cases hblank : IsMemberPiece last
      · rw [List.filter_cons_of_pos (by simpa using hblank)] at hend
        cases hend with
        | cons hm _ =>
            intro heq
            exact raw_ne_of_brace hm hlast hm' hlast' (List.cons.inj heq).1
      · rw [List.filter_cons_of_neg (by simpa using hblank)] at hend
        cases hend
        simp

end ClientRegen.EnumSource
