import ClientRegen.Proofs.EnumSource.Declaration
import ClientRegen.Proofs.EnumSource.Rendering

/-!
# The layout of a written body

How the members of a body are indented, whether a comma follows the last one
and what stands before the closing brace is guessed from the body.  The guesses
come out the same for a written body as for the body it was written for:
`memberIndent_bodyLexemes`, `hasTrailingComma_bodyLexemes` and
`closingIndent_bodyLexemes`.

The first of them needs a key that does not begin with a star, because a line
that does is taken for one of a comment.  The second needs that the blanks
before the closing brace say nothing, which they do in the old body
(`isPlainBlank_of_mem_closingIndent`).
-/

namespace ClientRegen.EnumSource

variable {indent closing body head t b pre rest : List Char} {trailing : Bool} {c : Char}
  {l : Lexeme} {ls ls' : List Lexeme} {row : Row} {rows : List Row} {d : Declaration}
  {source : List Char}

/-! ## The indentation of members -/

/-- An indentation is blanks on one line. -/
theorem memberIndent_spec (body : List Char) :
    Text.allBlank (memberIndent body) = true ∧ '\n' ∉ memberIndent body := by
  unfold memberIndent
  split
  · rename_i line hline
    have hmem := List.mem_of_find?_eq_some hline
    exact ⟨List.all_takeWhile, fun h =>
      Text.newline_notMem_line hmem ((List.takeWhile_prefix _).subset h)⟩
  · decide

/-- What is no mark of a comment begins a line of a member. -/
theorem isMemberLine_cons (hstar : c ≠ '*') (hslash : c = '/' → Neutral t) :
    isMemberLine (c :: t) = true := by
  unfold isMemberLine
  split
  · contradiction
  · rename_i heq
    exact absurd (List.cons.inj heq).1 hstar
  · rename_i heq
    obtain ⟨rfl, rfl⟩ := List.cons.inj heq
    exact absurd rfl (hslash rfl).2
  · rename_i heq
    obtain ⟨rfl, rfl⟩ := List.cons.inj heq
    exact absurd rfl (hslash rfl).1
  · rfl

/-- The beginning of a text that makes no comment mark makes none. -/
theorem Neutral.of_start (h : Neutral t) (hb : b <+: t) : Neutral b := by
  obtain ⟨u, rfl⟩ := hb
  cases b with
  | nil => exact neutral_nil
  | cons c b => exact h

/-- A slash that is a lexeme of its own makes no comment mark. -/
theorem neutral_of_standsBefore (h : (Lexeme.plain '/').StandsBefore rest) : Neutral rest := by
  by_cases hne : rest = []
  · exact hne ▸ neutral_nil
  · rcases standsBefore_cases h hne with hclosed | ⟨-, hneutral⟩ | ⟨t, heq, -⟩
    · cases hclosed with
      | plain hquote hslash => exact absurd rfl hslash
    · exact hneutral
    · simp at heq

/-- Settled lexemes do not begin with a comment mark. -/
theorem Settled.isMemberLine (h : Settled ls) (htext : textOf ls = c :: t) (hstar : c ≠ '*')
    (hrest : Neutral rest) (hb : b <+: t ++ rest) : isMemberLine (c :: b) = true := by
  refine isMemberLine_cons hstar fun hslash => ?_
  subst hslash
  cases ls with
  | nil => simp at htext
  | cons l ls =>
      rcases h.cases List.mem_cons_self with ⟨quote, u, rfl, hquote, -⟩ | ⟨d, rfl, -⟩
      · obtain ⟨rfl, -⟩ := List.cons.inj htext
        exact absurd hquote (by decide)
      · obtain ⟨rfl, rfl⟩ := List.cons.inj htext
        exact (neutral_of_standsBefore (h.readsBack rest hrest).1).of_start hb

/-- The first row of a body is a comment, and a line that begins with the key. -/
theorem textOf_bodyLexemes_cons (indent closing : List Char) (trailing : Bool) (row : Row)
    (rows : List Row) : ∃ rest, Neutral rest ∧
      textOf (bodyLexemes indent closing trailing (row :: rows)) =
        [] ++ '\n' :: (labelComment row.entry.label.toList indent ++
          (indent ++ (textOf row.code.key ++ rest))) := by
  have hline : ∀ after ls, ∃ rest, Neutral rest ∧
      textOf (row.opening indent ++ (row.line indent after ++ ls)) =
        [] ++ '\n' :: (labelComment row.entry.label.toList indent ++
          (indent ++ (textOf row.code.key ++ rest))) := by
    intro after ls
    refine ⟨row.mid ++ row.code.separator :: ' ' ::
      (textOf row.code.literal ++ (after ++ textOf ls)), ?_, ?_⟩
    · have hmid : Neutral row.mid := by
        unfold Row.mid
        split <;> simp [Neutral]
      exact hmid.append (neutral_separator row.code.separator_eq)
    · simp [labelComment_eq, Row.opening, Row.line, MemberCode.spaced, Lexeme.text]
  rw [bodyLexemes]
  split
  · simpa using hline ('\n' :: closing) []
  · exact hline [] _

/-- A line that begins with a star is one of a comment. -/
theorem isMemberLine_of_star (hindent : Text.allBlank indent = true) (t : List Char) :
    isMemberLine (Text.trimStart (indent ++ ' ' :: '*' :: t)) = false := by
  have hassoc : indent ++ ' ' :: '*' :: t = (indent ++ [' ']) ++ '*' :: t := by simp
  rw [hassoc, Text.trimStart_append_cons (by simp [hindent]; decide) (by decide)]
  rfl

/-- So is every line of a label. -/
theorem isMemberLine_marginLine (hindent : Text.allBlank indent = true) (line : List Char) :
    isMemberLine (Text.trimStart (marginLine indent line)) = false := by
  unfold marginLine
  split
  · exact isMemberLine_of_star hindent []
  · have hassoc : indent ++ [' ', '*', ' '] ++ Text.trimEnd line =
        indent ++ ' ' :: '*' :: ' ' :: Text.trimEnd line := by simp
    rw [hassoc, isMemberLine_of_star hindent]

/-- **Written members are indented as they were meant to be,** unless the first
key begins with a star. -/
theorem memberIndent_bodyLexemes (hindent : Text.allBlank indent = true) (hline : '\n' ∉ indent)
    (hstar : row.code.member.key.head? ≠ some '*') :
    memberIndent (textOf (bodyLexemes indent closing trailing (row :: rows))) = indent := by
  obtain ⟨rest, hrest, htext⟩ := textOf_bodyLexemes_cons indent closing trailing row rows
  obtain ⟨c, key, hkey⟩ := List.exists_cons_of_ne_nil row.code.key_isPart.tight.ne_nil
  have hstar : c ≠ '*' := by
    rintro rfl
    exact hstar (by rw [MemberCode.member, hkey]; rfl)
  have hc : Text.isBlank c = false := row.code.key_isPart.tight.head c (by rw [hkey]; rfl)
  have hne : ∀ d, Text.isBlank d = true → c ≠ d := by
    rintro d hd rfl
    simp [hc] at hd
  obtain ⟨x, lines, hlines, hx⟩ := Text.exists_first_line (l := indent) (c := c)
    (by simpa [hline] using (hne '\n' (by decide)).symm) (hne '\r' (by decide)) (key ++ rest)
  have hfirst : isMemberLine (Text.trimStart (indent ++ c :: x)) = true := by
    rw [Text.trimStart_append_cons hindent hc]
    exact row.code.key_isPart.settled.isMemberLine hkey hstar hrest hx
  have hopen : isMemberLine (Text.trimStart (indent ++ ['/', '*', '*'])) = false := by
    rw [Text.trimStart_append_cons hindent (by decide)]
    rfl
  have hclose := isMemberLine_of_star hindent ['/']
  have hmargin : ((Text.lines (defuse row.entry.label.toList)).map (marginLine indent)).find?
      (fun line => isMemberLine (Text.trimStart line)) = none := by
    rw [List.find?_eq_none]
    intro line hmem
    obtain ⟨line, -, rfl⟩ := List.mem_map.mp hmem
    simp [isMemberLine_marginLine hindent]
  have hrow : indent ++ (textOf row.code.key ++ rest) = indent ++ c :: (key ++ rest) := by
    rw [hkey, List.cons_append]
  have hfind : (Text.lines (textOf (bodyLexemes indent closing trailing (row :: rows)))).find?
      (fun line => isMemberLine (Text.trimStart line)) = some (indent ++ c :: x) := by
    rw [htext, hrow, Text.lines_append_newline (by simp), lines_labelComment_append hline, hlines,
      List.find?_cons_of_neg (by decide), List.cons_append,
      List.find?_cons_of_neg (by simp [hopen]), List.find?_append, hmargin, Option.none_or,
      List.find?_cons_of_neg (by simp [hclose]),
      List.find?_cons_of_pos (by simpa using hfirst)]
  rw [memberIndent, hfind]
  simp only
  rw [List.takeWhile_append_of_pos fun _ h => Text.isBlank_of_allBlank hindent h,
    List.takeWhile_cons_of_neg (by simp [hc]), List.append_nil]

/-! ## The comma behind the last member -/

/-- The last lexeme that says something. -/
def lastTelling? (ls : List Lexeme) : Option Lexeme :=
  (ls.filter (·.isTelling)).getLast?

/-- What comes later says something last, if it says anything. -/
theorem lastTelling?_append (ls ls' : List Lexeme) :
    lastTelling? (ls ++ ls') = (lastTelling? ls').or (lastTelling? ls) := by
  rw [lastTelling?, List.filter_append, List.getLast?_append]
  rfl

/-- The last lexeme that says something is one of the lexemes and says something. -/
theorem mem_of_lastTelling? (h : lastTelling? ls = some l) : l ∈ ls ∧ l.isTelling = true :=
  List.mem_filter.mp (List.mem_of_getLast? h)

/-- What may follow the last comma is blank. -/
theorem isBlank_of_isPlainBlank (h : isPlainBlank c = true) : Text.isBlank c = true := by
  simp only [isPlainBlank, Bool.or_eq_true, beq_iff_eq, or_assoc] at h
  rcases h with rfl | rfl | rfl | rfl | h
  · decide
  · decide
  · decide
  · decide
  · rw [Text.isBlank, h]
    decide

/-- A blank is no comma, so what blanks say last is none. -/
theorem lastTelling?_blanks (hb : Text.allBlank b = true)
    (h : lastTelling? (b.map .plain) = some l) : l ≠ .plain ',' := by
  rintro rfl
  obtain ⟨c, hc, heq⟩ := List.mem_map.mp (mem_of_lastTelling? h).1
  cases heq
  exact absurd (Text.isBlank_of_allBlank hb hc) (by decide)

/-- A part of a member says something last, and it is no comma. -/
theorem IsPart.lastTelling? (h : IsPart ls) :
    ∃ l, EnumSource.lastTelling? ls = some l ∧ l ≠ .plain ',' := by
  obtain ⟨init, l, rfl⟩ := List.eq_nil_or_concat ls |>.resolve_left
    fun hnil => h.tight.ne_nil (by rw [hnil]; rfl)
  rw [List.concat_eq_append] at h ⊢
  have htelling : l.isTelling = true := by
    rcases h.settled.cases (l := l) (by simp) with ⟨quote, t, rfl, -⟩ | ⟨c, rfl, -⟩
    · rfl
    · have hc : Text.isBlank c = false := h.tight.last c (by simp [Lexeme.text])
      cases hplain : isPlainBlank c with
      | true => exact absurd (isBlank_of_isPlainBlank hplain) (by simp [hc])
      | false => simp [Lexeme.isTelling, hplain]
  refine ⟨l, by simp [EnumSource.lastTelling?, htelling], ?_⟩
  rintro rfl
  exact h.comma_notMem (by simp)

/-- The line of a member says something last, and it is no comma. -/
theorem lastTelling?_line (indent : List Char) (row : Row) (hb : Text.allBlank b = true) :
    ∃ l, lastTelling? (row.line indent b) = some l ∧ l ≠ .plain ',' := by
  obtain ⟨l, hl, hcomma⟩ := row.code.literal_isPart.lastTelling?
  rw [Row.line_eq, lastTelling?_append]
  cases hlast : lastTelling? (b.map .plain) with
  | some l' => exact ⟨l', rfl, lastTelling?_blanks hb hlast⟩
  | none =>
      refine ⟨l, ?_, hcomma⟩
      have hline : row.line indent [] = row.code.spaced ('\n' :: indent) row.mid [' '] [] := rfl
      rw [Option.none_or, hline, MemberCode.spaced, List.map_nil, List.append_nil,
        lastTelling?_append, ← List.singleton_append, lastTelling?_append, lastTelling?_append, hl,
        Option.some_or, Option.some_or, Option.some_or]

/-- **A written body has the trailing comma it was meant to have,** if the
blanks before its closing brace say nothing. -/
theorem hasTrailingComma_bodyLexemes (hindent : Text.allBlank indent = true)
    (hclosing : Text.allBlank closing = true)
    (hplain : trailing = true → ∀ c ∈ closing, isPlainBlank c = true) (row : Row)
    (rows : List Row) :
    hasTrailingComma (textOf (bodyLexemes indent closing trailing (row :: rows))) = trailing := by
  suffices hlast : ∃ l, lastTelling? (bodyLexemes indent closing trailing (row :: rows)) = some l ∧
      (l == .plain ',') = trailing by
    obtain ⟨l, hl, hcomma⟩ := hlast
    rw [hasTrailingComma, lexemes_textOf_bodyLexemes hindent hclosing, ← lastTelling?, hl]
    exact hcomma
  induction rows generalizing row with
  | nil =>
      rw [bodyLexemes, bodyLexemes]
      cases htrailing : trailing with
      | false =>
          obtain ⟨l, hl, hcomma⟩ := lastTelling?_line indent row
            (allBlank_newline hclosing)
          refine ⟨l, ?_, by simpa using hcomma⟩
          rw [if_pos (by rfl), lastTelling?_append, hl, Option.some_or]
      | true =>
          have hnone : lastTelling? (('\n' :: closing).map .plain) = none := by
            rw [lastTelling?, List.getLast?_eq_none_iff, List.filter_eq_nil_iff]
            intro l hl
            obtain ⟨c, hc, rfl⟩ := List.mem_map.mp hl
            have hblank : isPlainBlank c = true := by
              rcases List.mem_cons.mp hc with rfl | hc
              · decide
              · exact hplain htrailing c hc
            simp [Lexeme.isTelling, hblank]
          refine ⟨.plain ',', ?_, rfl⟩
          rw [if_neg (by simp), lastTelling?_append, lastTelling?_append, ← List.singleton_append,
            lastTelling?_append, hnone, Option.none_or]
          rfl
  | cons row' rows ih =>
      obtain ⟨l, hl, hcomma⟩ := ih row'
      refine ⟨l, ?_, hcomma⟩
      rw [bodyLexemes, if_neg (by simp), lastTelling?_append, lastTelling?_append,
        ← List.singleton_append, lastTelling?_append, hl, Option.some_or, Option.some_or,
        Option.some_or]

/-! ## The blanks before the closing brace -/

/-- What stands before a closing brace is blanks at the end of the last line. -/
theorem closingIndent_spec (t : List Char) :
    Text.allBlank (closingIndent t) = true ∧ '\n' ∉ closingIndent t ∧ closingIndent t <:+ t := by
  have hline : (t.reverse.takeWhile (· ≠ '\n')).reverse <:+ t := by
    rw [← List.reverse_prefix, List.reverse_reverse]
    exact List.takeWhile_prefix _
  have hnewline : '\n' ∉ (t.reverse.takeWhile (· ≠ '\n')).reverse := by
    intro hmem
    have hall := List.all_takeWhile (p := (· ≠ '\n')) (l := t.reverse)
    exact absurd (List.all_eq_true.mp hall _ (List.mem_reverse.mp hmem)) (by simp)
  unfold closingIndent
  simp only
  split
  · exact ⟨‹_›, hnewline, hline⟩
  · exact ⟨rfl, by simp, List.nil_suffix⟩

/-- The blanks on the last line are what stands before a closing brace. -/
theorem closingIndent_append (hb : Text.allBlank b = true) (hnewline : '\n' ∉ b)
    (t : List Char) : closingIndent (t ++ '\n' :: b) = b := by
  have hline : ((t ++ '\n' :: b).reverse.takeWhile (· ≠ '\n')).reverse = b := by
    have hrev : (t ++ '\n' :: b).reverse = b.reverse ++ '\n' :: t.reverse := by simp
    rw [hrev, List.takeWhile_append_of_pos, List.takeWhile_cons_of_neg (by simp), List.append_nil,
      List.reverse_reverse]
    intro c hc
    have hne : c ≠ '\n' := by
      rintro rfl
      exact hnewline (List.mem_reverse.mp hc)
    simpa using hne
  unfold closingIndent
  simp only [hline, hb, if_true]

/-- A written body ends with a line of its own. -/
theorem exists_textOf_bodyLexemes (indent closing : List Char) (trailing : Bool)
    (rows : List Row) :
    ∃ t, textOf (bodyLexemes indent closing trailing rows) = t ++ '\n' :: closing := by
  induction rows with
  | nil => exact ⟨[], by rw [bodyLexemes, textOf_map_plain, List.nil_append]⟩
  | cons row rows ih =>
      obtain ⟨t, ht⟩ := ih
      rw [bodyLexemes]
      split
      · rw [Row.line_eq, textOf_append, textOf_append, textOf_map_plain, ← List.append_assoc]
        exact ⟨_, rfl⟩
      · rw [textOf_append, textOf_append, textOf_cons, ht, ← List.append_assoc,
          ← List.append_assoc, ← List.append_assoc]
        exact ⟨_, rfl⟩

/-- **A written body ends with the blanks that it was given.** -/
theorem closingIndent_bodyLexemes (hclosing : Text.allBlank closing = true)
    (hnewline : '\n' ∉ closing) (head : List Char) (rows : List Row) :
    closingIndent (head ++ textOf (bodyLexemes indent closing trailing rows)) = closing := by
  obtain ⟨t, ht⟩ := exists_textOf_bodyLexemes indent closing trailing rows
  rw [ht, ← List.append_assoc, closingIndent_append hclosing hnewline]

/-- A block comment ends with its closing mark. -/
theorem ClosesComment.exists_concat (h : ClosesComment t) : ∃ init, t = init ++ ['/'] := by
  induction h with
  | mark => exact ⟨['*'], rfl⟩
  | @char c t hmark tail ih =>
      obtain ⟨init, rfl⟩ := ih
      exact ⟨c :: init, rfl⟩

/-- A lexeme that ends with a blank is that blank, unless it is a line
comment. -/
theorem Lexeme.StandsBefore.eq_blank (h : l.StandsBefore rest) (hne : rest ≠ [])
    (hline : rest.head? ≠ some '\n') (hlast : l.text.getLast? = some c)
    (hc : Text.isBlank c = true) : l = .plain c := by
  rcases standsBefore_cases h hne with hclosed | ⟨rfl, -⟩ | ⟨t, -, -, hnewline⟩
  · cases hclosed with
    | @literal quote t hquote hclosed =>
        obtain ⟨init, rfl⟩ := hclosed.exists_concat
        rw [Lexeme.text, ← List.cons_append, List.getLast?_concat, Option.some.injEq] at hlast
        exact absurd hc (by simp [← hlast, isBlank_of_isQuote hquote])
    | @block t hclosed =>
        obtain ⟨init, rfl⟩ := hclosed.exists_concat
        rw [Lexeme.text, ← List.cons_append, ← List.cons_append, List.getLast?_concat,
          Option.some.injEq] at hlast
        exact absurd hc (by rw [← hlast]; decide)
    | plain => exact congrArg Lexeme.plain (Option.some.inj hlast)
  · exact congrArg Lexeme.plain (Option.some.inj hlast)
  · exact absurd hnewline hline

/-- Blanks that end a block without a line feed among them are lexemes of their
own. -/
theorem exists_append_blanks (h : ReadsBack ls rest) (hne : rest ≠ [])
    (hline : rest.head? ≠ some '\n') (htext : textOf ls = pre ++ b)
    (hb : Text.allBlank b = true) (hnewline : '\n' ∉ b) :
    ∃ init, ls = init ++ b.map .plain := by
  induction b using List.reverseRecOn generalizing ls rest with
  | nil => exact ⟨ls, by simp⟩
  | append_singleton b c ih =>
      rw [Text.allBlank_append, Bool.and_eq_true] at hb
      rw [List.mem_append, not_or, List.mem_singleton] at hnewline
      have hc : Text.isBlank c = true := by simpa using hb.2
      obtain ⟨init, l, rfl⟩ := List.eq_nil_or_concat ls |>.resolve_left
        (by rintro rfl; simp at htext)
      rw [List.concat_eq_append] at h htext ⊢
      obtain ⟨hinit, hl, -⟩ := readsBack_append.mp h
      rw [textOf_nil, List.nil_append] at hl
      have hlast : l.text.getLast? = some c := by
        have hgetLast := congrArg List.getLast? htext
        obtain ⟨d, u, hu⟩ := List.exists_cons_of_ne_nil hl.text_ne_nil
        rw [← List.append_assoc, List.getLast?_concat, textOf_append, List.getLast?_append,
          textOf_cons, textOf_nil, List.append_nil, hu, List.getLast?_cons, Option.some_or]
          at hgetLast
        rw [hu, List.getLast?_cons, hgetLast]
      obtain rfl := hl.eq_blank hne hline hlast hc
      have htext' : textOf init = pre ++ b := by
        rw [textOf_append, ← List.append_assoc] at htext
        exact (List.append_inj' htext rfl).1
      have hinit : ReadsBack init (c :: rest) := hinit
      obtain ⟨init', rfl⟩ := ih hinit (by simp)
        (by simpa using Ne.symm hnewline.2) htext' hb.1 hnewline.1
      exact ⟨init', by simp⟩

/-- **Behind a trailing comma the blanks before the closing brace say
nothing.** -/
theorem isPlainBlank_of_mem_closingIndent (h : findDeclaration source = .ok d)
    (hcomma : hasTrailingComma d.body = true) :
    ∀ c ∈ closingIndent (d.head ++ d.body), isPlainBlank c = true := by
  obtain ⟨before, -, hhead, -⟩ := findDeclaration_head_append h
  obtain ⟨-, htail, hread⟩ := findDeclaration_spec h
  obtain ⟨hblank, hnewline, pre, hpre⟩ := closingIndent_spec (d.head ++ d.body)
  generalize closingIndent (d.head ++ d.body) = closing at hblank hnewline hpre
  have hbody : ∃ pre, textOf (lexemes d.body) = pre ++ closing := by
    rw [textOf_lexemes]
    rcases List.append_eq_append_iff.mp hpre with ⟨more, hmore, rfl⟩ | ⟨more, -, hmore⟩
    · rcases List.eq_nil_or_concat more with rfl | ⟨more, x, rfl⟩
      · exact ⟨[], rfl⟩
      · rw [hhead, List.concat_eq_append, ← List.append_assoc] at hmore
        obtain ⟨-, hx⟩ := List.append_inj' hmore rfl
        have hbrace : Text.isBlank '\x7b' = true :=
          Text.isBlank_of_allBlank hblank (by simp [← List.singleton_inj.mp hx])
        exact absurd hbrace (by decide)
    · exact ⟨more, hmore⟩
  obtain ⟨pre', htext⟩ := hbody
  obtain ⟨init, hinit⟩ := exists_append_blanks hread htail.ne_nil
    (by rw [show _ = _ from htail]; decide) htext hblank hnewline
  rw [hasTrailingComma, ← lastTelling?, hinit, lastTelling?_append, beq_iff_eq] at hcomma
  have hnone : lastTelling? (closing.map .plain) = none := by
    cases hlast : lastTelling? (closing.map .plain) with
    | none => rfl
    | some l =>
        rw [hlast, Option.some_or, Option.some.injEq] at hcomma
        exact absurd hcomma (lastTelling?_blanks hblank hlast)
  rw [lastTelling?, List.getLast?_eq_none_iff, List.filter_eq_nil_iff] at hnone
  intro c hc
  have htelling := hnone _ (List.mem_map_of_mem hc)
  simpa [Lexeme.isTelling] using htelling

end ClientRegen.EnumSource
