import ClientRegen.EnumSource.Lexeme

/-!
# Reading lexemes back

A lexeme `StandsBefore` a text when reading the two together takes off exactly
the lexeme.  Whether it does depends on the text only through its first
character (`standsBefore_cases`): a closed string literal, a closed block
comment and most characters stand before anything, a slash stands before what
does not make it a comment mark, and a line comment before a line feed.
Lexemes that each stand before what follows read back from their text
(`lexemes_textOf_append`).

The last part is about code, that is lexemes without the comments between
them.  Comments are taken out before the members of an enum are looked at, and
this creates no new lexeme: `settled_code` says that the code of a block reads
back before every text that does not begin with a slash or a star.
-/

namespace ClientRegen.EnumSource

variable {l : Lexeme} {ls ls' : List Lexeme} {t rest rest' : List Char} {c quote : Char}

@[simp] theorem textOf_nil : textOf [] = [] := rfl

@[simp] theorem textOf_cons : textOf (l :: ls) = l.text ++ textOf ls := rfl

@[simp] theorem textOf_append : textOf (ls ++ ls') = textOf ls ++ textOf ls' := by
  simp [textOf]

/-- Characters that are lexemes of their own make up the text they are taken
from. -/
@[simp] theorem textOf_map_plain (t : List Char) : textOf (t.map .plain) = t := by
  induction t with
  | nil => rfl
  | cons c t ih => simp [ih, Lexeme.text]

theorem lexemes_nil : lexemes [] = [] := by
  rw [lexemes]

/-- The first lexeme is taken off, and the rest is read on. -/
theorem lexemes_cons (c : Char) (t : List Char) :
    lexemes (c :: t) = (next c t).1 :: lexemes (next c t).2 := by
  rw [lexemes]

/-! ## What ends a literal and a comment -/

/-- What stands behind the opening quote of a closed string literal: characters
and escapes, and the quote that closes it. -/
inductive ClosedBy (quote : Char) : List Char → Prop
  | quote : ClosedBy quote [quote]
  | escape (c : Char) {t : List Char} (tail : ClosedBy quote t) :
      ClosedBy quote ('\\' :: c :: t)
  | char {c : Char} {t : List Char} (hescape : c ≠ '\\') (hquote : c ≠ quote)
      (tail : ClosedBy quote t) : ClosedBy quote (c :: t)

/-- A closed literal is split off whatever follows. -/
theorem ClosedBy.split (h : ClosedBy quote t) (hquote : quote ≠ '\\') (rest : List Char) :
    splitLiteral quote (t ++ rest) = (t, rest) := by
  induction h with
  | quote => simp [splitLiteral.eq_4, hquote]
  | escape c tail ih => simp [splitLiteral, ih]
  | char hescape hne tail ih => simp [splitLiteral.eq_4, hescape, hne, ih]

/-- A literal that ends before the text does is closed. -/
theorem closedBy_of_split (h : (splitLiteral quote t).2 ≠ []) :
    ClosedBy quote (splitLiteral quote t).1 := by
  fun_induction splitLiteral quote t with
  | case1 => exact absurd rfl h
  | case2 => exact absurd rfl h
  | case3 c t body rest hsplit ih =>
      rw [hsplit] at ih
      exact .escape c (ih h)
  | case4 => exact .quote
  | case5 c t hlone hpair hquote body rest hsplit ih =>
      have hescape : c ≠ '\\' := by
        rintro rfl
        cases t with
        | nil => exact hlone rfl rfl
        | cons d t => exact hpair d t rfl rfl
      rw [hsplit] at ih
      exact .char hescape hquote (ih h)

/-- A closed literal ends with its quote. -/
theorem ClosedBy.exists_concat (h : ClosedBy quote t) : ∃ init, t = init ++ [quote] := by
  induction h with
  | quote => exact ⟨[], rfl⟩
  | escape c tail ih =>
      obtain ⟨init, rfl⟩ := ih
      exact ⟨'\\' :: c :: init, rfl⟩
  | @char c t hescape hquote tail ih =>
      obtain ⟨init, rfl⟩ := ih
      exact ⟨c :: init, rfl⟩

/-- What stands behind the opening mark of a closed block comment: characters,
and the first mark that closes it. -/
inductive ClosesComment : List Char → Prop
  | mark : ClosesComment ['*', '/']
  | char {c : Char} {t : List Char} (hmark : c = '*' → t.head? ≠ some '/')
      (tail : ClosesComment t) : ClosesComment (c :: t)

/-- A closed block comment is split off whatever follows. -/
theorem ClosesComment.split (h : ClosesComment t) (rest : List Char) :
    splitComment (t ++ rest) = (t, rest) := by
  induction h with
  | mark => rfl
  | @char c t hmark tail ih =>
      have hne : t ≠ [] := by cases tail <;> simp
      obtain ⟨d, t, rfl⟩ := List.exists_cons_of_ne_nil hne
      have hnot : ∀ cs, c = '*' → d :: (t ++ rest) = '/' :: cs → False := by
        intro cs hc heq
        exact hmark hc (by simp [(List.cons.inj heq).1])
      rw [List.cons_append, List.cons_append, splitComment.eq_3 _ _ hnot, ← List.cons_append, ih]

/-- A comment that is split off begins as the text does. -/
theorem head?_splitComment (t : List Char) : (splitComment t).1.head? = t.head? := by
  fun_cases splitComment t <;> rfl

/-- A block comment that ends before the text does is closed. -/
theorem closesComment_of_split (h : (splitComment t).2 ≠ []) :
    ClosesComment (splitComment t).1 := by
  fun_induction splitComment t with
  | case1 => exact absurd rfl h
  | case2 => exact .mark
  | case3 c t hnot body rest hsplit ih =>
      have hhead := head?_splitComment t
      rw [hsplit] at ih hhead
      refine .char ?_ (ih h)
      intro hc hslash
      rw [hhead] at hslash
      obtain ⟨t, rfl⟩ := List.head?_eq_some_iff.mp hslash
      exact hnot t hc rfl

/-- A line is split off before the first line feed. -/
theorem splitLine_of_newline (ht : '\n' ∉ t) (hrest : rest.head? = some '\n') :
    splitLine (t ++ rest) = (t, rest) := by
  induction t with
  | nil =>
      obtain ⟨rest, rfl⟩ := List.head?_eq_some_iff.mp hrest
      simp [splitLine]
  | cons c t ih =>
      rw [List.mem_cons, not_or] at ht
      simp [splitLine, Ne.symm ht.1, ih ht.2]

/-- What is split off as a line holds no line feed, and one follows it unless
the text is at its end. -/
theorem splitLine_spec (t : List Char) :
    '\n' ∉ (splitLine t).1 ∧ ((splitLine t).2 ≠ [] → (splitLine t).2.head? = some '\n') := by
  fun_induction splitLine t with
  | case1 => simp
  | case2 t => simp
  | case3 c t hc line rest hsplit ih =>
      rw [hsplit] at ih
      simpa [Ne.symm hc] using ih

/-! ## Reading one lexeme -/

/-- Reading a lexeme together with the text behind it takes off exactly the
lexeme. -/
def Lexeme.StandsBefore (l : Lexeme) (rest : List Char) : Prop :=
  ∃ c t, l.text = c :: t ∧ next c (t ++ rest) = (l, rest)

/-- A text that does not make a comment mark of a slash before it. -/
def Neutral (rest : List Char) : Prop :=
  rest.head? ≠ some '/' ∧ rest.head? ≠ some '*'

/-- Lexemes that end by themselves, whatever follows. -/
inductive Lexeme.Closed : Lexeme → Prop
  | literal {quote : Char} {t : List Char} (hquote : isQuote quote = true)
      (hclosed : ClosedBy quote t) : Closed (.literal (quote :: t))
  | block {t : List Char} (hclosed : ClosesComment t) : Closed (.comment ('/' :: '*' :: t))
  | plain {c : Char} (hquote : isQuote c = false) (hslash : c ≠ '/') : Closed (.plain c)

/-- A quote is no backslash. -/
theorem ne_backslash_of_isQuote (h : isQuote c = true) : c ≠ '\\' := by
  rintro rfl
  exact absurd h (by decide)

/-- A closed lexeme stands before anything. -/
theorem Lexeme.Closed.standsBefore (h : l.Closed) (rest : List Char) : l.StandsBefore rest := by
  cases h with
  | @literal quote t hquote hclosed =>
      refine ⟨quote, t, rfl, ?_⟩
      simp [next, hquote, hclosed.split (ne_backslash_of_isQuote hquote)]
  | @block t hclosed =>
      refine ⟨'/', '*' :: t, rfl, ?_⟩
      rw [List.cons_append, next, if_neg (by decide), if_pos rfl]
      simp [hclosed.split]
  | @plain c hquote hslash => exact ⟨c, [], rfl, by simp [next, hquote, hslash]⟩

/-- A slash stands before what does not make it a comment mark. -/
theorem standsBefore_slash (h : Neutral rest) : (Lexeme.plain '/').StandsBefore rest := by
  refine ⟨'/', [], rfl, ?_⟩
  unfold next
  rw [if_neg (by decide), if_pos rfl, List.nil_append]
  split
  · exact absurd rfl h.1
  · exact absurd rfl h.2
  · rfl

/-- A line comment stands before a line feed. -/
theorem standsBefore_newline (ht : '\n' ∉ t) (hrest : rest.head? = some '\n') :
    (Lexeme.comment ('/' :: '/' :: t)).StandsBefore rest := by
  refine ⟨'/', '/' :: t, rfl, ?_⟩
  rw [List.cons_append, next, if_neg (by decide), if_pos rfl]
  simp [splitLine_of_newline ht hrest]

/-- **What follows matters only to slashes and line comments.**  A lexeme that
stands before a text which is not at its end is closed, or it is a slash that
the text does not make a comment mark, or a line comment before a line feed. -/
theorem standsBefore_cases (h : l.StandsBefore rest) (hne : rest ≠ []) :
    l.Closed ∨ (l = .plain '/' ∧ Neutral rest) ∨
      ∃ t, l = .comment ('/' :: '/' :: t) ∧ '\n' ∉ t ∧ rest.head? = some '\n' := by
  obtain ⟨c, t, htext, hnext⟩ := h
  unfold next at hnext
  by_cases hquote : isQuote c
  · rw [if_pos hquote] at hnext
    obtain ⟨rfl, hrest⟩ := Prod.mk.inj hnext
    exact Or.inl (.literal hquote (closedBy_of_split (by rwa [hrest])))
  · have hquote : isQuote c = false := by simpa using hquote
    rw [if_neg (by simp [hquote])] at hnext
    by_cases hslash : c = '/'
    · subst hslash
      rw [if_pos rfl] at hnext
      split at hnext
      · rename_i ds heq
        obtain ⟨rfl, hrest⟩ := Prod.mk.inj hnext
        have hline := splitLine_spec ds
        rw [hrest] at hline
        exact Or.inr (Or.inr ⟨_, rfl, hline.1, hline.2 hne⟩)
      · obtain ⟨rfl, hrest⟩ := Prod.mk.inj hnext
        exact Or.inl (.block (closesComment_of_split (by rwa [hrest])))
      · rename_i hline hblock
        obtain ⟨rfl, hrest⟩ := Prod.mk.inj hnext
        obtain rfl : t = [] := by simpa [Lexeme.text] using htext
        refine Or.inr (Or.inl ⟨rfl, ?_, ?_⟩)
        · intro hhead
          obtain ⟨ds, rfl⟩ := List.head?_eq_some_iff.mp hhead
          exact hline ds rfl
        · intro hhead
          obtain ⟨ds, rfl⟩ := List.head?_eq_some_iff.mp hhead
          exact hblock ds rfl
    · rw [if_neg hslash] at hnext
      obtain ⟨rfl, -⟩ := Prod.mk.inj hnext
      exact Or.inl (.plain hquote hslash)

/-- A lexeme stands before every text that begins with the same character. -/
theorem Lexeme.StandsBefore.of_head? (h : l.StandsBefore rest) (hne : rest ≠ [])
    (hhead : rest'.head? = rest.head?) : l.StandsBefore rest' := by
  rcases standsBefore_cases h hne with hclosed | ⟨rfl, hneutral⟩ | ⟨t, rfl, ht, hline⟩
  · exact hclosed.standsBefore rest'
  · exact standsBefore_slash (by rwa [Neutral, hhead])
  · exact standsBefore_newline ht (hhead.trans hline)

/-- A lexeme that stands before something has a first character. -/
theorem Lexeme.StandsBefore.text_ne_nil (h : l.StandsBefore rest) : l.text ≠ [] := by
  obtain ⟨c, t, htext, -⟩ := h
  simp [htext]

/-! ## Reading many lexemes -/

/-- Lexemes that each stand before what follows them: the ones behind, and in
the end a given text. -/
def ReadsBack : List Lexeme → List Char → Prop
  | [], _ => True
  | l :: ls, rest => l.StandsBefore (textOf ls ++ rest) ∧ ReadsBack ls rest

/-- Lexemes read back from their text, and the text behind them is read after
them. -/
theorem lexemes_textOf_append (h : ReadsBack ls rest) :
    lexemes (textOf ls ++ rest) = ls ++ lexemes rest := by
  induction ls with
  | nil => rfl
  | cons l ls ih =>
      obtain ⟨⟨c, t, htext, hnext⟩, htail⟩ := h
      rw [textOf_cons, htext, List.append_assoc, List.cons_append, lexemes_cons, hnext, ih htail,
        List.cons_append]

/-- Lexemes that read back at the end of a text are those of their text. -/
theorem ReadsBack.lexemes_textOf (h : ReadsBack ls []) : lexemes (textOf ls) = ls := by
  simpa [lexemes_nil] using lexemes_textOf_append h

/-- The lexemes of a text read back. -/
theorem readsBack_lexemes (t : List Char) : ReadsBack (lexemes t) [] := by
  induction hn : t.length using Nat.strongRecOn generalizing t with
  | ind n ih =>
      cases t with
      | nil => simp [lexemes_nil, ReadsBack]
      | cons c t =>
          rw [lexemes_cons]
          refine ⟨?_, ih _ (hn ▸ length_next_lt c t) _ rfl⟩
          rw [textOf_lexemes, List.append_nil]
          have happend := next_append c t
          obtain ⟨d, u, htext⟩ := List.exists_cons_of_ne_nil (text_next_ne_nil c t)
          rw [htext, List.cons_append, List.cons.injEq] at happend
          obtain ⟨rfl, hu⟩ := happend
          exact ⟨d, u, htext, by rw [hu]⟩

/-- Lexemes read back in a row when the first of them do before the others. -/
theorem readsBack_append :
    ReadsBack (ls ++ ls') rest ↔ ReadsBack ls (textOf ls' ++ rest) ∧ ReadsBack ls' rest := by
  induction ls with
  | nil => simp [ReadsBack]
  | cons l ls ih => simp [ReadsBack, ih, and_assoc]

/-- Closed lexemes read back before anything. -/
theorem readsBack_of_closed (h : ∀ l ∈ ls, l.Closed) (rest : List Char) : ReadsBack ls rest := by
  induction ls with
  | nil => trivial
  | cons l ls ih =>
      exact ⟨(h l List.mem_cons_self).standsBefore _,
        ih fun l hl => h l (List.mem_cons_of_mem _ hl)⟩

/-! ## Code -/

/-- Whether a lexeme is a comment. -/
def Lexeme.isComment : Lexeme → Bool
  | comment _ => true
  | _ => false

/-- The lexemes other than comments. -/
def code (ls : List Lexeme) : List Lexeme :=
  ls.filter fun l => !l.isComment

@[simp] theorem code_nil : code [] = [] := rfl

@[simp] theorem code_append : code (ls ++ ls') = code ls ++ code ls' := by
  simp [code]

/-- Lexemes other than comments that read back before every text which does not
make a comment mark of a slash. -/
structure Settled (ls : List Lexeme) : Prop where
  /-- There is no comment among the lexemes. -/
  isComment_eq : ∀ l ∈ ls, l.isComment = false
  /-- They read back. -/
  readsBack : ∀ rest, Neutral rest → ReadsBack ls rest

/-- What makes no comment mark of a slash begins with neither a slash nor a star. -/
theorem neutral_cons : Neutral (c :: t) ↔ c ≠ '/' ∧ c ≠ '*' := by
  simp [Neutral]

theorem neutral_nil : Neutral [] := by
  simp [Neutral]

/-- A text goes on being neutral whatever neutral text ends it. -/
theorem Neutral.append (ht : Neutral t) (hrest : Neutral rest) : Neutral (t ++ rest) := by
  cases t with
  | nil => exact hrest
  | cons c t => exact ht

/-- Only a text that holds nothing leaves it to its end whether it is
neutral. -/
theorem Neutral.change_end (h : Neutral (t ++ rest)) (hrest' : Neutral rest') :
    Neutral (t ++ rest') := by
  cases t with
  | nil => exact hrest'
  | cons c t => exact h

/-- Settled lexemes are those of their text. -/
theorem Settled.lexemes_textOf (h : Settled ls) : lexemes (textOf ls) = ls :=
  (h.readsBack [] neutral_nil).lexemes_textOf

/-- What stands before something, and is no comment, stands before every
neutral text; a slash needs the text behind it to stay neutral. -/
theorem Lexeme.StandsBefore.of_code (h : l.StandsBefore rest) (hne : rest ≠ [])
    (hcode : l.isComment = false) (hrest : Neutral rest → Neutral rest') :
    l.StandsBefore rest' := by
  rcases standsBefore_cases h hne with hclosed | ⟨rfl, hneutral⟩ | ⟨t, rfl, -, -⟩
  · exact hclosed.standsBefore rest'
  · exact standsBefore_slash (hrest hneutral)
  · exact absurd hcode (by simp [Lexeme.isComment])

/-- A comment begins with a slash. -/
theorem head?_of_isComment (h : l.StandsBefore rest) (hne : rest ≠ [])
    (hcomment : l.isComment = true) : l.text.head? = some '/' := by
  rcases standsBefore_cases h hne with hclosed | ⟨rfl, -⟩ | ⟨t, rfl, -, -⟩
  · cases hclosed with
    | literal | plain => exact absurd hcomment (by simp [Lexeme.isComment])
    | block => rfl
  · exact absurd hcomment (by simp [Lexeme.isComment])
  · rfl

/-- Code before something reads back before every neutral text. -/
theorem ReadsBack.settled (h : ReadsBack ls rest) (hne : rest ≠ [])
    (hcode : ∀ l ∈ ls, l.isComment = false) : Settled ls := by
  refine ⟨hcode, fun rest' hrest' => ?_⟩
  induction ls with
  | nil => trivial
  | cons l ls ih =>
      refine ⟨h.1.of_code (by simp [hne]) (hcode l List.mem_cons_self) ?_,
        ih h.2 fun l hl => hcode l (List.mem_cons_of_mem _ hl)⟩
      exact fun hneutral => hneutral.change_end hrest'

/-- The first of settled lexemes are settled. -/
theorem Settled.left (h : Settled (ls ++ ls')) : Settled ls := by
  have hread := (readsBack_append.mp (h.readsBack ['}'] (by simp [neutral_cons]))).1
  exact hread.settled (by simp) fun l hl => h.isComment_eq l (List.mem_append_left _ hl)

/-- So are the last of them. -/
theorem Settled.right (h : Settled (ls ++ ls')) : Settled ls' :=
  ⟨fun l hl => h.isComment_eq l (List.mem_append_right _ hl),
    fun rest hrest => (readsBack_append.mp (h.readsBack rest hrest)).2⟩

/-- Settled lexemes settle in front of others that begin neutrally. -/
theorem Settled.append (h : Settled ls) (h' : Settled ls') (hneutral : Neutral (textOf ls')) :
    Settled (ls ++ ls') where
  isComment_eq l hl := (List.mem_append.mp hl).elim (h.isComment_eq l) (h'.isComment_eq l)
  readsBack rest hrest := readsBack_append.mpr
    ⟨h.readsBack _ (hneutral.append hrest), h'.readsBack rest hrest⟩

/-- Closed lexemes that are no comments are settled. -/
theorem settled_of_closed (h : ∀ l ∈ ls, l.Closed ∧ l.isComment = false) : Settled ls :=
  ⟨fun l hl => (h l hl).2, fun rest _ => readsBack_of_closed (fun l hl => (h l hl).1) rest⟩

/-- The code of lexemes begins as the lexemes do if that is neutral, because a
comment begins with a slash. -/
theorem neutral_textOf_code (h : ReadsBack ls rest) (hne : rest ≠ [])
    (hneutral : Neutral (textOf ls ++ rest)) (hrest' : Neutral rest') :
    Neutral (textOf (code ls) ++ rest') := by
  cases ls with
  | nil => exact hrest'
  | cons l ls =>
      obtain ⟨c, t, htext⟩ := List.exists_cons_of_ne_nil h.1.text_ne_nil
      rw [textOf_cons, htext] at hneutral
      cases hl : l.isComment with
      | true =>
          have hhead := head?_of_isComment h.1 (by simp [hne]) hl
          rw [htext] at hhead
          exact absurd hhead hneutral.1
      | false => simpa [code, hl, htext, Neutral] using hneutral

/-- **Taking out comments creates no lexeme.**  Where lexemes read back before
something, their code reads back before every neutral text. -/
theorem settled_code (h : ReadsBack ls rest) (hne : rest ≠ []) : Settled (code ls) := by
  refine ⟨fun l hl => by simpa using (List.mem_filter.mp hl).2, fun rest' hrest' => ?_⟩
  induction ls with
  | nil => trivial
  | cons l ls ih =>
      cases hl : l.isComment with
      | true => simpa [code, hl] using ih h.2
      | false =>
          have hstands : l.StandsBefore (textOf (code ls) ++ rest') :=
            h.1.of_code (by simp [hne]) hl fun hneutral =>
              neutral_textOf_code h.2 hne hneutral hrest'
          simpa [code, hl, ReadsBack] using And.intro hstands (ih h.2)

/-- Lexemes before anything but a line feed read back at the end of a text. -/
theorem ReadsBack.at_end (h : ReadsBack ls rest) (hne : rest ≠ [])
    (hline : rest.head? ≠ some '\n') : ReadsBack ls [] := by
  induction ls with
  | nil => trivial
  | cons l ls ih =>
      refine ⟨?_, ih h.2⟩
      rw [List.append_nil]
      cases htext : textOf ls with
      | nil =>
          have hstands := h.1
          rw [htext, List.nil_append] at hstands
          rcases standsBefore_cases hstands hne with hclosed | ⟨rfl, -⟩ | ⟨t, -, -, hnewline⟩
          · exact hclosed.standsBefore []
          · exact standsBefore_slash neutral_nil
          · exact absurd hnewline hline
      | cons c t =>
          have hstands := h.1
          rw [htext] at hstands
          exact hstands.of_head? (by simp) (by simp)

end ClientRegen.EnumSource
