import ClientRegen.EnumSource.Declaration
import ClientRegen.Proofs.EnumSource.Reading
import ClientRegen.Proofs.Text.Replacing
import Mathlib.Data.Option.Basic

/-!
# The declaration that a source is found to hold

An opening is read up to the first brace behind the start of its line, so what
stands behind the brace has no say in it: two texts that are equal up to their
first brace have the same opening or none (`openingAtLine?_of_upToBrace`).
Hence the head of a declaration, once found, is found again before any other
text (`findDeclaration_head_append`), and only the block behind it is read
anew.

What is found makes up the source, and the lexemes of the body, read on their
own, are those that the source has there (`findDeclaration_spec`).
-/

namespace ClientRegen.EnumSource

variable {r r' t t' : List Char} {o : Opening} {d : Declaration} {source head rest : List Char}

/-! ## Texts up to a brace -/

/-- Two texts that are equal up to their first brace and go on with given texts
behind it. -/
def UpToBrace (r r' t t' : List Char) : Prop :=
  ∃ before, '\x7b' ∉ before ∧ t = before ++ '\x7b' :: r ∧ t' = before ++ '\x7b' :: r'

/-- Equal openings before given texts. -/
def SameOpening (r r' : List Char) (o o' : Opening) : Prop :=
  o = ⟨o.isConstant, o.isAssigned, r⟩ ∧ o' = ⟨o.isConstant, o.isAssigned, r'⟩

/-- The first character tells apart a brace and what comes before it. -/
theorem UpToBrace.cases (h : UpToBrace r r' t t') :
    (t = '\x7b' :: r ∧ t' = '\x7b' :: r') ∨
      ∃ c u u', c ≠ '\x7b' ∧ t = c :: u ∧ t' = c :: u' ∧ UpToBrace r r' u u' := by
  obtain ⟨before, hbefore, rfl, rfl⟩ := h
  cases before with
  | nil => exact Or.inl ⟨rfl, rfl⟩
  | cons c before =>
      rw [List.mem_cons, not_or] at hbefore
      exact Or.inr ⟨c, _, _, Ne.symm hbefore.1, rfl, rfl, before, hbefore.2, rfl, rfl⟩

/-- A brace stops whoever drops characters of a class without braces. -/
theorem UpToBrace.dropWhile {p : Char → Bool} (hp : p '\x7b' = false)
    (h : UpToBrace r r' t t') : UpToBrace r r' (t.dropWhile p) (t'.dropWhile p) := by
  obtain ⟨before, hbefore, rfl, rfl⟩ := h
  induction before with
  | nil => exact ⟨[], by simp, by simp [hp], by simp [hp]⟩
  | cons c before ih =>
      rw [List.mem_cons, not_or] at hbefore
      by_cases hc : p c
      · simpa [hc] using ih hbefore.2
      · refine ⟨c :: before, ?_, by simp [hc], by simp [hc]⟩
        simpa using ⟨hbefore.1, hbefore.2⟩

/-- Gaps are skipped alike in texts that are equal up to a brace. -/
theorem UpToBrace.skipGaps (h : UpToBrace r r' t t') :
    UpToBrace r r' (skipGaps t) (skipGaps t') :=
  h.dropWhile (by decide)

/-- A word without a brace is dropped from both or from neither. -/
theorem UpToBrace.dropStart? {word : List Char} (hword : '\x7b' ∉ word)
    (h : UpToBrace r r' t t') :
    Option.Rel (UpToBrace r r') (Text.dropStart? word t) (Text.dropStart? word t') := by
  induction word generalizing t t' with
  | nil => exact .some h
  | cons p word ih =>
      rw [List.mem_cons, not_or] at hword
      rcases h.cases with ⟨rfl, rfl⟩ | ⟨c, u, u', hc, rfl, rfl, hu⟩
      · simp [Text.dropStart?, Ne.symm hword.1]
      · by_cases hpc : p = c
        · simpa [Text.dropStart?, hpc] using ih hword.2 hu
        · simp [Text.dropStart?, hpc]

/-- So is a word with the gap behind it. -/
theorem UpToBrace.dropWord? (word : List Char) (hword : '\x7b' ∉ word)
    (h : UpToBrace r r' t t') :
    Option.Rel (UpToBrace r r') (dropWord? word t) (dropWord? word t') := by
  have hstart := h.dropStart? hword
  unfold EnumSource.dropWord?
  cases hs : Text.dropStart? word t <;> cases hs' : Text.dropStart? word t' <;>
    rw [hs, hs'] at hstart <;> cases hstart
  · exact .none
  · rename_i u u' hu
    rcases hu.cases with ⟨rfl, rfl⟩ | ⟨c, v, v', hc, rfl, rfl, hv⟩
    · exact .none
    · by_cases hgap : isGap c
      · simpa [hgap] using hv.skipGaps
      · simp [hgap]

/-- A choice between two readings is made alike if each reading is. -/
theorem rel_or {α : Type} {R : α → α → Prop} {x x' y y' : Option α}
    (hx : Option.Rel R x x') (hy : Option.Rel R y y') : Option.Rel R (x.or y) (x'.or y') := by
  cases hx with
  | some h => exact .some h
  | none => exact hy

/-- A reading that goes on with what another one leaves is made alike if both
are. -/
theorem rel_bind {α β : Type} {R : α → α → Prop} {S : β → β → Prop} {x x' : Option α}
    {f : α → Option β} (hx : Option.Rel R x x')
    (hf : ∀ a a', R a a' → Option.Rel S (f a) (f a')) : Option.Rel S (x.bind f) (x'.bind f) := by
  cases hx with
  | some h => exact hf _ _ h
  | none => exact .none

/-- A brace ends a name. -/
theorem isNameChar_brace : Text.isNameChar '\x7b' = false := by
  decide +kernel

/-- The name, the assignment and the brace of a declaration are read alike. -/
theorem openingFromName?_of_upToBrace (isConstant : Bool) (h : UpToBrace r r' t t') :
    Option.Rel (SameOpening r r') (openingFromName? isConstant t)
      (openingFromName? isConstant t') := by
  rcases h.cases with ⟨rfl, rfl⟩ | ⟨c, u, u', hc, rfl, rfl, hu⟩
  · simp [openingFromName?, show Text.isNameStart '\x7b' = false by decide]
  · unfold openingFromName?
    by_cases hstart : Text.isNameStart c
    · simp only [hstart, if_true]
      have hname := (hu.dropWhile isNameChar_brace).skipGaps
      rcases hname.cases with ⟨hv, hv'⟩ | ⟨d, v, v', hd, hv, hv', hrest⟩
      · simp [hv, hv', SameOpening]
      · rw [hv, hv']
        by_cases heq : d = '='
        · subst heq
          rcases hrest.skipGaps.cases with ⟨hw, hw'⟩ | ⟨e, w, w', he, hw, hw', -⟩
          · simp [hw, hw', SameOpening]
          · simp [hw, hw', he]
        · simp [heq, hd]
    · simp [hstart]

/-- So is what begins with the keyword. -/
theorem openingFromKeyword?_of_upToBrace (h : UpToBrace r r' t t') :
    Option.Rel (SameOpening r r') (openingFromKeyword? t) (openingFromKeyword? t') := by
  have henum := h.dropWord? ['e', 'n', 'u', 'm'] (by decide)
  have hconst := h.dropWord? ['c', 'o', 'n', 's', 't'] (by decide)
  unfold openingFromKeyword?
  cases hs : dropWord? ['e', 'n', 'u', 'm'] t <;> cases hs' : dropWord? ['e', 'n', 'u', 'm'] t' <;>
    rw [hs, hs'] at henum <;> cases henum
  · exact rel_bind hconst fun _ _ => openingFromName?_of_upToBrace true
  · rename_i hu
    exact openingFromName?_of_upToBrace false hu

/-- So is one modifier. -/
theorem dropModifier?_of_upToBrace (h : UpToBrace r r' t t') :
    Option.Rel (UpToBrace r r') (dropModifier? t) (dropModifier? t') :=
  rel_or (h.dropWord? _ (by decide)) (h.dropWord? _ (by decide))

/-- With a modifier in front an opening is read behind it if it can be, and from where it stands
otherwise. -/
theorem openingFromModifiers?_eq (t : List Char) :
    openingFromModifiers? t =
      match dropModifier? t with
      | none => openingFromKeyword? t
      | some u => (openingFromModifiers? u).or (openingFromKeyword? t) := by
  rw [openingFromModifiers?]
  split <;> rename_i h <;> simp only [h]

/-- Modifiers in front are read alike, by induction on what is left of the text. -/
theorem openingFromModifiers?_of_upToBrace (h : UpToBrace r r' t t') :
    Option.Rel (SameOpening r r') (openingFromModifiers? t) (openingFromModifiers? t') := by
  induction hn : t.length using Nat.strongRecOn generalizing t t' with
  | ind n ih =>
      have hmodifier := dropModifier?_of_upToBrace h
      have hkeyword := openingFromKeyword?_of_upToBrace h
      rw [openingFromModifiers?_eq, openingFromModifiers?_eq]
      cases hs : dropModifier? t <;> cases hs' : dropModifier? t' <;>
        rw [hs, hs'] at hmodifier <;> cases hmodifier
      · exact hkeyword
      · rename_i hu
        exact rel_or (ih _ (hn ▸ length_lt_of_dropModifier? hs) hu rfl) hkeyword

/-- **What stands behind the brace has no say.**  Two texts that are equal up
to their first brace begin with the same opening or with none. -/
theorem openingAtLine?_of_upToBrace (h : UpToBrace r r' t t') :
    Option.Rel (SameOpening r r') (openingAtLine? t) (openingAtLine? t') :=
  rel_bind (h.skipGaps.dropWord? _ (by decide)) fun _ _ => openingFromModifiers?_of_upToBrace

/-! ## Where an opening ends -/

/-- What is left behind a word is the end of the text. -/
theorem suffix_of_dropWord? {word u : List Char} (h : dropWord? word t = some u) : u <:+ t := by
  unfold dropWord? at h
  split at h
  · rename_i c v hstart
    by_cases hgap : isGap c
    · rw [if_pos hgap, Option.some.injEq] at h
      subst h
      exact ((List.dropWhile_suffix _).trans (List.suffix_cons c v)).trans
        ⟨word, (Text.dropStart?_eq_some_iff.mp hstart).symm⟩
    · simp [hgap] at h
  · simp at h

/-- From a name on an opening ends with its brace, somewhere in the text. -/
theorem suffix_of_openingFromName? {isConstant : Bool}
    (h : openingFromName? isConstant t = some o) : '\x7b' :: o.rest <:+ t := by
  unfold openingFromName? at h
  split at h
  · rename_i c u
    split at h
    · have hname : skipGaps (u.dropWhile Text.isNameChar) <:+ c :: u :=
        ((List.dropWhile_suffix _).trans (List.dropWhile_suffix _)).trans (List.suffix_cons c u)
      split at h
      · rename_i after hafter
        rw [hafter] at hname
        split at h
        · rename_i body hbody
          cases h
          have hgaps : skipGaps after <:+ after := List.dropWhile_suffix _
          rw [hbody] at hgaps
          exact (hgaps.trans (List.suffix_cons '=' after)).trans hname
        · simp at h
      · rename_i body hbody
        cases h
        exact hbody ▸ hname
      · simp at h
    · simp at h
  · simp at h

/-- From the keyword on it does too. -/
theorem suffix_of_openingFromKeyword? (h : openingFromKeyword? t = some o) :
    '\x7b' :: o.rest <:+ t := by
  unfold openingFromKeyword? at h
  split at h
  · rename_i hword
    exact (suffix_of_openingFromName? h).trans (suffix_of_dropWord? hword)
  · obtain ⟨u, hword, hopening⟩ := Option.bind_eq_some_iff.mp h
    exact (suffix_of_openingFromName? hopening).trans (suffix_of_dropWord? hword)

/-- What is left behind a modifier is the end of the text. -/
theorem suffix_of_dropModifier? {u : List Char} (h : dropModifier? t = some u) : u <:+ t := by
  unfold dropModifier? at h
  rcases Option.or_eq_some_iff.mp h with h | ⟨-, h⟩
  · exact suffix_of_dropWord? h
  · exact suffix_of_dropWord? h

/-- Behind modifiers an opening ends with its brace as well. -/
theorem suffix_of_openingFromModifiers? (h : openingFromModifiers? t = some o) :
    '\x7b' :: o.rest <:+ t := by
  induction hn : t.length using Nat.strongRecOn generalizing t with
  | ind n ih =>
      rw [openingFromModifiers?_eq] at h
      split at h
      · exact suffix_of_openingFromKeyword? h
      · rename_i u hmodifier
        rcases Option.or_eq_some_iff.mp h with h | ⟨-, h⟩
        · exact (ih _ (hn ▸ length_lt_of_dropModifier? hmodifier) h rfl).trans
            (suffix_of_dropModifier? hmodifier)
        · exact suffix_of_openingFromKeyword? h

/-- **The brace of an opening and what follows it are the end of the text.** -/
theorem suffix_of_openingAtLine? (h : openingAtLine? t = some o) : '\x7b' :: o.rest <:+ t := by
  obtain ⟨u, hword, hopening⟩ := Option.bind_eq_some_iff.mp h
  exact ((suffix_of_openingFromModifiers? hopening).trans (suffix_of_dropWord? hword)).trans
    (List.dropWhile_suffix _)

/-! ## Reading an opening again -/

/-- What is made alike with something is something. -/
theorem exists_of_rel_some {α : Type} {R : α → α → Prop} {a : α} {x : Option α}
    (h : Option.Rel R (some a) x) : ∃ b, x = some b ∧ R a b := by
  cases h with
  | some h => exact ⟨_, rfl, h⟩

/-- What is made alike with nothing is nothing. -/
theorem eq_none_of_rel_none {α : Type} {R : α → α → Prop} {x : Option α}
    (h : Option.Rel R none x) : x = none := by
  cases h
  rfl

/-- An opening at the start of a line ends at the first brace, and is read again
before any other text. -/
theorem openingAtLine?_eq_some (h : openingAtLine? t = some o) :
    ∃ before, t = before ++ '\x7b' :: o.rest ∧
      ∀ rest, openingAtLine? (before ++ '\x7b' :: rest) =
        some ⟨o.isConstant, o.isAssigned, rest⟩ := by
  obtain ⟨before, r, ht, hbefore⟩ := List.eq_append_cons_of_mem
    ((suffix_of_openingAtLine? h).subset List.mem_cons_self)
  have hagain : ∀ rest, o = ⟨o.isConstant, o.isAssigned, r⟩ ∧
      openingAtLine? (before ++ '\x7b' :: rest) = some ⟨o.isConstant, o.isAssigned, rest⟩ := by
    intro rest
    have hbrace : UpToBrace r rest t (before ++ '\x7b' :: rest) := ⟨before, hbefore, ht, rfl⟩
    have hrel := openingAtLine?_of_upToBrace hbrace
    rw [h] at hrel
    obtain ⟨o', ho', hsame, rfl⟩ := exists_of_rel_some hrel
    exact ⟨hsame, ho'⟩
  have hr : o.rest = r := congrArg Opening.rest (hagain r).1
  exact ⟨before, hr ▸ ht, fun rest => (hagain rest).2⟩

/-- Where no line opens a body up to some brace, none does before another
text. -/
theorem openingAtLine?_eq_none (before : List Char)
    (h : openingAtLine? (before ++ '\x7b' :: r) = none) (rest : List Char) :
    openingAtLine? (before ++ '\x7b' :: rest) = none := by
  obtain ⟨first, more, hsplit, hfirst⟩ := List.eq_append_cons_of_mem
    (show '\x7b' ∈ before ++ ['\x7b'] by simp)
  have hshape : ∀ u, before ++ '\x7b' :: u = first ++ '\x7b' :: (more ++ u) := by
    intro u
    have happend := congrArg (· ++ u) hsplit
    simpa using happend
  have hrel := openingAtLine?_of_upToBrace ⟨first, hfirst, hshape r, hshape rest⟩
  rw [h] at hrel
  exact eq_none_of_rel_none hrel

/-- An opening at the start of a line is the first one. -/
theorem firstOpening?_of_line (h : openingAtLine? t = some o) : firstOpening? true t = some o := by
  cases t with
  | nil => simp [openingAtLine?, skipGaps, dropWord?, Text.dropStart?] at h
  | cons c t => rw [firstOpening?, if_pos rfl, h, Option.some_or]

/-- **The first opening ends at its brace.**  What is read up to the brace is
read again before any other text, because no line before it opens a body. -/
theorem firstOpening?_eq_some {lineStart : Bool} (h : firstOpening? lineStart t = some o) :
    ∃ before, t = before ++ '\x7b' :: o.rest ∧
      ∀ rest, firstOpening? lineStart (before ++ '\x7b' :: rest) =
        some ⟨o.isConstant, o.isAssigned, rest⟩ := by
  induction t generalizing lineStart with
  | nil => simp [firstOpening?] at h
  | cons c t ih =>
      rw [firstOpening?] at h
      rcases Option.or_eq_some_iff.mp h with hline | ⟨hline, hlater⟩
      · cases lineStart with
        | false => simp at hline
        | true =>
            obtain ⟨before, ht, hagain⟩ := openingAtLine?_eq_some hline
            exact ⟨before, ht, fun rest => firstOpening?_of_line (hagain rest)⟩
      · obtain ⟨before, rfl, hagain⟩ := ih hlater
        refine ⟨c :: before, rfl, fun rest => ?_⟩
        rw [List.cons_append, firstOpening?, hagain rest]
        cases lineStart with
        | false => rfl
        | true =>
            rw [if_pos rfl] at hline
            have hnone := openingAtLine?_eq_none (c :: before) hline rest
            rw [if_pos rfl, ← List.cons_append, hnone, Option.none_or]

/-! ## The block behind the brace -/

/-- The two parts of a split block make up the lexemes, and the second begins
with the brace that closes the block. -/
theorem splitBlock_eq_some {depth : Nat} {ls body tail : List Lexeme}
    (h : splitBlock depth ls = some (body, tail)) :
    ls = body ++ tail ∧ tail.head? = some (.plain '\x7d') := by
  induction ls generalizing depth body with
  | nil => simp [splitBlock] at h
  | cons l ls ih =>
      rw [splitBlock.eq_def] at h
      dsimp only at h
      by_cases hl : l = .plain '\x7d'
      · rw [if_pos hl] at h
        cases depth with
        | zero =>
            obtain ⟨rfl, rfl⟩ := by simpa using h
            exact ⟨rfl, by simp [hl]⟩
        | succ depth =>
            obtain ⟨⟨body', tail'⟩, hsplit, heq⟩ := Option.map_eq_some_iff.mp h
            obtain ⟨rfl, rfl⟩ := Prod.mk.inj heq
            obtain ⟨rfl, htail⟩ := ih hsplit
            exact ⟨rfl, htail⟩
      · rw [if_neg hl] at h
        obtain ⟨⟨body', tail'⟩, hsplit, heq⟩ := Option.map_eq_some_iff.mp h
        obtain ⟨rfl, rfl⟩ := Prod.mk.inj heq
        obtain ⟨rfl, htail⟩ := ih hsplit
        exact ⟨rfl, htail⟩

/-- The declaration with a head and the block that stands behind it. -/
def closeBlock (head rest : List Char) : Except SourceFault Declaration :=
  match splitBlock 0 (lexemes rest) with
  | none => .error .unterminated
  | some (body, tail) => .ok ⟨head, textOf body, textOf tail⟩

/-- A text that begins with the brace which closes a block. -/
def ClosesBlock (t : List Char) : Prop :=
  t.head? = some '\x7d'

theorem ClosesBlock.ne_nil (h : ClosesBlock t) : t ≠ [] := by
  rintro rfl
  simp [ClosesBlock] at h

/-- The brace that closes a block makes no comment mark of a slash before it. -/
theorem ClosesBlock.neutral (h : ClosesBlock t) : Neutral t := by
  rw [Neutral, show t.head? = some '\x7d' from h]
  decide

/-- **A block is read on its own as it is read in its source.**  The body and
what follows make up the text, each has on its own the lexemes that it has
there, and those of the body read back before the closing brace. -/
theorem closeBlock_spec (h : closeBlock head rest = .ok d) :
    d.head = head ∧ rest = d.body ++ d.tail ∧ ClosesBlock d.tail ∧
      ReadsBack (lexemes d.body) d.tail := by
  unfold closeBlock at h
  split at h
  · simp at h
  · rename_i body tail hsplit
    cases h
    obtain ⟨hls, htail⟩ := splitBlock_eq_some hsplit
    have hread := readsBack_lexemes rest
    rw [hls, readsBack_append, List.append_nil] at hread
    have htext : rest = textOf body ++ textOf tail := by
      rw [← textOf_append, ← hls, textOf_lexemes]
    obtain ⟨others, rfl⟩ := List.head?_eq_some_iff.mp htail
    have hcloses : ClosesBlock (textOf (.plain '\x7d' :: others)) := rfl
    have hread' := hread.1.at_end hcloses.ne_nil (by rw [show _ = _ from hcloses]; decide)
    have hbody := hread'.lexemes_textOf
    exact ⟨rfl, htext, hcloses, hbody.symm ▸ hread.1⟩

/-- **A head that was found is found again.**  It ends with the brace that opens
the body, and the declaration of a source that begins with it is decided by the
block behind it. -/
theorem findDeclaration_head_append (h : findDeclaration source = .ok d) :
    ∃ before rest, d.head = before ++ ['\x7b'] ∧ source = d.head ++ rest ∧
      closeBlock d.head rest = .ok d ∧
      ∀ rest', findDeclaration (d.head ++ rest') = closeBlock d.head rest' := by
  unfold findDeclaration at h
  split at h
  · simp at h
  · rename_i o hopening
    by_cases hkind : o.isConstant ≠ o.isAssigned
    · simp [hkind] at h
    · rw [if_neg hkind] at h
      obtain ⟨before, rfl, hagain⟩ := firstOpening?_eq_some hopening
      have hhead : ∀ rest', (before ++ '\x7b' :: rest').take
          ((before ++ '\x7b' :: rest').length - rest'.length) = before ++ ['\x7b'] := by
        intro rest'
        have hassoc : before ++ '\x7b' :: rest' = (before ++ ['\x7b']) ++ rest' := by simp
        rw [hassoc, List.length_append, Nat.add_sub_cancel, List.take_left]
      have hfind : ∀ rest', findDeclaration (before ++ '\x7b' :: rest') =
          closeBlock (before ++ ['\x7b']) rest' := by
        intro rest'
        rw [findDeclaration, hagain rest']
        simp only [hhead rest', if_neg hkind]
        rfl
      have hd : closeBlock (before ++ ['\x7b']) o.rest = .ok d := by
        rw [← hfind, findDeclaration, hopening]
        simpa [hkind] using h
      have hdhead : d.head = before ++ ['\x7b'] := (closeBlock_spec hd).1
      refine ⟨before, o.rest, hdhead, by simp [hdhead], hdhead ▸ hd, fun rest' => ?_⟩
      rw [hdhead, ← hfind, List.append_assoc, List.singleton_append]

/-- A declaration makes up its source.  The tail begins with the brace that
closes the body, and the lexemes of the body read back before it. -/
theorem findDeclaration_spec (h : findDeclaration source = .ok d) :
    source = d.head ++ d.body ++ d.tail ∧ ClosesBlock d.tail ∧
      ReadsBack (lexemes d.body) d.tail := by
  obtain ⟨-, rest, -, hsource, hclose, -⟩ := findDeclaration_head_append h
  obtain ⟨-, hrest, htail, hread⟩ := closeBlock_spec hclose
  exact ⟨by rw [hsource, hrest, List.append_assoc], htail, hread⟩

end ClientRegen.EnumSource
