import ClientRegen.Proofs.EnumSource.Completeness
import ClientRegen.Proofs.EnumSource.Scanners
import Mathlib.Data.List.Forall2

/-!
# Scanners that agree

The body of a declaration is scanned twice: as a part of its source, where the
brace that closes it is looked for, and on its own, where its members are taken
apart.  Both scans meet the same strings, comments and bytes
(`ScannedAlike.source_marks`), since no lexeme that starts in the body reaches
past its end.

A member is scanned a third time, in a copy without comments.  This meets the
strings that were copied and no comment, because taking out comments creates no
lexeme (`settled_code`).
-/

namespace ClientRegen.EnumSource

open Text (utf8 size slice?)

variable {bytes bs tail : List UInt8} {b : UInt8} {c : Char} {cs t body source : List Char}
  {index offset depth : Nat} {mark : Mark} {ms : List Mark} {l : Lexeme} {ls ls' q : List Lexeme}
  {d : Declaration}

/-! ## Marks at other offsets -/

/-- A mark that much further on. -/
def Mark.shift (k : Nat) : Mark → Mark
  | literal start stop => literal (k + start) (k + stop)
  | comment start stop => comment (k + start) (k + stop)
  | plain start b => plain (k + start) b

/-- The marks of bytes are moved with their offset. -/
theorem plainMarks_add (k offset : Nat) (bs : List UInt8) :
    plainMarks (k + offset) bs = (plainMarks offset bs).map (Mark.shift k) := by
  induction bs generalizing offset with
  | nil => rfl
  | cons b bs ih => rw [plainMarks, plainMarks, List.map_cons, Nat.add_assoc, ih, Mark.shift]

/-- The marks of a lexeme are moved with its offset. -/
theorem Lexeme.marks_add (k offset : Nat) (l : Lexeme) :
    l.marks (k + offset) = (l.marks offset).map (Mark.shift k) := by
  cases l with
  | literal t => simp [Lexeme.marks, Mark.shift, Nat.add_assoc]
  | comment t => simp [Lexeme.marks, Mark.shift, Nat.add_assoc]
  | plain c => exact plainMarks_add k offset _

/-- The marks of lexemes are moved with their offset. -/
theorem marksOf_add (k offset : Nat) (ls : List Lexeme) :
    marksOf (k + offset) ls = (marksOf offset ls).map (Mark.shift k) := by
  induction ls generalizing offset with
  | nil => rfl
  | cons l ls ih => rw [marksOf, marksOf, List.map_append, Lexeme.marks_add, Nat.add_assoc, ih]

/-- The marks of later lexemes start behind the text of the earlier ones. -/
theorem marksOf_append (offset : Nat) (ls ls' : List Lexeme) :
    marksOf offset (ls ++ ls') = marksOf offset ls ++ marksOf (offset + size (textOf ls)) ls' := by
  induction ls generalizing offset with
  | nil => rfl
  | cons l ls ih =>
      rw [List.cons_append, marksOf, marksOf, ih, List.append_assoc, textOf_cons,
        Text.size_append, Nat.add_assoc]

/-- No mark of lexemes reaches past their text. -/
theorem stop_le_of_mem_marksOf (h : mark ∈ marksOf offset ls) :
    mark.stop ≤ offset + size (textOf ls) := by
  induction ls generalizing offset with
  | nil => cases h
  | cons l ls ih =>
      rw [textOf_cons, Text.size_append]
      rcases List.mem_append.mp h with h | h
      · have hle : mark.stop ≤ offset + size l.text := by
          cases l with
          | literal | comment =>
              rw [List.mem_singleton.mp h]
              exact Nat.le_refl _
          | plain c =>
              obtain ⟨start, b, rfl, -, hlt⟩ := exists_of_mem_plainMarks h
              rw [String.length_utf8EncodeChar] at hlt
              rw [Lexeme.text, Text.size_cons, Text.size_nil]
              exact hlt
        omega
      · have hle := ih h
        omega

/-! ## Braces -/

/-- The blocks that are open behind a mark, unless it closes the block around
them. -/
def Mark.depthAfter? (depth : Nat) : Mark → Option Nat
  | plain _ b =>
    if Char.ofUInt8 b = '\x7d' then depth.ppred
    else some (if Char.ofUInt8 b = '\x7b' then depth + 1 else depth)
  | _ => some depth

/-- Bytes that are no braces leave the depth as it is. -/
theorem foldlM_plainMarks
    (hbs : ∀ b ∈ bs, Char.ofUInt8 b ≠ '\x7b' ∧ Char.ofUInt8 b ≠ '\x7d') (offset depth : Nat) :
    (plainMarks offset bs).foldlM Mark.depthAfter? depth = some depth := by
  induction bs generalizing offset with
  | nil => rfl
  | cons b bs ih =>
      obtain ⟨hb, hbs⟩ := List.forall_mem_cons.mp hbs
      rw [plainMarks, List.foldlM_cons, Mark.depthAfter?, if_neg hb.2, if_neg hb.1]
      exact ih hbs (offset + 1)

/-- Marks open and close the blocks that their lexemes do. -/
theorem foldlM_marksOf (offset depth : Nat) (ls : List Lexeme) :
    (marksOf offset ls).foldlM Mark.depthAfter? depth = ls.foldlM depthAfter? depth := by
  induction ls generalizing offset depth with
  | nil => rfl
  | cons l ls ih =>
      have hfirst : (l.marks offset).foldlM Mark.depthAfter? depth = depthAfter? depth l := by
        cases l with
        | literal | comment => rfl
        | plain c =>
            rcases brace_or_bytes c with (rfl | rfl) | ⟨⟨hopen, hclose⟩, hbs⟩
            · rfl
            · cases depth <;> rfl
            · rw [Lexeme.marks, foldlM_plainMarks hbs, depthAfter?, if_neg (by simpa using hclose),
                if_neg (by simpa using hopen)]
      rw [marksOf, List.foldlM_append, hfirst, List.foldlM_cons]
      exact congrArg _ (funext fun depth => ih _ depth)

/-! ## What is copied -/

/-- The bytes of the string that a mark goes behind. -/
def Mark.string? (bytes : List UInt8) : Mark → Option (List UInt8)
  | literal start stop => some ((bytes.drop start).take (stop - start))
  | _ => none

/-- The bytes of a mark that are copied into a member: all but those of
comments. -/
def Mark.copied (bytes : List UInt8) : Mark → List UInt8
  | literal start stop => (bytes.drop start).take (stop - start)
  | comment _ _ => []
  | plain _ b => [b]

/-- Whether a mark is a comma. -/
def Mark.isComma : Mark → Bool
  | plain _ b => Char.ofUInt8 b == ','
  | _ => false

/-- The bytes of a lexeme that is a string. -/
def Lexeme.string? : Lexeme → Option (List UInt8)
  | literal t => some (utf8 t)
  | _ => none

/-- A text is cut out of the bytes where it stands. -/
theorem StandsAt.take_drop_eq (h : StandsAt bytes offset (utf8 (t ++ cs))) :
    (bytes.drop offset).take (offset + size t - offset) = utf8 t := by
  rw [h.drop_eq, Text.utf8_append, Nat.add_sub_cancel_left, size, List.take_left]

/-- Bytes that are met one by one are copied. -/
theorem flatMap_copied_plainMarks (offset : Nat) (bs : List UInt8) :
    (plainMarks offset bs).flatMap (Mark.copied bytes) = bs := by
  induction bs generalizing offset with
  | nil => rfl
  | cons b bs ih => rw [plainMarks, List.flatMap_cons, ih, Mark.copied, List.singleton_append]

/-- A lexeme that is no comment is copied. -/
theorem flatMap_copied_marks (hcode : l.isComment = false)
    (h : StandsAt bytes offset (utf8 (l.text ++ cs))) :
    (l.marks offset).flatMap (Mark.copied bytes) = utf8 l.text := by
  cases l with
  | literal t =>
      rw [Lexeme.marks, List.flatMap_cons, List.flatMap_nil, List.append_nil]
      exact h.take_drop_eq
  | comment t => simp [Lexeme.isComment] at hcode
  | plain c =>
      rw [Lexeme.marks, flatMap_copied_plainMarks, Lexeme.text, Text.utf8_cons, Text.utf8_nil,
        List.append_nil]

/-- A lexeme has the bytes of its string between its marks. -/
theorem filterMap_string?_marks (h : StandsAt bytes offset (utf8 (l.text ++ cs))) :
    (l.marks offset).filterMap (Mark.string? bytes) = [l].filterMap Lexeme.string? := by
  cases l with
  | literal t =>
      exact congrArg (fun text => [text]) h.take_drop_eq
  | comment t => rfl
  | plain c =>
      rw [Lexeme.marks, List.filterMap_cons_none rfl, List.filterMap_nil,
        List.filterMap_eq_nil_iff]
      intro mark hmark
      obtain ⟨start, b, rfl, -⟩ := exists_of_mem_plainMarks hmark
      rfl

/-- The marks of lexemes have their strings. -/
theorem filterMap_string?_marksOf (h : StandsAt bytes offset (utf8 (textOf ls))) :
    (marksOf offset ls).filterMap (Mark.string? bytes) = ls.filterMap Lexeme.string? := by
  induction ls generalizing offset with
  | nil => rfl
  | cons l ls ih =>
      rw [textOf_cons] at h
      rw [marksOf, List.filterMap_append, filterMap_string?_marks h, ih h.move_text,
        ← List.filterMap_append, List.singleton_append]

/-- Where nothing parts the first elements, they go to the first piece. -/
theorem splitOnP_append {α : Type} {p : α → Bool} {xs : List α} (h : ∀ x ∈ xs, p x = false)
    (ys : List α) : (xs ++ ys).splitOnP p = (ys.splitOnP p).modifyHead (xs ++ ·) := by
  induction xs with
  | nil => cases hys : ys.splitOnP p <;> simp [hys]
  | cons x xs ih =>
      obtain ⟨hx, hxs⟩ := List.forall_mem_cons.mp h
      rw [List.cons_append, List.splitOnP_cons_eq_if_modifyHead, hx, ih hxs,
        List.modifyHead_modifyHead]
      rfl

/-- Only the comma has a mark that is one. -/
theorem isComma_marks (hcomma : l ≠ .plain ',') :
    ∀ mark ∈ l.marks offset, mark.isComma = false := by
  intro mark hmark
  cases l with
  | literal | comment =>
      rw [List.mem_singleton.mp hmark]
      rfl
  | plain c =>
      obtain ⟨start, b, rfl, hb, -⟩ := exists_of_mem_plainMarks hmark
      have hc : c ≠ ',' := by simpa using hcomma
      simpa [Mark.isComma] using (ofUInt8_eq_iff_of_mem (by decide) hb).not.mpr hc

/-- The lexemes of a piece are copied from the marks between two commas, and have
their strings. -/
def IsCopy (bytes : List UInt8) (q : List Lexeme) (group : List Mark) : Prop :=
  group.flatMap (Mark.copied bytes) = utf8 (textOf q) ∧
    group.filterMap (Mark.string? bytes) = q.filterMap Lexeme.string?

/-- The pieces of lexemes are copied from what is met between commas. -/
theorem isCopy_pieces (h : StandsAt bytes offset (utf8 (textOf ls))) :
    List.Forall₂ (IsCopy bytes) (pieces ls) ((marksOf offset ls).splitOnP Mark.isComma) := by
  induction ls generalizing offset with
  | nil => exact .cons ⟨rfl, rfl⟩ .nil
  | cons l ls ih =>
      rw [textOf_cons] at h
      have hrest := ih h.move_text
      by_cases hcomma : l = .plain ','
      · subst hcomma
        rw [pieces_comma]
        exact .cons ⟨rfl, rfl⟩ hrest
      · have hstrings := filterMap_string?_marks h
        rw [marksOf, splitOnP_append (isComma_marks hcomma)]
        obtain ⟨first, others, hpieces⟩ := exists_pieces_cons ls
        rw [hpieces] at hrest
        cases hgroups : (marksOf (offset + size l.text) ls).splitOnP Mark.isComma with
        | nil => exact absurd hgroups (List.splitOnP_ne_nil _ _)
        | cons group groups =>
            rw [hgroups] at hrest
            obtain ⟨⟨hcopied, hstring⟩, hothers⟩ := List.forall₂_cons.mp hrest
            cases hcode : l.isComment with
            | true =>
                cases l with
                | literal | plain => simp [Lexeme.isComment] at hcode
                | comment t =>
                    rw [pieces_comment, hpieces]
                    exact .cons ⟨hcopied, hstring⟩ hothers
            | false =>
                have htext := flatMap_copied_marks hcode h
                rw [pieces_cons hcode hcomma, hpieces]
                refine .cons ⟨?_, ?_⟩ hothers
                · rw [List.flatMap_append, htext, hcopied, textOf_cons, Text.utf8_append]
                · rw [List.filterMap_append, hstrings, hstring, ← List.filterMap_append,
                    List.singleton_append]

/-! ## Pieces read on their own -/

/-- A piece of a body that was copied from the marks between two commas. -/
structure CopiedFrom (bytes : List UInt8) (piece : List Char) (group : List Mark) : Prop where
  /-- It holds the bytes of the strings and the plain bytes, and nothing else. -/
  copied : utf8 piece = group.flatMap (Mark.copied bytes)
  /-- Without the blanks at its ends it is read on its own: no comment is met,
  the strings are those that were copied, and the member is parted at the first
  separator that is met. -/
  scanned : ∃ ms, marks? (utf8 (Text.trim piece)) 0 = some ms ∧
    (∀ mark ∈ ms, mark.isComment = false) ∧
    ms.filterMap (Mark.string? (utf8 (Text.trim piece))) =
      group.filterMap (Mark.string? bytes) ∧
    separator? (utf8 (Text.trim piece)) 0 = some ((ms.find? Mark.isSeparator).map Mark.start)

/-- No mark of lexemes without comments is a comment. -/
theorem isComment_marksOf (hcode : ∀ l ∈ ls, l.isComment = false) :
    ∀ mark ∈ marksOf offset ls, mark.isComment = false := by
  induction ls generalizing offset with
  | nil => simp [marksOf]
  | cons l ls ih =>
      obtain ⟨hl, hcode⟩ := List.forall_mem_cons.mp hcode
      intro mark hmark
      rcases List.mem_append.mp hmark with hmark | hmark
      · cases l with
        | literal =>
            rw [List.mem_singleton.mp hmark]
            rfl
        | comment => cases hl
        | plain c =>
            obtain ⟨start, b, rfl, -⟩ := exists_of_mem_plainMarks hmark
            rfl
      · exact ih hcode mark hmark

/-- Blanks hold no strings. -/
theorem Settled.filterMap_string? (h : Settled ls) (hblank : Text.allBlank (textOf ls) = true) :
    ls.filterMap Lexeme.string? = [] := by
  rw [List.filterMap_eq_nil_iff]
  intro l hl
  rcases h.cases hl with ⟨quote, t, rfl, hquote, -⟩ | ⟨c, rfl, -⟩
  · have hmem : quote ∈ textOf ls := List.mem_flatMap.mpr ⟨_, hl, List.mem_cons_self⟩
    have hb := Text.isBlank_of_allBlank hblank hmem
    rw [isBlank_of_isQuote hquote] at hb
    cases hb
  · rfl

/-- **Taking out comments makes no new token.** -/
theorem Settled.copiedFrom (h : Settled q) {group : List Mark} (hq : IsCopy bytes q group) :
    CopiedFrom bytes (textOf q) group := by
  obtain ⟨before, kept, after, rfl, hkept, hbefore, hafter, htrim⟩ := h.trim_textOf
  have hmarks : marks? (utf8 (textOf kept)) 0 = some (marksOf 0 kept) := by
    rw [marks?_of_standsAt (standsAt_zero _), hkept.lexemes_textOf]
  have hcode : ∀ mark ∈ marksOf 0 kept, mark.isComment = false :=
    isComment_marksOf hkept.isComment_eq
  have hstrings : (marksOf 0 kept).filterMap (Mark.string? (utf8 (textOf kept))) =
      group.filterMap (Mark.string? bytes) := by
    rw [filterMap_string?_marksOf (standsAt_zero _), hq.2, List.filterMap_append,
      List.filterMap_append, h.left.left.filterMap_string? hbefore,
      h.right.filterMap_string? hafter, List.nil_append, List.append_nil]
  refine ⟨hq.1.symm, marksOf 0 kept, ?_⟩
  rw [htrim]
  exact ⟨hmarks, hcode, hstrings, separator?_of_marks? hmarks hcode⟩

/-! ## The scans of a body -/

/-- The scanners agree on a body that stands in a source between two offsets. -/
structure ScannedAlike (source body : List Char) (start stop : Nat) (ms : List Mark) : Prop where
  /-- The body stands there. -/
  slice : slice? source start stop = some body
  /-- The loop over the source finds its end. -/
  closes : closingBrace? (utf8 source) start 0 = some (some stop)
  /-- A brace stands at its end. -/
  brace : (utf8 source)[stop]? = some 0x7D
  /-- What is met in the body on its own. -/
  body_marks : marks? (utf8 body) 0 = some ms
  /-- The same is met in the source up to the brace, as far behind the start of
  the body. -/
  source_marks : ∃ rest, marks? (utf8 source) start =
    some (ms.map (Mark.shift start) ++ .plain stop 0x7D :: rest)
  /-- Nothing that is met reaches past the end of the body. -/
  within : ∀ mark ∈ ms, start + mark.stop ≤ stop
  /-- The braces are balanced, and never close more than was opened. -/
  balanced : ms.foldlM Mark.depthAfter? 0 = some 0
  /-- The pieces that are copied are the texts of the members. -/
  pieces : copyPieces? body 0 [] [] = some (memberTexts (lexemes body))
  /-- Each is copied from what is met between two commas. -/
  copied : List.Forall₂ (CopiedFrom (utf8 body)) (memberTexts (lexemes body))
    (ms.splitOnP Mark.isComma)
  /-- What is met decides whether a comma comes last. -/
  trailing : trailingComma? (utf8 body) = some (hasTrailingComma body) ∧
    hasTrailingComma body = ((ms.filterMap Mark.told?).getLast?.map Char.ofUInt8 == some ',')

/-- **The scanners agree.** -/
theorem findDeclaration_scannedAlike (h : findDeclaration source = .ok d) :
    ∃ ms, ScannedAlike source d.body (size d.head) (size (d.head ++ d.body)) ms := by
  obtain ⟨hsource, htail, hread⟩ := findDeclaration_spec h
  obtain ⟨-, rest, -, -, hclose, -⟩ := findDeclaration_head_append h
  obtain ⟨others, hothers⟩ := htail.exists_lexemes
  have hdepth := foldlM_depthAfter?_body hclose
  have hlexemes : lexemes (d.body ++ d.tail) = lexemes d.body ++ .plain '\x7d' :: others := by
    have happend := lexemes_textOf_append hread
    rwa [textOf_lexemes, hothers] at happend
  have hstands : StandsAt (utf8 source) (size d.head) (utf8 (d.body ++ d.tail)) := by
    rw [hsource, List.append_assoc]
    exact standsAt_append d.head _
  have hend : StandsAt (utf8 source) (size (d.head ++ d.body)) (utf8 d.tail) := by
    rw [Text.size_append]
    exact hstands.move_text
  have hbody := marks?_of_standsAt (standsAt_zero d.body)
  have htrailing := trailingComma?_utf8 d.body
  refine ⟨marksOf 0 (lexemes d.body), ?_, ?_, ?_, hbody, ?_, ?_, ?_, copyPieces?_zero d.body,
    ?_, htrailing, ?_⟩
  · rw [hsource]
    exact Text.slice?_append d.head d.body d.tail
  · rw [closingBrace?_of_standsAt hstands, hlexemes, splitBlock_append_brace_iff.mpr hdepth,
      Option.map_some, textOf_lexemes, Text.size_append]
  · obtain ⟨t, ht⟩ := List.head?_eq_some_iff.mp htail
    rw [hend.getElem?_eq, ht]
    rfl
  · refine ⟨marksOf (size (d.head ++ d.body) + 1) others, ?_⟩
    rw [marks?_of_standsAt hstands, hlexemes, marksOf_append, textOf_lexemes, ← Text.size_append,
      ← marksOf_add, Nat.add_zero]
    rfl
  · intro mark hmark
    have hle := stop_le_of_mem_marksOf hmark
    rw [textOf_lexemes] at hle
    rw [Text.size_append]
    omega
  · rw [foldlM_marksOf, hdepth]
  · have hcode : Settled (code (lexemes d.body)) := settled_code hread htail.ne_nil
    have hwhole : StandsAt (utf8 d.body) 0 (utf8 (textOf (lexemes d.body))) := by
      rw [textOf_lexemes]
      exact standsAt_zero d.body
    have hcopy := isCopy_pieces hwhole
    have hpieces := (List.forall₂_and_left _ _).mpr
      ⟨fun q hq => settled_of_mem_pieces hcode hq, hcopy⟩
    rw [memberTexts_eq, List.forall₂_map_left_iff]
    exact hpieces.imp fun q group hq => hq.1.copiedFrom hq.2
  · rw [trailingComma?, lastByte?_of_marks? hbody, Option.or_none, Option.map_some,
      Option.some.injEq] at htrailing
    exact htrailing.symm

/-- Braces and marks of comments in strings, quotes in comments, a backslash
before a character of two bytes, and a block inside the body. -/
theorem findDeclaration_scannedAlike_quotes :
    let body := "\n  'é\\é\x7d' = \"/*\", // \x7d'\n  b /* ,' */ = \x7b\x7d'2'\n"
    let source := "export enum A \x7b" ++ body ++ "\x7d\n"
    ∃ ms, findDeclaration source.toList =
        .ok ⟨"export enum A \x7b".toList, body.toList, "\x7d\n".toList⟩ ∧
      ScannedAlike source.toList body.toList 15 62 ms := by
  intro body source
  have hd : findDeclaration source.toList =
      .ok ⟨"export enum A \x7b".toList, body.toList, "\x7d\n".toList⟩ :=
    eq_ok_of_toOption (by decide +kernel)
  have hstop : size ("export enum A \x7b".toList ++ body.toList) = 62 := by decide +kernel
  obtain ⟨ms, hms⟩ := findDeclaration_scannedAlike hd
  exact ⟨ms, hd, hstop ▸ hms⟩

end ClientRegen.EnumSource
