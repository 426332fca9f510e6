import ClientRegen.Proofs.EnumSource.Layout
import ClientRegen.Proofs.EnumSource.Marks

/-!
# The scanners of a source

Four loops scan the bytes of a source or of a part of it: one looks for the
brace that closes a block, one takes the members of a body apart, one looks for
the separator of a member, and one looks for a comma behind the last member.

The first and the last do not look at the bytes other than by what they meet
(`closingBrace?_of_marks?`, `lastByte?_of_marks?`).  The loop for a separator
knows no comments, and finds the first separator that is met where there are
none (`separator?_of_marks?`).  Each loop finds in a text what the functions on
characters find in its lexemes.
-/

namespace ClientRegen.EnumSource

open Text (utf8 size slice? splitBytes?)

variable {bytes bs tail : List UInt8} {b : UInt8} {c : Char} {cs body : List Char}
  {index depth : Nat} {ms : List Mark} {l : Lexeme} {ls : List Lexeme}

/-! ## The brace that closes a block -/

/-- The offset of the brace that closes the block around an offset; `depth`
blocks are open inside it. -/
def closingBrace? (bytes : List UInt8) (index depth : Nat) : Option (Option Nat) :=
  if index < bytes.length then
    match h : meet? bytes index with
    | none => none
    | some mark =>
      have := meet?_bounds h
      match mark with
      | .plain _ b =>
        if Char.ofUInt8 b = '\x7b' then closingBrace? bytes (index + 1) (depth + 1)
        else if Char.ofUInt8 b = '\x7d' then
          if depth = 0 then some (some index) else closingBrace? bytes (index + 1) (depth - 1)
        else closingBrace? bytes (index + 1) depth
      | .literal _ stop => closingBrace? bytes stop depth
      | .comment _ stop => closingBrace? bytes stop depth
  else some none
termination_by bytes.length - index
decreasing_by all_goals (simp only [Mark.stop] at this; omega)

/-- The offset of the brace that closes the block around marks. -/
def closingMark? : Nat → List Mark → Option Nat
  | _, [] => none
  | depth, .plain offset b :: ms =>
    if Char.ofUInt8 b = '\x7b' then closingMark? (depth + 1) ms
    else if Char.ofUInt8 b = '\x7d' then
      if depth = 0 then some offset else closingMark? (depth - 1) ms
    else closingMark? depth ms
  | depth, .literal _ _ :: ms => closingMark? depth ms
  | depth, .comment _ _ :: ms => closingMark? depth ms

/-- One turn of the loop for the closing brace, told by the mark that it meets. -/
theorem closingBrace?_of_meet? (mark : Mark) (depth : Nat) : meet? bytes index = some mark →
    closingBrace? bytes index depth =
      match mark with
      | .plain _ b =>
        if Char.ofUInt8 b = '\x7b' then closingBrace? bytes (index + 1) (depth + 1)
        else if Char.ofUInt8 b = '\x7d' then
          if depth = 0 then some (some index) else closingBrace? bytes (index + 1) (depth - 1)
        else closingBrace? bytes (index + 1) depth
      | .literal _ stop => closingBrace? bytes stop depth
      | .comment _ stop => closingBrace? bytes stop depth := by
  intro h
  rw [closingBrace?, if_pos (meet?_bounds h).1]
  split
  · simp_all
  · rename_i mark' hmark'
    rw [h, Option.some.injEq] at hmark'
    subst hmark'
    cases mark <;> rfl

/-- **The loop finds the brace that the marks say closes the block.** -/
theorem closingBrace?_of_marks? (h : marks? bytes index = some ms) (depth : Nat) :
    closingBrace? bytes index depth = some (closingMark? depth ms) := by
  induction ms generalizing index depth with
  | nil =>
      rw [closingBrace?, if_neg (Nat.not_lt.mpr (marks?_eq_some_nil_iff.mp h))]
      rfl
  | cons mark ms ih =>
      obtain ⟨hmark, hms⟩ := marks?_eq_some_cons_iff.mp h
      have hstart := (meet?_bounds hmark).2.1
      rw [closingBrace?_of_meet? mark depth hmark]
      cases mark with
      | literal | comment => exact ih hms depth
      | plain offset b =>
          have hoffset : offset = index := hstart
          subst hoffset
          have hnext : ∀ depth, closingBrace? bytes (offset + 1) depth =
              some (closingMark? depth ms) := fun depth => ih hms depth
          dsimp only
          unfold closingMark?
          split_ifs with hopen hclose
          · exact hnext (depth + 1)
          · rfl
          · exact hnext (depth - 1)
          · exact hnext depth

/-- Plain bytes other than braces do not matter for the closing one. -/
theorem closingMark?_plainMarks_append
    (hbs : ∀ b ∈ bs, Char.ofUInt8 b ≠ '\x7b' ∧ Char.ofUInt8 b ≠ '\x7d') (offset : Nat)
    (ms : List Mark) :
    closingMark? depth (plainMarks offset bs ++ ms) = closingMark? depth ms := by
  induction bs generalizing offset with
  | nil => rfl
  | cons b bs ih =>
      obtain ⟨hb, hbs⟩ := List.forall_mem_cons.mp hbs
      rw [plainMarks, List.cons_append, closingMark?, if_neg hb.1, if_neg hb.2, ih hbs]

/-- A character is a brace, or none of its bytes is. -/
theorem brace_or_bytes (c : Char) :
    (c = '\x7b' ∨ c = '\x7d') ∨
      (c ≠ '\x7b' ∧ c ≠ '\x7d') ∧ ∀ b ∈ String.utf8EncodeChar c,
        Char.ofUInt8 b ≠ '\x7b' ∧ Char.ofUInt8 b ≠ '\x7d' := by
  by_cases hopen : c = '\x7b'
  · exact Or.inl (Or.inl hopen)
  · by_cases hclose : c = '\x7d'
    · exact Or.inl (Or.inr hclose)
    · exact Or.inr ⟨⟨hopen, hclose⟩, fun b hb =>
        ⟨(ofUInt8_eq_iff_of_mem (by decide) hb).not.mpr hopen,
          (ofUInt8_eq_iff_of_mem (by decide) hb).not.mpr hclose⟩⟩

/-- **The brace that closes a block stands behind the lexemes of the block.** -/
theorem closingMark?_marksOf (offset depth : Nat) (ls : List Lexeme) :
    closingMark? depth (marksOf offset ls) =
      (splitBlock depth ls).map fun r => offset + size (textOf r.1) := by
  induction ls generalizing offset depth with
  | nil => rfl
  | cons l ls ih =>
      have hbehind : ∀ depth, closingMark? depth (marksOf (offset + size l.text) ls) =
          ((splitBlock depth ls).map fun r => (l :: r.1, r.2)).map
            fun r => offset + size (textOf r.1) := by
        intro depth
        rw [ih, Option.map_map]
        refine congrArg (Option.map · _) (funext fun r => ?_)
        simp only [Function.comp_apply, textOf_cons, Text.size_append]
        omega
      rw [marksOf]
      cases l with
      | literal t => exact hbehind depth
      | comment t => exact hbehind depth
      | plain c =>
          rcases brace_or_bytes c with (rfl | rfl) | ⟨⟨hopen, hclose⟩, hbs⟩
          · exact hbehind (depth + 1)
          · cases depth with
            | zero => rfl
            | succ depth => exact hbehind depth
          · have hsplit : splitBlock depth (.plain c :: ls) =
                (splitBlock depth ls).map fun r => (.plain c :: r.1, r.2) := by
              rw [splitBlock.eq_def]
              simp [hopen, hclose]
            rw [Lexeme.marks, closingMark?_plainMarks_append hbs, hbehind, hsplit]

/-- **The loop over the bytes finds the brace that closes a block of a text.** -/
theorem closingBrace?_of_standsAt (h : StandsAt bytes index (utf8 cs)) (depth : Nat) :
    closingBrace? bytes index depth =
      some ((splitBlock depth (lexemes cs)).map fun r => index + size (textOf r.1)) := by
  rw [closingBrace?_of_marks? (marks?_of_standsAt h), closingMark?_marksOf]

/-! ## The last byte that says something -/

/-- The last byte of a text that says something, from an offset on; a string says
a quote. -/
def lastByte? (bytes : List UInt8) (index : Nat) (last : Option UInt8) : Option (Option UInt8) :=
  if index < bytes.length then
    match h : meet? bytes index with
    | none => none
    | some mark =>
      have := meet?_bounds h
      match mark with
      | .literal _ stop => lastByte? bytes stop (some 0x27)
      | .comment _ stop => lastByte? bytes stop last
      | .plain _ b =>
        lastByte? bytes (index + 1) (if isPlainBlank (Char.ofUInt8 b) then last else some b)
  else some last
termination_by bytes.length - index
decreasing_by all_goals (simp only [Mark.stop] at this; omega)

/-- The byte that a mark says. -/
def Mark.told? : Mark → Option UInt8
  | literal _ _ => some 0x27
  | comment _ _ => none
  | plain _ b => if isPlainBlank (Char.ofUInt8 b) then none else some b

/-- One turn of the loop for the last byte, told by the mark that it meets. -/
theorem lastByte?_of_meet? {mark : Mark} (last : Option UInt8)
    (h : meet? bytes index = some mark) :
    lastByte? bytes index last = lastByte? bytes mark.stop (mark.told?.or last) := by
  obtain ⟨hindex, hstart, -⟩ := meet?_bounds h
  rw [lastByte?, if_pos hindex]
  split
  · simp_all
  · rename_i mark' hmark'
    rw [h, Option.some.injEq] at hmark'
    subst hmark'
    cases mark with
    | literal | comment => rfl
    | plain offset b =>
        have hoffset : offset = index := hstart
        subst hoffset
        simp only [Mark.told?, Mark.stop]
        split <;> rfl

/-- So the loop answers the last byte that a mark says, or what it started with. -/
theorem lastByte?_of_marks? (h : marks? bytes index = some ms) (last : Option UInt8) :
    lastByte? bytes index last = some ((ms.filterMap Mark.told?).getLast?.or last) := by
  induction ms generalizing index last with
  | nil =>
      rw [lastByte?, if_neg (Nat.not_lt.mpr (marks?_eq_some_nil_iff.mp h))]
      rfl
  | cons mark ms ih =>
      obtain ⟨hmark, hms⟩ := marks?_eq_some_cons_iff.mp h
      rw [lastByte?_of_meet? last hmark, ih hms]
      cases htold : mark.told? with
      | none => rw [List.filterMap_cons_none htold, Option.none_or]
      | some b =>
          rw [List.filterMap_cons_some htold, List.getLast?_cons, Option.some_or, Option.some_or]
          cases (ms.filterMap Mark.told?).getLast? <;> rfl

/-- Whether a comma is the last to say something in a body. -/
def trailingComma? (bytes : List UInt8) : Option Bool :=
  (lastByte? bytes 0 none).map fun last => last.map Char.ofUInt8 == some ','

/-- The blanks of ASCII are ASCII. -/
theorem isPlainBlank_lt (h : isPlainBlank c = true) : c.toNat < 128 := by
  simp only [isPlainBlank, Bool.or_eq_true, beq_iff_eq, or_assoc] at h
  rcases h with rfl | rfl | rfl | rfl | h
  · decide
  · decide
  · decide
  · decide
  · omega

/-- The last byte of a lexeme that says something. -/
def Lexeme.lastByte? : Lexeme → Option UInt8
  | literal _ => some 0x27
  | comment _ => none
  | plain c => (String.utf8EncodeChar c).getLast?

/-- Plain bytes that are no blanks all say something. -/
theorem filterMap_told?_plainMarks
    (hbs : ∀ b ∈ bs, isPlainBlank (Char.ofUInt8 b) = false) (offset : Nat) :
    (plainMarks offset bs).filterMap Mark.told? = bs := by
  induction bs generalizing offset with
  | nil => rfl
  | cons b bs ih =>
      obtain ⟨hb, hbs⟩ := List.forall_mem_cons.mp hbs
      have htold : (Mark.plain offset b).told? = some b := by
        simp [Mark.told?, hb]
      rw [plainMarks, List.filterMap_cons_some htold, ih hbs]

/-- The marks of a lexeme say last what the lexeme does. -/
theorem getLast?_told?_marks (offset : Nat) (l : Lexeme) :
    ((l.marks offset).filterMap Mark.told?).getLast? =
      if l.isTelling then l.lastByte? else none := by
  cases l with
  | literal | comment => rfl
  | plain c =>
      have hblank : ∀ b ∈ String.utf8EncodeChar c,
          (isPlainBlank (Char.ofUInt8 b) = true ↔ isPlainBlank c = true) := fun b hb =>
        class_iff_of_mem (p := (isPlainBlank · = true)) (fun _ => isPlainBlank_lt) hb
      cases hc : isPlainBlank c with
      | true =>
          obtain ⟨b, hbytes, hb⟩ := Text.exists_byte (isPlainBlank_lt hc)
          simp [Lexeme.marks, hbytes, plainMarks, Mark.told?, hb, hc, Lexeme.isTelling]
      | false =>
          have hbs : ∀ b ∈ String.utf8EncodeChar c, isPlainBlank (Char.ofUInt8 b) = false := by
            intro b hb
            rw [← Bool.not_eq_true, hblank b hb, hc]
            exact Bool.false_ne_true
          rw [Lexeme.marks, filterMap_told?_plainMarks hbs]
          simp [Lexeme.isTelling, hc, Lexeme.lastByte?]

/-- A lexeme that says something has a last byte. -/
theorem exists_lastByte? (h : l.isTelling = true) : ∃ b, l.lastByte? = some b := by
  cases l with
  | literal t => exact ⟨0x27, rfl⟩
  | comment t => cases h
  | plain c =>
      obtain ⟨b, hb, -⟩ := exists_getLast?_eq c
      exact ⟨b, hb⟩

/-- The marks of lexemes say last what the last telling lexeme does. -/
theorem getLast?_told?_marksOf (offset : Nat) (ls : List Lexeme) :
    ((marksOf offset ls).filterMap Mark.told?).getLast? =
      (lastTelling? ls).bind Lexeme.lastByte? := by
  induction ls generalizing offset with
  | nil => rfl
  | cons l ls ih =>
      have hlast : lastTelling? (l :: ls) = (lastTelling? ls).or (lastTelling? [l]) :=
        lastTelling?_append [l] ls
      rw [marksOf, List.filterMap_append, List.getLast?_append, ih, hlast, getLast?_told?_marks]
      cases hbehind : lastTelling? ls with
      | none =>
          rw [Option.none_or, Option.bind_none, Option.none_or, lastTelling?]
          cases htelling : l.isTelling <;> simp [htelling]
      | some l' =>
          obtain ⟨b, hb⟩ := exists_lastByte? (mem_of_lastTelling? hbehind).2
          rw [Option.some_or, Option.bind_some, hb, Option.some_or]

/-- Only a comma ends with the byte of a comma. -/
theorem lastByte?_eq_comma_iff :
    l.lastByte?.map Char.ofUInt8 = some ',' ↔ l = .plain ',' := by
  cases l with
  | literal t =>
      have hquote : Char.ofUInt8 0x27 ≠ ',' := by decide
      simp [Lexeme.lastByte?, hquote]
  | comment t => simp [Lexeme.lastByte?]
  | plain c =>
      obtain ⟨b, hb, hmem⟩ := exists_getLast?_eq c
      rw [Lexeme.lastByte?, hb, Option.map_some, Option.some.injEq, Lexeme.plain.injEq]
      exact ofUInt8_eq_iff_of_mem (by decide) hmem

/-- **The loop over the bytes finds the trailing comma of a body.** -/
theorem trailingComma?_utf8 (body : List Char) :
    trailingComma? (utf8 body) = some (hasTrailingComma body) := by
  rw [trailingComma?, lastByte?_of_marks? (marks?_of_standsAt (standsAt_zero body)),
    getLast?_told?_marksOf, Option.or_none, Option.map_some, Option.some.injEq, hasTrailingComma,
    ← lastTelling?, Bool.eq_iff_iff, beq_iff_eq, beq_iff_eq]
  cases lastTelling? (lexemes body) with
  | none => simp
  | some l => rw [Option.bind_some, lastByte?_eq_comma_iff, Option.some.injEq]

/-! ## The pieces of a body -/

/-- The bytes of the first character of a text, or one if there is none. -/
def firstSize : List Char → Nat
  | [] => 1
  | c :: _ => c.utf8Size

theorem firstSize_pos (cs : List Char) : 0 < firstSize cs := by
  cases cs with
  | nil => exact Nat.one_pos
  | cons c cs => exact c.utf8Size_pos

/-- Copies a body from an offset on, without its comments, into the pieces between
its commas. -/
def copyPieces? (body : List Char) (index : Nat) (done : List (List Char)) (current : List Char) :
    Option (List (List Char)) :=
  if index < (utf8 body).length then
    match h : meet? (utf8 body) index with
    | none => none
    | some mark =>
      have := meet?_bounds h
      match mark with
      | .literal _ stop => do
        let text ← slice? body index stop
        copyPieces? body stop done (current ++ text)
      | .comment _ stop => copyPieces? body stop done current
      | .plain _ b =>
        if Char.ofUInt8 b = ',' then copyPieces? body (index + 1) (done ++ [current]) []
        else do
          let (_, rest) ← splitBytes? body index
          have := firstSize_pos rest
          let text ← slice? body index (index + firstSize rest)
          copyPieces? body (index + firstSize rest) done (current ++ text)
  else some (done ++ [current])
termination_by (utf8 body).length - index
decreasing_by all_goals (simp only [Mark.stop] at *; omega)

/-- One turn of the loop that copies a body, told by the mark that it meets. -/
theorem copyPieces?_of_meet? (mark : Mark) (done : List (List Char)) (current : List Char) :
    meet? (utf8 body) index = some mark →
      copyPieces? body index done current =
        match mark with
        | .literal _ stop => (slice? body index stop).bind fun text =>
            copyPieces? body stop done (current ++ text)
        | .comment _ stop => copyPieces? body stop done current
        | .plain _ b =>
          if Char.ofUInt8 b = ',' then copyPieces? body (index + 1) (done ++ [current]) []
          else (splitBytes? body index).bind fun r =>
            (slice? body index (index + firstSize r.2)).bind fun text =>
              copyPieces? body (index + firstSize r.2) done (current ++ text) := by
  intro h
  rw [copyPieces?, if_pos (meet?_bounds h).1]
  split
  · simp_all
  · rename_i mark' hmark'
    rw [h, Option.some.injEq] at hmark'
    subst hmark'
    cases mark <;> rfl

/-- **The pieces that are copied are the texts of the members.** -/
theorem copyPieces?_append (pre cs : List Char) (done : List (List Char)) (current : List Char) :
    copyPieces? (pre ++ cs) (size pre) done current =
      some (done ++ (memberTexts (lexemes cs)).modifyHead (current ++ ·)) := by
  rw [memberTexts_eq]
  fun_induction lexemes cs generalizing pre done current with
  | case1 =>
      rw [copyPieces?, if_neg (by simp)]
      simp [pieces, code]
  | case2 c cs ih =>
      have hmeet := meet?_of_standsAt (standsAt_append pre (c :: cs))
      have happend := next_append c cs
      have hslice := Text.slice?_append pre (next c cs).1.text (next c cs).2
      have hrest := ih (pre ++ (next c cs).1.text)
      rw [List.append_assoc, happend, Text.size_append] at hslice hrest
      obtain ⟨first, others, hpieces⟩ := exists_pieces_cons (lexemes (next c cs).2)
      rw [hpieces] at hrest
      cases hl : (next c cs).1 with
      | literal t =>
          rw [hl] at hmeet hslice hrest
          rw [copyPieces?_of_meet? _ done current hmeet, pieces_cons rfl (by simp), hpieces]
          dsimp only
          rw [show size t = size (Lexeme.literal t).text from rfl, hslice, Option.bind_some, hrest]
          simp
      | comment t =>
          rw [hl] at hmeet hrest
          rw [copyPieces?_of_meet? _ done current hmeet, pieces_comment, hpieces]
          exact hrest done current
      | plain d =>
          obtain ⟨b, bs, hbytes, -⟩ := exists_utf8EncodeChar_eq_cons d
          have hcomma : Char.ofUInt8 b = ',' ↔ d = ',' :=
            ofUInt8_eq_iff_of_mem (by decide) (by simp [hbytes])
          rw [hl] at hmeet hslice hrest happend
          obtain ⟨rfl, hcs⟩ := List.cons.inj happend
          rw [Lexeme.marks, hbytes] at hmeet
          rw [copyPieces?_of_meet? _ done current hmeet]
          dsimp only
          by_cases hc : d = ','
          · subst hc
            rw [if_pos (hcomma.mpr rfl), pieces_comma, hpieces]
            exact (hrest (done ++ [current]) []).trans (by simp)
          · have hsplit := Text.splitBytes?_append pre (d :: cs)
            have hsize : size (Lexeme.plain d).text = d.utf8Size := by
              simp [Lexeme.text]
            rw [hsize] at hslice hrest
            rw [if_neg (hcomma.not.mpr hc), hsplit, Option.bind_some, firstSize, hslice,
              Option.bind_some, hrest, pieces_cons rfl (by simpa using hc), hpieces]
            simp

/-- **From the start the loop copies the pieces of the members.** -/
theorem copyPieces?_zero (body : List Char) :
    copyPieces? body 0 [] [] = some (memberTexts (lexemes body)) := by
  have hcopy := copyPieces?_append [] body [] []
  cases htexts : memberTexts (lexemes body) <;> simpa [htexts] using hcopy

/-! ## The separator of a member -/

/-- Skipping a string moves on. -/
theorem skipString?_lt {stop : Nat} (hindex : index < bytes.length)
    (h : skipString? bytes index = some stop) : index < stop := by
  obtain ⟨stop', hstop', hlt, -⟩ := skipString?_bounds hindex
  rw [h, Option.some.injEq] at hstop'
  exact hstop' ▸ hlt

/-- The offset of the first separator outside of strings, from an offset on. -/
def separator? (bytes : List UInt8) (index : Nat) : Option (Option Nat) :=
  if hindex : index < bytes.length then
    match bytes[index]? with
    | none => none
    | some b =>
      if isQuote (Char.ofUInt8 b) then
        match h : skipString? bytes index with
        | none => none
        | some stop =>
          have := skipString?_lt hindex h
          separator? bytes stop
      else if Char.ofUInt8 b = '=' ∨ Char.ofUInt8 b = ':' then some (some index)
      else separator? bytes (index + 1)
  else some none
termination_by bytes.length - index

/-- A string is passed over in the search for a separator. -/
theorem separator?_of_string {stop : Nat} (hb : bytes[index]? = some b)
    (hquote : isQuote (Char.ofUInt8 b) = true) (hskip : skipString? bytes index = some stop) :
    separator? bytes index = separator? bytes stop := by
  rw [separator?, dif_pos (List.getElem?_eq_some_iff.mp hb).1]
  simp only [hb, hquote, if_true]
  split <;> simp_all

/-- Any other byte is a separator or is passed over. -/
theorem separator?_of_byte (hb : bytes[index]? = some b)
    (hquote : isQuote (Char.ofUInt8 b) = false) :
    separator? bytes index =
      if Char.ofUInt8 b = '=' ∨ Char.ofUInt8 b = ':' then some (some index)
      else separator? bytes (index + 1) := by
  rw [separator?, dif_pos (List.getElem?_eq_some_iff.mp hb).1]
  simp only [hb, hquote, if_false, Bool.false_eq_true]

/-- Whether a mark is a separator. -/
def Mark.isSeparator : Mark → Bool
  | plain _ b => Char.ofUInt8 b == '=' || Char.ofUInt8 b == ':'
  | _ => false

/-- Whether a mark is a comment. -/
def Mark.isComment : Mark → Bool
  | comment _ _ => true
  | _ => false

/-- Where no comment is met, the loop finds the first separator that is met. -/
theorem separator?_of_marks? (h : marks? bytes index = some ms)
    (hcode : ∀ mark ∈ ms, mark.isComment = false) :
    separator? bytes index = some ((ms.find? Mark.isSeparator).map Mark.start) := by
  induction ms generalizing index with
  | nil =>
      rw [separator?, dif_neg (Nat.not_lt.mpr (marks?_eq_some_nil_iff.mp h))]
      rfl
  | cons mark ms ih =>
      obtain ⟨hmark, hms⟩ := marks?_eq_some_cons_iff.mp h
      have hstart := (meet?_bounds hmark).2.1
      obtain ⟨hfirst, hcode⟩ := List.forall_mem_cons.mp hcode
      have hnext := ih hms hcode
      cases mark with
      | comment => cases hfirst
      | literal start stop =>
          obtain ⟨b, hb, hquote, hskip⟩ := meet?_eq_literal hmark
          rw [separator?_of_string hb hquote hskip]
          exact hnext
      | plain start b =>
          obtain ⟨hb, hquote⟩ := meet?_eq_plain hmark
          have hoffset : start = index := hstart
          subst hoffset
          rw [separator?_of_byte hb hquote]
          split_ifs with hseparator
          · rw [List.find?_cons_of_pos (by simpa [Mark.isSeparator] using hseparator)]
            rfl
          · rw [List.find?_cons_of_neg (by simpa [Mark.isSeparator] using hseparator)]
            exact hnext

/-- So bytes that are neither quotes nor separators are passed over all together. -/
theorem separator?_of_bytes
    (hbs : ∀ b ∈ bs, isQuote (Char.ofUInt8 b) = false ∧
      ¬ (Char.ofUInt8 b = '=' ∨ Char.ofUInt8 b = ':'))
    (h : StandsAt bytes index (bs ++ tail)) :
    separator? bytes index = separator? bytes (index + bs.length) := by
  induction bs generalizing index with
  | nil => rfl
  | cons b bs ih =>
      obtain ⟨⟨hquote, hseparator⟩, hbs⟩ := List.forall_mem_cons.mp hbs
      have hmove : StandsAt bytes (index + 1) (bs ++ tail) := h.move_byte
      rw [separator?_of_byte h.getElem?_eq hquote, if_neg hseparator, ih hbs hmove,
        List.length_cons]
      congr 1
      omega

/-- A byte of a character is a separator only if the character is. -/
theorem isSeparator_iff_of_mem (hb : b ∈ String.utf8EncodeChar c) :
    Char.ofUInt8 b = '=' ∨ Char.ofUInt8 b = ':' ↔ c = '=' ∨ c = ':' :=
  or_congr (ofUInt8_eq_iff_of_mem (by decide) hb) (ofUInt8_eq_iff_of_mem (by decide) hb)

/-- **The loop over the bytes finds the separator of a member.** -/
theorem separator?_of_standsAt (h : StandsAt bytes index (utf8 cs)) :
    separator? bytes index = some ((splitSeparator? cs).map fun r => index + size r.1) := by
  fun_induction splitSeparator? cs generalizing index with
  | case1 =>
      have hend : ¬ index < bytes.length := by
        rw [h.length_eq]
        simp
      rw [separator?, dif_neg hend]
      rfl
  | case2 c cs hquote hle ih =>
      have hskip := skipString?_of_standsAt hquote h
      obtain ⟨b, hb, hmem⟩ := h.exists_getElem?_eq
      have happend : (c :: (splitLiteral c cs).1) ++ (splitLiteral c cs).2 = c :: cs := by
        rw [List.cons_append, splitLiteral_append]
      rw [← happend] at h
      rw [separator?_of_string hb ((isQuote_iff_of_mem hmem).mpr hquote) hskip, ih h.move_text,
        Option.map_map]
      simp only [Function.comp_def, Text.size_append, Nat.add_assoc]
  | case3 c cs hquote hseparator =>
      obtain ⟨b, hb, hmem⟩ := h.exists_getElem?_eq
      have hbquote : isQuote (Char.ofUInt8 b) = false := by
        rwa [← Bool.not_eq_true, isQuote_iff_of_mem hmem]
      rw [separator?_of_byte hb hbquote, if_pos ((isSeparator_iff_of_mem hmem).mpr hseparator)]
      rfl
  | case4 c cs hquote hseparator ih =>
      have hbs : ∀ b ∈ String.utf8EncodeChar c, isQuote (Char.ofUInt8 b) = false ∧
          ¬ (Char.ofUInt8 b = '=' ∨ Char.ofUInt8 b = ':') := by
        intro b hb
        rw [← Bool.not_eq_true, isQuote_iff_of_mem hb, isSeparator_iff_of_mem hb]
        exact ⟨hquote, hseparator⟩
      rw [separator?_of_bytes hbs h, String.length_utf8EncodeChar, ih h.move_char, Option.map_map]
      simp only [Function.comp_def, Text.size_cons, Nat.add_assoc]

end ClientRegen.EnumSource
