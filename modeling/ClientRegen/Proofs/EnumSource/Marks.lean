import ClientRegen.Proofs.EnumSource.Reading
import ClientRegen.Proofs.EnumSource.Skipping
import ClientRegen.Proofs.Text.Offsets

/-!
# What is met in a text

What a scanner meets in the bytes of a text are its lexemes, each at the offset
where its first character stands, with one mark for every byte of a plain
character (`marks?_of_standsAt`).

The bytes do not know of characters: a backslash takes along one byte, which can
be the first of many that make up a character.  The others are from 128 on, so
they are no quotes and no backslashes, and the string ends where it does when
the whole character is taken along (`stringEnd_of_standsAt`).
-/

namespace ClientRegen.EnumSource

open Text (utf8 size)

variable {bytes bs tail : List UInt8} {b : UInt8} {a c quote : Char} {cs t : List Char}
  {index : Nat}

/-! ## Bytes of a text -/

/-- What stands in the bytes from an offset to their end. -/
def StandsAt (bytes : List UInt8) (index : Nat) (tail : List UInt8) : Prop :=
  ∃ front, bytes = front ++ tail ∧ index = front.length

theorem standsAt_zero (cs : List Char) : StandsAt (utf8 cs) 0 (utf8 cs) :=
  ⟨[], rfl, rfl⟩

/-- Behind a front, what follows it stands at the size of the front. -/
theorem standsAt_append (pre cs : List Char) : StandsAt (utf8 (pre ++ cs)) (size pre) (utf8 cs) :=
  ⟨utf8 pre, Text.utf8_append pre cs, rfl⟩

/-- The bytes are as many as the offset and what stands at it. -/
theorem StandsAt.length_eq (h : StandsAt bytes index tail) :
    bytes.length = index + tail.length := by
  obtain ⟨front, rfl, rfl⟩ := h
  exact List.length_append

/-- What stands at an offset is what is left when the bytes before it are dropped. -/
theorem StandsAt.drop_eq (h : StandsAt bytes index tail) : bytes.drop index = tail := by
  obtain ⟨front, rfl, rfl⟩ := h
  exact List.drop_left

/-- So the byte at an offset is the first of what stands there. -/
theorem StandsAt.getElem?_eq (h : StandsAt bytes index tail) : bytes[index]? = tail.head? := by
  rw [← h.drop_eq, List.head?_drop]

/-- Behind some bytes stands what follows them. -/
theorem StandsAt.move (h : StandsAt bytes index (bs ++ tail)) :
    StandsAt bytes (index + bs.length) tail := by
  obtain ⟨front, rfl, rfl⟩ := h
  exact ⟨front ++ bs, (List.append_assoc front bs tail).symm, List.length_append.symm⟩

/-- The same for one byte. -/
theorem StandsAt.move_byte (h : StandsAt bytes index (b :: tail)) :
    StandsAt bytes (index + 1) tail := by
  have hsingle : StandsAt bytes index ([b] ++ tail) := h
  exact hsingle.move

/-- The same for a text, by its size in bytes. -/
theorem StandsAt.move_text (h : StandsAt bytes index (utf8 (t ++ cs))) :
    StandsAt bytes (index + size t) (utf8 cs) := by
  rw [Text.utf8_append] at h
  exact h.move

/-- The same for one character. -/
theorem StandsAt.move_char (h : StandsAt bytes index (utf8 (c :: cs))) :
    StandsAt bytes (index + c.utf8Size) (utf8 cs) := by
  have hmove := StandsAt.move_text (t := [c]) h
  rwa [Text.size_cons] at hmove

/-- The first byte of a character is followed by bytes from 128 on. -/
theorem exists_utf8EncodeChar_eq_cons (c : Char) : ∃ b bs,
    String.utf8EncodeChar c = b :: bs ∧ ∀ b ∈ bs, 128 ≤ (Char.ofUInt8 b).toNat := by
  obtain ⟨b, bs, hbytes⟩ := List.exists_cons_of_ne_nil (String.utf8EncodeChar_ne_nil (c := c))
  refine ⟨b, bs, hbytes, fun b' hb' => ?_⟩
  rcases Text.utf8EncodeChar_cases c with ⟨b'', hsingle, -⟩ | ⟨-, hmany⟩
  · rw [hbytes, List.cons.injEq] at hsingle
    simp [hsingle.2] at hb'
  · exact hmany b' (hbytes ▸ List.mem_cons_of_mem b hb')

/-- A character has a last byte. -/
theorem exists_getLast?_eq (c : Char) : ∃ b,
    (String.utf8EncodeChar c).getLast? = some b ∧ b ∈ String.utf8EncodeChar c := by
  obtain ⟨b, hb⟩ := Option.isSome_iff_exists.mp
    (List.getLast?_isSome.mpr (String.utf8EncodeChar_ne_nil (c := c)))
  exact ⟨b, hb, List.mem_of_getLast? hb⟩

/-- A class of characters up to 127 has the bytes of a character just when it has
the character. -/
theorem class_iff_of_mem {p : Char → Prop} (hp : ∀ a, p a → a.toNat < 128)
    (hb : b ∈ String.utf8EncodeChar c) : p (Char.ofUInt8 b) ↔ p c := by
  rcases Text.utf8EncodeChar_cases c with ⟨b', hbytes, hb'⟩ | ⟨hc, hbytes⟩
  · rw [hbytes, List.mem_singleton] at hb
    rw [hb, hb']
  · constructor
    · intro h
      exact absurd (hp _ h) (Nat.not_lt.mpr (hbytes b hb))
    · intro h
      exact absurd (hp _ h) (Nat.not_lt.mpr hc)

/-- A byte of a character beyond ASCII is no ASCII character. -/
theorem ofUInt8_ne_of_large (ha : a.toNat < 128) (hb : 128 ≤ (Char.ofUInt8 b).toNat) :
    Char.ofUInt8 b ≠ a := by
  rintro rfl
  exact absurd ha (Nat.not_lt.mpr hb)

/-- **A byte is an ASCII character only if it is the whole of it.** -/
theorem ofUInt8_eq_iff_of_mem (ha : a.toNat < 128) (hb : b ∈ String.utf8EncodeChar c) :
    Char.ofUInt8 b = a ↔ c = a :=
  class_iff_of_mem (p := (· = a)) (by rintro _ rfl; exact ha) hb

theorem isQuote_lt (h : isQuote c = true) : c.toNat < 128 := by
  simp only [isQuote, Bool.or_eq_true, beq_iff_eq] at h
  rcases h with (rfl | rfl) | rfl <;> decide

/-- So quotes are found among the bytes where they stand in the text. -/
theorem isQuote_iff_of_mem (hb : b ∈ String.utf8EncodeChar c) :
    isQuote (Char.ofUInt8 b) = true ↔ isQuote c = true :=
  class_iff_of_mem (p := (isQuote · = true)) (fun _ => isQuote_lt) hb

/-- The byte at the start of a text is one of its first character. -/
theorem StandsAt.exists_getElem?_eq (h : StandsAt bytes index (utf8 (c :: cs))) :
    ∃ b, bytes[index]? = some b ∧ b ∈ String.utf8EncodeChar c := by
  obtain ⟨b, bs, hbytes, -⟩ := exists_utf8EncodeChar_eq_cons c
  refine ⟨b, ?_, by simp [hbytes]⟩
  rw [h.getElem?_eq, Text.utf8_cons, hbytes]
  rfl

/-- A byte at the start of a text is a character up to 127 if the text begins
with that character. -/
theorem StandsAt.getElem?_map_iff (h : StandsAt bytes index (utf8 cs)) (ha : a.toNat < 128) :
    bytes[index]?.map Char.ofUInt8 = some a ↔ cs.head? = some a := by
  cases cs with
  | nil => simp [h.getElem?_eq]
  | cons c cs =>
      obtain ⟨b, hb, hmem⟩ := h.exists_getElem?_eq
      rw [hb, Option.map_some, List.head?_cons, Option.some.injEq, Option.some.injEq]
      exact ofUInt8_eq_iff_of_mem ha hmem

/-! ## The ends of strings and comments in a text -/

/-- Bytes that are neither backslashes nor the quote are stepped over. -/
theorem stringEnd_of_bytes (hbs : ∀ b ∈ bs, Char.ofUInt8 b ≠ '\\' ∧ Char.ofUInt8 b ≠ quote)
    (h : StandsAt bytes index (bs ++ tail)) :
    stringEnd bytes quote index = stringEnd bytes quote (index + bs.length) := by
  induction bs generalizing index with
  | nil => rfl
  | cons b bs ih =>
      obtain ⟨hb, hbs⟩ := List.forall_mem_cons.mp hbs
      have hmove : StandsAt bytes (index + 1) (bs ++ tail) := h.move_byte
      rw [stringEnd_of_some h.getElem?_eq, if_neg hb.1, if_neg hb.2, ih hbs hmove,
        List.length_cons]
      congr 1
      omega

/-- **A string ends where its literal does.** -/
theorem stringEnd_of_standsAt (hquote : isQuote quote = true)
    (h : StandsAt bytes index (utf8 cs)) :
    stringEnd bytes quote index = index + size (splitLiteral quote cs).1 := by
  have hlt := isQuote_lt hquote
  have hmany : ∀ b, 128 ≤ (Char.ofUInt8 b).toNat →
      Char.ofUInt8 b ≠ '\\' ∧ Char.ofUInt8 b ≠ quote := fun b hb =>
    ⟨ofUInt8_ne_of_large (by decide) hb, ofUInt8_ne_of_large hlt hb⟩
  fun_induction splitLiteral quote cs generalizing index with
  | case1 =>
      rw [stringEnd_of_none h.getElem?_eq, h.length_eq]
      rfl
  | case2 =>
      have hend : StandsAt bytes (index + 1) [] := h.move_char
      have hnone : bytes[index + 2]? = none := by
        rw [List.getElem?_eq_none_iff, hend.length_eq]
        exact Nat.le_succ _
      rw [stringEnd_of_some h.getElem?_eq, if_pos (by decide), stringEnd_of_none hnone,
        hend.length_eq]
      rfl
  | case3 c cs body rest hsplit ih =>
      rw [hsplit] at ih
      -- the byte that is taken along begins a character, and its other bytes are stepped over
      obtain ⟨b, bs, hbytes, hbs⟩ := exists_utf8EncodeChar_eq_cons c
      have hchar : StandsAt bytes (index + 1) (utf8 (c :: cs)) := h.move_char
      rw [Text.utf8_cons, hbytes] at hchar
      have hrest : StandsAt bytes (index + 2) (bs ++ utf8 cs) := hchar.move_byte
      have hsize := congrArg List.length hbytes
      rw [String.length_utf8EncodeChar, List.length_cons] at hsize
      rw [stringEnd_of_some h.getElem?_eq, if_pos (by decide),
        stringEnd_of_bytes (fun b hb => hmany b (hbs b hb)) hrest, ih hrest.move]
      dsimp only
      rw [Text.size_cons, Text.size_cons, hsize, show ('\\' : Char).utf8Size = 1 from rfl]
      omega
  | case4 cs hlone hpair =>
      have hhead := (h.getElem?_map_iff hlt).mpr rfl
      obtain ⟨b, hb, rfl⟩ := Option.map_eq_some_iff.mp hhead
      rw [stringEnd_of_some hb, if_neg (ne_backslash_of_isQuote hquote), if_pos rfl]
      dsimp only
      rw [Text.size_cons, Text.utf8Size_eq_one hlt]
      rfl
  | case5 c cs hlone hpair hne body rest hsplit ih =>
      rw [hsplit] at ih
      have hescape : c ≠ '\\' := by
        rintro rfl
        cases cs with
        | nil => exact hlone rfl rfl
        | cons d cs => exact hpair d cs rfl rfl
      have hbs : ∀ b ∈ String.utf8EncodeChar c,
          Char.ofUInt8 b ≠ '\\' ∧ Char.ofUInt8 b ≠ quote := fun b hb =>
        ⟨(ofUInt8_eq_iff_of_mem (by decide) hb).not.mpr hescape,
          (ofUInt8_eq_iff_of_mem hlt hb).not.mpr hne⟩
      rw [stringEnd_of_bytes hbs h, ih h.move, String.length_utf8EncodeChar,
        Text.size_cons, Nat.add_assoc]

/-- Over bytes a string is skipped up to where the literal ends. -/
theorem skipString?_of_standsAt (hquote : isQuote c = true)
    (h : StandsAt bytes index (utf8 (c :: cs))) :
    skipString? bytes index = some (index + size (c :: (splitLiteral c cs).1)) := by
  have hlt := isQuote_lt hquote
  have hfirst := (h.getElem?_map_iff hlt).mpr rfl
  obtain ⟨b, hb, rfl⟩ := Option.map_eq_some_iff.mp hfirst
  have hrest : StandsAt bytes (index + 1) (utf8 cs) := Text.utf8Size_eq_one hlt ▸ h.move_char
  rw [skipString?, hb, Option.map_some, stringEnd_of_standsAt hquote hrest, Text.size_cons,
    Text.utf8Size_eq_one hlt, Nat.add_assoc]

/-- The first line feed among the bytes of a text is the end of its first line. -/
theorem findIdx?_utf8 (cs : List Char) :
    ((utf8 cs).findIdx? (Char.ofUInt8 · = '\n')).getD (size cs) = size (splitLine cs).1 := by
  have hnewline : ('\n' : Char).toNat < 128 := by decide
  fun_induction splitLine cs with
  | case1 => rfl
  | case2 cs => rfl
  | case3 c cs hc line rest hsplit ih =>
      rw [hsplit] at ih
      have hnone : (String.utf8EncodeChar c).findIdx? (Char.ofUInt8 · = '\n') = none := by
        rw [List.findIdx?_eq_none_iff]
        intro b hb
        simpa using (ofUInt8_eq_iff_of_mem hnewline hb).not.mpr hc
      rw [Text.utf8_cons, List.findIdx?_append, hnone, Option.none_or,
        String.length_utf8EncodeChar]
      dsimp only
      rw [Text.size_cons, Text.size_cons, ← ih]
      cases (utf8 cs).findIdx? (Char.ofUInt8 · = '\n') with
      | none => rfl
      | some k => exact Nat.add_comm k c.utf8Size

/-- A comment of one line is skipped up to the end of the line. -/
theorem skipLine?_of_standsAt (h : StandsAt bytes index (utf8 cs)) :
    skipLine? bytes index = some (index + size (splitLine cs).1) := by
  have hlength := h.length_eq
  rw [Text.length_utf8] at hlength
  rw [skipLine?, if_pos (by omega), h.drop_eq, ← findIdx?_utf8]
  cases (utf8 cs).findIdx? (Char.ofUInt8 · = '\n') with
  | none => exact congrArg some hlength
  | some k => rfl

/-- A byte that begins no end of a comment is passed over. -/
theorem commentEnd?_cons (h : Char.ofUInt8 b = '*' → tail.head?.map Char.ofUInt8 ≠ some '/') :
    commentEnd? (b :: tail) = (commentEnd? tail).map (· + 1) := by
  cases tail with
  | nil => rfl
  | cons b' tail =>
      rw [commentEnd?, if_neg]
      rintro ⟨hstar, hslash⟩
      exact h hstar (by rw [List.head?_cons, Option.map_some, hslash])

/-- Bytes other than stars are stepped over. -/
theorem commentEnd?_of_bytes (hbs : ∀ b ∈ bs, Char.ofUInt8 b ≠ '*') (tail : List UInt8) :
    commentEnd? (bs ++ tail) = (commentEnd? tail).map (· + bs.length) := by
  induction bs with
  | nil => simp
  | cons b bs ih =>
      obtain ⟨hb, hbs⟩ := List.forall_mem_cons.mp hbs
      rw [List.cons_append, commentEnd?_cons fun hstar => absurd hstar hb, ih hbs, Option.map_map]
      rfl

/-- **A block comment ends where its text does.** -/
theorem commentEnd?_utf8 (cs : List Char) :
    ((commentEnd? (utf8 cs)).map (· + 2)).getD (size cs) = size (splitComment cs).1 := by
  fun_induction splitComment cs with
  | case1 => rfl
  | case2 cs => rfl
  | case3 c cs hmark text rest hsplit ih =>
      rw [hsplit] at ih
      have hstep : commentEnd? (utf8 (c :: cs)) =
          (commentEnd? (utf8 cs)).map (· + c.utf8Size) := by
        by_cases hstar : c = '*'
        · subst hstar
          have hnext : (utf8 cs).head?.map Char.ofUInt8 ≠ some '/' := by
            have hstands := standsAt_zero cs
            rw [← hstands.getElem?_eq, Ne, hstands.getElem?_map_iff (by decide)]
            intro hslash
            obtain ⟨cs, rfl⟩ := List.head?_eq_some_iff.mp hslash
            exact hmark cs rfl rfl
          exact commentEnd?_cons fun _ => hnext
        · rw [Text.utf8_cons, commentEnd?_of_bytes fun b hb =>
            (ofUInt8_eq_iff_of_mem (by decide) hb).not.mpr hstar, String.length_utf8EncodeChar]
      rw [hstep]
      dsimp only
      rw [Text.size_cons, Text.size_cons, ← ih]
      cases commentEnd? (utf8 cs) with
      | none => rfl
      | some k =>
          simp only [Option.map_some, Option.getD_some]
          omega

/-- A block comment is skipped up to and with its end. -/
theorem skipBlock?_of_standsAt (h : StandsAt bytes (index + 2) (utf8 cs)) :
    skipBlock? bytes index = some (index + 2 + size (splitComment cs).1) := by
  have hlength := h.length_eq
  rw [Text.length_utf8] at hlength
  rw [skipBlock?, if_pos (by omega), h.drop_eq, ← commentEnd?_utf8]
  cases commentEnd? (utf8 cs) with
  | none => exact congrArg some hlength
  | some k => rfl

/-- **A closed string is skipped as a whole,** whatever stands around it. -/
theorem skipString?_of_closed (h : (Lexeme.literal t).Closed) (before rest : List Char) :
    skipString? (utf8 (before ++ t ++ rest)) (size before) = some (size (before ++ t)) := by
  cases h with
  | @literal quote t hquote hclosed =>
      have hstands := standsAt_append before (quote :: (t ++ rest))
      have hassoc : before ++ quote :: t ++ rest = before ++ quote :: (t ++ rest) := by simp
      rw [hassoc, skipString?_of_standsAt hquote hstands,
        hclosed.split (ne_backslash_of_isQuote hquote), Text.size_append]

/-- **A closed block comment is skipped as a whole,** whatever stands around
it. -/
theorem skipBlock?_of_closed (h : (Lexeme.comment t).Closed) (before rest : List Char) :
    skipBlock? (utf8 (before ++ t ++ rest)) (size before) = some (size (before ++ t)) := by
  cases h with
  | @block t hclosed =>
      have hstands := standsAt_append (before ++ ['/', '*']) (t ++ rest)
      have hassoc : before ++ '/' :: '*' :: t ++ rest = (before ++ ['/', '*']) ++ (t ++ rest) := by
        simp
      have hsize : size (before ++ '/' :: '*' :: t) = size (before ++ ['/', '*']) + size t := by
        rw [← Text.size_append, List.append_assoc]
        rfl
      have hmark : size (before ++ ['/', '*']) = size before + 2 := Text.size_append _ _
      rw [hmark] at hstands hsize
      rw [hassoc, skipBlock?_of_standsAt hstands, hclosed.split, hsize]

/-! ## The marks of lexemes -/

/-- The marks of bytes that are met one by one. -/
def plainMarks (offset : Nat) : List UInt8 → List Mark
  | [] => []
  | b :: bs => .plain offset b :: plainMarks (offset + 1) bs

/-- Bytes that are met one by one start one behind another. -/
theorem exists_of_mem_plainMarks {mark : Mark} {offset : Nat} (h : mark ∈ plainMarks offset bs) :
    ∃ start b, mark = .plain start b ∧ b ∈ bs ∧ start < offset + bs.length := by
  induction bs generalizing offset with
  | nil => cases h
  | cons b bs ih =>
      rw [List.length_cons]
      rcases List.mem_cons.mp h with rfl | h
      · exact ⟨offset, b, rfl, List.mem_cons_self, by omega⟩
      · obtain ⟨start, b', rfl, hmem, hlt⟩ := ih h
        exact ⟨start, b', rfl, List.mem_cons_of_mem b hmem, by omega⟩

/-- What is met where a lexeme stands. -/
def Lexeme.marks (offset : Nat) : Lexeme → List Mark
  | literal t => [.literal offset (offset + size t)]
  | comment t => [.comment offset (offset + size t)]
  | plain c => plainMarks offset (String.utf8EncodeChar c)

/-- What is met where lexemes stand one behind another. -/
def marksOf (offset : Nat) : List Lexeme → List Mark
  | [] => []
  | l :: ls => l.marks offset ++ marksOf (offset + size l.text) ls

/-- A string is met at a quote. -/
theorem meet?_of_quote (hquote : isQuote c = true) (h : StandsAt bytes index (utf8 (c :: cs))) :
    meet? bytes index =
      some (.literal index (index + size (c :: (splitLiteral c cs).1))) := by
  obtain ⟨b, hb, hmem⟩ := h.exists_getElem?_eq
  simp only [meet?, hb, Option.bind_eq_bind, Option.bind_some, (isQuote_iff_of_mem hmem).mpr hquote,
    if_true, skipString?_of_standsAt hquote h, Option.pure_def]

/-- A line comment is met at two slashes. -/
theorem meet?_of_line (h : StandsAt bytes index (utf8 ('/' :: '/' :: cs))) :
    meet? bytes index =
      some (.comment index (index + size ('/' :: '/' :: (splitLine cs).1))) := by
  have hnext : StandsAt bytes (index + 1) (utf8 ('/' :: cs)) := h.move_char
  have hsecond := (hnext.getElem?_map_iff (a := '/') (by decide)).mpr rfl
  obtain ⟨b, hb, hslash⟩ :=
    Option.map_eq_some_iff.mp ((h.getElem?_map_iff (a := '/') (by decide)).mpr rfl)
  have hquote : ¬ isQuote '/' := by decide
  have hsplit : (splitLine ('/' :: '/' :: cs)).1 = '/' :: '/' :: (splitLine cs).1 := by
    simp [splitLine]
  simp only [meet?, hb, Option.bind_eq_bind, Option.bind_some, hslash, if_neg hquote, hsecond,
    and_self, if_true, skipLine?_of_standsAt h, hsplit, Option.pure_def]

/-- A block comment is met at a slash before a star. -/
theorem meet?_of_block (h : StandsAt bytes index (utf8 ('/' :: '*' :: cs))) :
    meet? bytes index =
      some (.comment index (index + size ('/' :: '*' :: (splitComment cs).1))) := by
  have hnext : StandsAt bytes (index + 1) (utf8 ('*' :: cs)) := h.move_char
  have hrest : StandsAt bytes (index + 2) (utf8 cs) := hnext.move_char
  have hsecond := (hnext.getElem?_map_iff (a := '*') (by decide)).mpr rfl
  obtain ⟨b, hb, hslash⟩ :=
    Option.map_eq_some_iff.mp ((h.getElem?_map_iff (a := '/') (by decide)).mpr rfl)
  have hquote : ¬ isQuote '/' := by decide
  have hline : ¬ some '*' = some '/' := by decide
  have hsize : size ('/' :: '*' :: (splitComment cs).1) = 2 + size (splitComment cs).1 := by
    rw [Text.size_cons, Text.size_cons, ← Nat.add_assoc]
    rfl
  simp only [meet?, hb, Option.bind_eq_bind, Option.bind_some, hslash, if_neg hquote, hsecond,
    true_and, if_neg hline, if_true, skipBlock?_of_standsAt hrest, hsize, Option.pure_def,
    Nat.add_assoc]

/-- At any other character its first byte is met. -/
theorem meet?_of_plain (hquote : ¬ isQuote c)
    (hcomment : c = '/' → cs.head? ≠ some '/' ∧ cs.head? ≠ some '*')
    (h : StandsAt bytes index (utf8 (c :: cs))) :
    meet? bytes index = ((Lexeme.plain c).marks index).head? := by
  obtain ⟨b, bs, hbytes, -⟩ := exists_utf8EncodeChar_eq_cons c
  have hmem : b ∈ String.utf8EncodeChar c := by simp [hbytes]
  have hb : bytes[index]? = some b := by
    rw [h.getElem?_eq, Text.utf8_cons, hbytes]
    rfl
  have hmark : ∀ a : Char, a.toNat < 128 → (c = '/' → cs.head? ≠ some a) →
      ¬ (Char.ofUInt8 b = '/' ∧ bytes[index + 1]?.map Char.ofUInt8 = some a) := by
    rintro a ha hne ⟨hslash, hnext⟩
    obtain rfl := (ofUInt8_eq_iff_of_mem (by decide) hmem).mp hslash
    have hmove : StandsAt bytes (index + 1) (utf8 cs) := h.move_char
    exact hne rfl ((hmove.getElem?_map_iff ha).mp hnext)
  have hline := hmark '/' (by decide) fun hc => (hcomment hc).1
  have hblock := hmark '*' (by decide) fun hc => (hcomment hc).2
  rw [Lexeme.marks, hbytes]
  simp only [meet?, hb, Option.bind_eq_bind, Option.bind_some, isQuote_iff_of_mem hmem,
    if_neg hquote, if_neg hline, if_neg hblock]
  rfl

/-- **What is met at the start of a lexeme is its first mark.** -/
theorem meet?_of_standsAt (h : StandsAt bytes index (utf8 (c :: cs))) :
    meet? bytes index = ((next c cs).1.marks index).head? := by
  unfold next
  split
  · rename_i hquote
    exact meet?_of_quote hquote h
  · rename_i hquote
    split
    · rename_i hslash
      subst hslash
      split
      · exact meet?_of_line h
      · exact meet?_of_block h
      · rename_i hline hblock
        refine meet?_of_plain hquote (fun _ => ⟨fun hhead => ?_, fun hhead => ?_⟩) h
        · obtain ⟨ds, rfl⟩ := List.head?_eq_some_iff.mp hhead
          exact hline ds rfl
        · obtain ⟨ds, rfl⟩ := List.head?_eq_some_iff.mp hhead
          exact hblock ds rfl
    · rename_i hslash
      exact meet?_of_plain hquote (fun hc => absurd hc hslash) h

/-- A byte from 128 on is met as itself. -/
theorem meet?_of_large (hlarge : 128 ≤ (Char.ofUInt8 b).toNat) (h : bytes[index]? = some b) :
    meet? bytes index = some (.plain index b) := by
  have hquote : ¬ isQuote (Char.ofUInt8 b) := fun hquote =>
    absurd (isQuote_lt hquote) (Nat.not_lt.mpr hlarge)
  have hslash := ofUInt8_ne_of_large (a := '/') (by decide) hlarge
  simp [meet?, h, hquote, hslash]

/-- Behind a byte that is met as itself, bytes from 128 on are met one by one. -/
theorem marks?_of_bytes (hmeet : meet? bytes index = some (.plain index b))
    (hbs : ∀ b ∈ bs, 128 ≤ (Char.ofUInt8 b).toNat)
    (h : StandsAt bytes index ((b :: bs) ++ tail)) :
    marks? bytes index =
      (marks? bytes (index + (b :: bs).length)).map (plainMarks index (b :: bs) ++ ·) := by
  induction bs generalizing b index with
  | nil => exact marks?_of_meet? hmeet
  | cons b' bs ih =>
      obtain ⟨hb', hbs⟩ := List.forall_mem_cons.mp hbs
      have hmove : StandsAt bytes (index + 1) ((b' :: bs) ++ tail) := h.move_byte
      have hoffset : index + (b :: b' :: bs).length = index + 1 + (b' :: bs).length := by
        rw [List.length_cons]
        omega
      have hrest := ih (meet?_of_large hb' hmove.getElem?_eq) hbs hmove
      rw [marks?_of_meet? hmeet, Mark.stop, hrest, hoffset, Option.map_map]
      rfl

/-- **What is met in a text are its lexemes.** -/
theorem marks?_of_standsAt (h : StandsAt bytes index (utf8 cs)) :
    marks? bytes index = some (marksOf index (lexemes cs)) := by
  fun_induction lexemes cs generalizing index with
  | case1 => exact marks?_eq_some_nil_iff.mpr h.length_eq.le
  | case2 c cs ih =>
      have hmeet := meet?_of_standsAt h
      rw [← next_append c cs, Text.utf8_append] at h
      have hrest := ih h.move
      rw [Text.length_utf8] at hrest
      rw [marksOf]
      cases hl : (next c cs).1 with
      | literal t =>
          rw [hl] at hmeet hrest
          exact marks?_eq_some_cons_iff.mpr ⟨hmeet, hrest⟩
      | comment t =>
          rw [hl] at hmeet hrest
          exact marks?_eq_some_cons_iff.mpr ⟨hmeet, hrest⟩
      | plain d =>
          obtain ⟨b, bs, hbytes, hbs⟩ := exists_utf8EncodeChar_eq_cons d
          have htext : utf8 (Lexeme.plain d).text = b :: bs := by
            rw [Lexeme.text, Text.utf8_cons, hbytes, Text.utf8_nil, List.append_nil]
          have hmarks : (Lexeme.plain d).marks index = plainMarks index (b :: bs) := by
            rw [Lexeme.marks, hbytes]
          rw [hl, hmarks] at hmeet
          rw [hl, htext] at h
          rw [hl, size, htext] at hrest
          rw [marks?_of_bytes hmeet hbs h, hrest, hmarks, size, htext]
          rfl

end ClientRegen.EnumSource
