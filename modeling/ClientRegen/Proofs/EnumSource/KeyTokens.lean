import ClientRegen.Proofs.EnumSource.Keys
import ClientRegen.Proofs.EnumSource.Marks
import ClientRegen.Proofs.Text.Replacing

/-!
# Names as tokens

A name that needs quotes as a key is written between single quotes: first its
backslashes are doubled, then its single quotes get a backslash
(`flatMap_escapeQuote_eq`).  Reading a key as a value undoes this, and leaves a
name without quotes as it is (`rawOf_memberKey`).

A key is one token, whatever its name holds.  In quotes it is one closed string;
without quotes it holds none of the characters that mean something in a body.
So what follows a key is read as it is without the key
(`lexemes_memberKey_append`), and no separator is found within a key
(`splitSeparator?_memberKey_append`).
-/

namespace ClientRegen.EnumSource

open Text (utf8 size)

variable {t name : List Char} {c d quote : Char}

/-! ## Values of literals -/

theorem skipCast_eq_self (h : t.head? ≠ some '<') : skipCast t = t := by
  unfold skipCast
  split
  · exact absurd rfl h
  · rfl

/-- A literal without a cast and without quotes stands for itself. -/
theorem rawOf_eq_self (ht : Text.Tight t) (hcast : t.head? ≠ some '<')
    (hquote : ∀ c ∈ t.head?, isQuote c = false) : rawOf t = t := by
  unfold rawOf
  rw [skipCast_eq_self hcast, ht.trim_eq]
  cases t with
  | nil => rfl
  | cons c t =>
      have hc : isQuote c = false := hquote c rfl
      cases t <;> simp [hc]

/-- A literal between quotes stands for what its escapes do. -/
theorem rawOf_quoted (hquote : isQuote quote = true) (t : List Char) :
    rawOf (quote :: t ++ [quote]) = unescape t := by
  have hblank := isBlank_of_isQuote hquote
  have htight : Text.Tight (quote :: t ++ [quote]) := by
    refine ⟨by simp, by simp [hblank], ?_⟩
    rw [List.getLast?_concat]
    simp [hblank]
  have hcast : (quote :: t ++ [quote]).head? ≠ some '<' := by
    intro h
    obtain rfl : quote = '<' := by simpa using h
    exact absurd hquote (by decide)
  obtain ⟨c, rest, hrest⟩ := List.exists_cons_of_ne_nil (show t ++ [quote] ≠ [] by simp)
  have hlast : (c :: rest).getLast? = some quote := by rw [← hrest, List.getLast?_concat]
  have hinit : (c :: rest).dropLast = t := by rw [← hrest, List.dropLast_concat]
  unfold rawOf
  rw [skipCast_eq_self hcast, htight.trim_eq, List.cons_append, hrest]
  simp only [hquote, hlast, hinit, true_and, if_true]

/-! ## Names that are written and read -/

/-- A name in quotes has its backslashes doubled, and then its quotes escaped. -/
theorem flatMap_escapeQuote_eq (name : List Char) :
    name.flatMap escapeQuote =
      Text.replaceAll ['\''] ['\\', '\''] (Text.replaceAll ['\\'] ['\\', '\\'] name) := by
  rw [Text.replaceAll_singleton, Text.replaceAll_singleton, List.flatMap_assoc]
  congr 1
  funext c
  by_cases hbackslash : c = '\\'
  · subst hbackslash
    rfl
  · by_cases hquote : c = '\''
    · subst hquote
      rfl
    · simp [escapeQuote, hbackslash, hquote]

theorem memberKey_of_isName (h : Text.isName name = true) : memberKey name = name :=
  if_pos h

theorem memberKey_of_not_isName (h : Text.isName name = false) :
    memberKey name = '\'' :: name.flatMap escapeQuote ++ ['\''] :=
  if_neg (by simp [h])

theorem ne_of_isNameChar (hc : Text.isNameChar c = true) (hd : Text.isNameChar d = false) :
    c ≠ d := by
  rintro rfl
  rw [hd] at hc
  cases hc

/-- **A name is what its key stands for as a value.** -/
theorem rawOf_memberKey (name : List Char) : rawOf (memberKey name) = name := by
  cases h : Text.isName name with
  | true =>
      have hhead : ∀ c ∈ name.head?, Text.isNameChar c = true := fun c hc =>
        (isNameChar_of_isName h).2 c (List.mem_of_head? hc)
      have htight := tight_memberKey name
      rw [memberKey_of_isName h] at htight ⊢
      refine rawOf_eq_self htight (fun hcast => ?_) fun c hc => ?_
      · exact ne_of_isNameChar (hhead '<' hcast) (by decide +kernel) rfl
      · have hmark := notMem_marks (hhead c hc)
        simp only [marks, List.mem_cons, not_or] at hmark
        simp [isQuote, hmark]
  | false =>
      rw [memberKey_of_not_isName h, rawOf_quoted (by decide), unescape_flatMap_escapeQuote]

/-! ## Keys as tokens -/

/-- A key in quotes ends by itself. -/
theorem closed_memberKey (h : Text.isName name = false) :
    (Lexeme.literal (memberKey name)).Closed := by
  rw [memberKey_of_not_isName h]
  exact .literal (by decide) (closedBy_escapeQuote name)

theorem readsBack_keyLexemes (name rest : List Char) : ReadsBack (keyLexemes name) rest :=
  readsBack_of_closed (fun _ hl => (closed_of_mem_keyLexemes hl).1) rest

/-- What follows a key is read as it is without the key. -/
theorem lexemes_memberKey_append (name rest : List Char) :
    lexemes (memberKey name ++ rest) = keyLexemes name ++ lexemes rest := by
  rw [← textOf_keyLexemes, lexemes_textOf_append (readsBack_keyLexemes name rest)]

/-- No separator is found within a key. -/
theorem splitSeparator?_memberKey_append (name rest : List Char) :
    splitSeparator? (memberKey name ++ rest) =
      (splitSeparator? rest).map fun r => (memberKey name ++ r.1, r.2) := by
  rw [← textOf_keyLexemes]
  exact splitSeparator?_textOf_append (fun l hl => (closed_of_mem_keyLexemes hl).2)
    isSeparator_keyLexemes (readsBack_keyLexemes name rest)

/-- A name without quotes holds nothing that means something in a body. -/
theorem notMem_of_isName (h : Text.isName name = true) (hc : c ∈ name) :
    c ∉ '\x7b' :: '\x7d' :: marks := by
  have hname := (isNameChar_of_isName h).2 c hc
  simp only [List.mem_cons, not_or]
  exact ⟨ne_of_isNameChar hname isNameChar_brace, ne_of_isNameChar hname (by decide +kernel),
    notMem_marks hname⟩

/-- **Writing a name as a key loses nothing, and the key is one token.**  As a
value the key stands for the name.  A key in quotes is one string, which a
scanner that stands at its first byte skips up to its last, whatever stands
around it.  A key without quotes is the name itself, and none of its characters
means anything in a body.  Either way a member is not parted within the key. -/
theorem memberKey_isToken (name : List Char) :
    rawOf (memberKey name) = name ∧
      (Text.isName name = false →
        memberKey name = '\'' :: Text.replaceAll ['\''] ['\\', '\'']
          (Text.replaceAll ['\\'] ['\\', '\\'] name) ++ ['\''] ∧
        (∀ before rest, skipString? (utf8 (before ++ memberKey name ++ rest)) (size before) =
          some (size (before ++ memberKey name))) ∧
        ∀ rest, lexemes (memberKey name ++ rest) = .literal (memberKey name) :: lexemes rest) ∧
      (Text.isName name = true →
        memberKey name = name ∧ (∀ c ∈ name, c ∉ '\x7b' :: '\x7d' :: marks) ∧
        ∀ rest, lexemes (memberKey name ++ rest) = name.map .plain ++ lexemes rest) ∧
      ∀ rest, splitSeparator? (memberKey name ++ rest) =
        (splitSeparator? rest).map fun r => (memberKey name ++ r.1, r.2) := by
  refine ⟨rawOf_memberKey name, fun h => ⟨?_, ?_, ?_⟩, fun h => ⟨?_, ?_, ?_⟩,
    splitSeparator?_memberKey_append name⟩
  · rw [memberKey_of_not_isName h, flatMap_escapeQuote_eq]
  · exact skipString?_of_closed (closed_memberKey h)
  · intro rest
    rw [lexemes_memberKey_append, keyLexemes, if_neg (by simp [h]), ← memberKey_of_not_isName h]
    rfl
  · exact memberKey_of_isName h
  · exact fun c => notMem_of_isName h
  · intro rest
    rw [lexemes_memberKey_append, keyLexemes, if_pos h]

/-- A name that looks like a cast, with quotes and backslashes in a row, marks of
comments and a backslash at its end, and one that needs no quotes. -/
theorem memberKey_isToken_cast :
    let name := "<any>\\\\'//,\x7b=*/\\".toList
    Text.isName name = false ∧ rawOf (memberKey name) = name ∧
      skipString? (utf8 (memberKey name ++ ['\''])) 0 = some (size (memberKey name)) ∧
      Text.isName ['$', 'é'] = true ∧ memberKey ['$', 'é'] = ['$', 'é'] := by
  intro name
  have hquoted : Text.isName name = false := by decide +kernel
  have hplain : Text.isName ['$', 'é'] = true := by decide +kernel
  obtain ⟨hraw, hkey, -⟩ := memberKey_isToken name
  obtain ⟨-, -, hname, -⟩ := memberKey_isToken ['$', 'é']
  exact ⟨hquoted, hraw, (hkey hquoted).2.1 [] ['\''], hplain, (hname hplain).1⟩

end ClientRegen.EnumSource
