import ClientRegen.Generator.Command

/-!
# Lines that are read back

A word is written so that the reader of a line takes it up as a whole, whatever
it was reading before and whatever follows (`wordsFrom_quoteChars`).  In quotes
the only character that matters is the quote itself: the four characters
written for it close the quotes, give a quote behind a backslash and open them
again, so the reader is back inside with one quote more (`wordsFrom_quoted`).

Nothing else of a line stands outside quotes than plain characters and the
spaces between words (`exposed`), so no other rule of a shell applies to it.
-/

namespace ClientRegen

namespace Shell

variable {c : Char} {word read : List Char} {words : List String}

/-! ## One word -/

/-- A plain character is no quote, no backslash and no blank. -/
theorem isPlain_cases (h : isPlain c = true) : c ≠ '\'' ∧ c ≠ '\\' ∧ isBlank c = false := by
  refine ⟨?_, ?_, ?_⟩
  · rintro rfl
    exact absurd h (by decide)
  · rintro rfl
    exact absurd h (by decide)
  · rw [Bool.eq_false_iff]
    intro hblank
    simp only [isBlank, Bool.or_eq_true, beq_iff_eq] at hblank
    rcases hblank with (rfl | rfl) | rfl
    all_goals exact absurd h (by decide)

/-- A quote opens quotes or closes them, and makes a word of nothing. -/
theorem wordsFrom_quote (quoted : Bool) (found : Option (List Char)) (rest : List Char) :
    wordsFrom quoted found ('\'' :: rest) = wordsFrom (!quoted) (some (found.getD [])) rest := by
  rw [wordsFrom.eq_def]
  simp

/-- A plain character goes on with the word that is being read, or starts one. -/
theorem wordsFrom_plain_cons (h : isPlain c = true) (found : Option (List Char))
    (rest : List Char) :
    wordsFrom false found (c :: rest) = wordsFrom false (some (found.getD [] ++ [c])) rest := by
  obtain ⟨hquote, hslash, hblank⟩ := isPlain_cases h
  rw [wordsFrom.eq_def]
  simp only [hquote, hslash, hblank, if_false, Bool.false_eq_true]

/-- Plain characters go on with the word that is being read. -/
theorem wordsFrom_plain (h : ∀ c ∈ word, isPlain c = true) (read rest : List Char) :
    wordsFrom false (some read) (word ++ rest) = wordsFrom false (some (read ++ word)) rest := by
  induction word generalizing read with
  | nil => simp
  | cons c word ih =>
      rw [List.forall_mem_cons] at h
      rw [List.cons_append, wordsFrom_plain_cons h.1, ih h.2]
      simp

/-- **Inside quotes every character is read as itself,** up to the quote that
closes them. -/
theorem wordsFrom_quoted (word read rest : List Char) :
    wordsFrom true (some read) (word.flatMap quotedChar ++ '\'' :: rest) =
      wordsFrom false (some (read ++ word)) rest := by
  induction word generalizing read with
  | nil => simp [wordsFrom_quote]
  | cons c word ih =>
      rw [List.flatMap_cons, List.append_assoc]
      by_cases hc : c = '\''
      · -- out of the quotes, one quote behind a backslash, and in again
        have hquote : wordsFrom true (some read)
            (quotedChar c ++ (word.flatMap quotedChar ++ '\'' :: rest)) =
              wordsFrom true (some (read ++ ['\''])) (word.flatMap quotedChar ++ '\'' :: rest) := by
          rw [quotedChar, if_pos hc, List.cons_append, List.cons_append, List.cons_append,
            List.cons_append, wordsFrom_quote, wordsFrom.eq_def]
          simp [wordsFrom_quote]
        rw [hquote, ih, hc]
        simp
      · have hplain : wordsFrom true (some read)
            (quotedChar c ++ (word.flatMap quotedChar ++ '\'' :: rest)) =
              wordsFrom true (some (read ++ [c])) (word.flatMap quotedChar ++ '\'' :: rest) := by
          rw [quotedChar, if_neg hc, List.singleton_append, wordsFrom.eq_def]
          simp [hc]
        rw [hplain, ih]
        simp

/-- **A word is read back whole,** and the reader stands at its end. -/
theorem wordsFrom_quoteChars (word rest : List Char) :
    wordsFrom false none (quoteChars word ++ rest) = wordsFrom false (some word) rest := by
  unfold quoteChars
  split
  · rename_i h
    obtain ⟨c, word, rfl⟩ := List.exists_cons_of_ne_nil h.1
    have hall : ∀ d ∈ c :: word, isPlain d = true := List.all_eq_true.mp h.2
    rw [List.forall_mem_cons] at hall
    rw [List.cons_append, wordsFrom_plain_cons hall.1, wordsFrom_plain hall.2]
    rfl
  · have hquoted := wordsFrom_quoted word [] rest
    rw [List.cons_append, List.cons_append, List.append_assoc, wordsFrom_quote]
    simpa using hquoted

/-! ## A line -/

/-- A line is its first word, a space and the line of the others. -/
theorem toList_commandLine_cons (word : String) (h : words ≠ []) :
    (commandLine (word :: words)).toList =
      quoteChars word.toList ++ ' ' :: (commandLine words).toList := by
  obtain ⟨next, words, rfl⟩ := List.exists_cons_of_ne_nil h
  simp [commandLine, quote, String.intercalate_cons_cons]

/-- A line of one word is this word in quotes, if it needs them. -/
theorem toList_commandLine_singleton (word : String) :
    (commandLine [word]).toList = quoteChars word.toList := by
  simp [commandLine, quote]

/-- The words of a line are those that it was made of. -/
theorem words?_commandLine (words : List String) : words? (commandLine words) = some words := by
  have hread : ∀ words : List String,
      wordsFrom false none (commandLine words).toList = some (words.map String.toList) := by
    intro words
    induction words with
    | nil => rfl
    | cons word words ih =>
        by_cases h : words = []
        · subst h
          have hend := wordsFrom_quoteChars word.toList []
          rw [List.append_nil] at hend
          rw [toList_commandLine_singleton, hend]
          rfl
        · rw [toList_commandLine_cons word h, wordsFrom_quoteChars, wordsFrom.eq_def]
          simp [isBlank, ih]
  rw [words?, hread, Option.map_some, List.map_map]
  simp [Function.comp_def]

/-- The characters of a line that stand outside quotes, without the backslashes
and what they protect. -/
def exposed (quoted : Bool) : List Char → List Char
  | [] => []
  | c :: cs =>
    if c = '\'' then exposed (!quoted) cs
    else if quoted then exposed true cs
    else if c = '\\' then
      match cs with
      | [] => []
      | _ :: ds => exposed false ds
    else c :: exposed false cs

/-- A quote opens or closes, and is not exposed itself. -/
theorem exposed_quote (quoted : Bool) (rest : List Char) :
    exposed quoted ('\'' :: rest) = exposed (!quoted) rest := by
  rw [exposed.eq_def]
  simp

/-- Plain characters outside quotes are exposed. -/
theorem exposed_plain (h : ∀ c ∈ word, isPlain c = true) (rest : List Char) :
    exposed false (word ++ rest) = word ++ exposed false rest := by
  induction word with
  | nil => rfl
  | cons c word ih =>
      rw [List.forall_mem_cons] at h
      obtain ⟨hquote, hslash, -⟩ := isPlain_cases h.1
      rw [List.cons_append, exposed.eq_def]
      simp [hquote, hslash, ih h.2]

/-- Nothing between quotes is exposed. -/
theorem exposed_quoted (word rest : List Char) :
    exposed true (word.flatMap quotedChar ++ '\'' :: rest) = exposed false rest := by
  induction word with
  | nil => simp [exposed_quote]
  | cons c word ih =>
      rw [List.flatMap_cons, List.append_assoc, ← ih]
      by_cases hc : c = '\''
      · rw [quotedChar, if_pos hc, List.cons_append, List.cons_append, List.cons_append,
          List.cons_append, exposed_quote, exposed.eq_def]
        simp [exposed_quote]
      · rw [quotedChar, if_neg hc, List.singleton_append, exposed.eq_def]
        simp [hc]

/-- Of a word nothing is exposed but plain characters. -/
theorem exposed_quoteChars (word rest : List Char) :
    ∃ bare, (∀ c ∈ bare, isPlain c = true) ∧
      exposed false (quoteChars word ++ rest) = bare ++ exposed false rest := by
  unfold quoteChars
  split
  · rename_i h
    have hall : ∀ c ∈ word, isPlain c = true := List.all_eq_true.mp h.2
    exact ⟨word, hall, exposed_plain hall rest⟩
  · refine ⟨[], by simp, ?_⟩
    have hquoted := exposed_quoted word rest
    rw [List.cons_append, List.cons_append, List.append_assoc, exposed_quote]
    simpa using hquoted

/-- Of a line nothing is exposed but plain characters and spaces. -/
theorem exposed_commandLine (words : List String) :
    ((exposed false (commandLine words).toList).all fun c => isPlain c || c == ' ') = true := by
  induction words with
  | nil => rfl
  | cons word words ih =>
      by_cases h : words = []
      · subst h
        obtain ⟨bare, hbare, hword⟩ := exposed_quoteChars word.toList []
        rw [List.append_nil] at hword
        rw [toList_commandLine_singleton, hword]
        simp only [exposed, List.append_nil, List.all_eq_true]
        intro c hc
        simp [hbare c hc]
      · obtain ⟨bare, hbare, hword⟩ := exposed_quoteChars word.toList
          (' ' :: (commandLine words).toList)
        have hspace : exposed false (' ' :: (commandLine words).toList) =
            ' ' :: exposed false (commandLine words).toList := by
          rw [exposed.eq_def]
          simp
        rw [toList_commandLine_cons word h, hword, hspace, List.all_append, List.all_cons, ih]
        simp only [Bool.and_true, List.all_eq_true, BEq.rfl, Bool.or_true]
        intro c hc
        simp [hbare c hc]

/-- **A rendered line loses nothing.**  Any words are read back from their line
as they were, none of them added, merged, split or altered; so the line of a
command with some arguments is read back as its program, the words that go
before its arguments, and the arguments.  And a shell has nothing else to do
with a line than to part it at spaces and to undo the quotes, because no other
character that it would interpret stands outside them. -/
theorem commandLine_lossless :
    (∀ words, words? (commandLine words) = some words) ∧
      (∀ (command : GeneratorCommand) (args : List String), words? (command.line args) =
        some (command.program.text :: (command.leadingArgs ++ args))) ∧
      ∀ words, ((exposed false (commandLine words).toList).all
        fun c => isPlain c || c == ' ') = true :=
  ⟨words?_commandLine, fun _ _ => words?_commandLine _, exposed_commandLine⟩

/-- A word that is empty, one with quotes at its ends and one with a line feed
and a backslash. -/
example : commandLine ["", "'a b'", "\n\\"] = "'' ''\\''a b'\\''' '\n\\'" := by
  decide +kernel

end Shell

end ClientRegen
