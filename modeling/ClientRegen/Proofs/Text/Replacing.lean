import ClientRegen.Text.Replace
import Mathlib.Data.List.Infix

/-!
# Replacing a word in a text

Looking for a word at the start of a text, anywhere in it, and replacing it
everywhere are three scans over characters.  Here they are told by the text as
a whole: a word that is looked for is a start of the text
(`dropStart?_eq_some_iff`) or a part of it (`occursIn_iff`), and it is replaced
where it stands first, then where it stands first in what follows, and so on
(`replacedAll_replaceAll`).
-/

namespace ClientRegen.Text

variable {word replacement cs done rest : List Char} {c : Char}

theorem dropStart?_eq_some_iff : dropStart? word cs = some rest ↔ cs = word ++ rest := by
  induction word generalizing cs with
  | nil => rw [dropStart?, Option.some.injEq, List.nil_append]
  | cons p word ih =>
      cases cs with
      | nil => simp [dropStart?]
      | cons c cs =>
          by_cases hpc : p = c
          · rw [dropStart?, if_pos hpc, ih, hpc, List.cons_append, List.cons.injEq,
              and_iff_right rfl]
          · simp [dropStart?, hpc, Ne.symm hpc]

theorem isSome_dropStart?_iff : (dropStart? word cs).isSome = true ↔ word <+: cs := by
  simp only [Option.isSome_iff_exists, dropStart?_eq_some_iff]
  exact exists_congr fun rest => eq_comm

/-- **A word occurs in a text if it is a part of it.** -/
theorem occursIn_iff : occursIn word cs = true ↔ word <:+: cs := by
  induction cs with
  | nil => rw [occursIn, List.isEmpty_iff, List.infix_nil]
  | cons c cs ih =>
      rw [occursIn, Bool.or_eq_true, isSome_dropStart?_iff, ih, List.infix_cons_iff]

/-- A text with a replacement at each place where it holds a word: where the
word stands first, and then in what follows this place. -/
inductive ReplacedAll (word replacement : List Char) : List Char → List Char → Prop
  | none {cs : List Char} (h : ¬ word <:+: cs) : ReplacedAll word replacement cs cs
  | some {before after done : List Char}
      (hfirst : ∀ front rest, before ++ word ++ after = front ++ word ++ rest →
        before.length ≤ front.length)
      (h : ReplacedAll word replacement after done) :
      ReplacedAll word replacement (before ++ word ++ after) (before ++ replacement ++ done)

/-- A character at which the word does not start stays. -/
theorem ReplacedAll.cons (h : ReplacedAll word replacement cs done) (hc : ¬ word <+: c :: cs) :
    ReplacedAll word replacement (c :: cs) (c :: done) := by
  cases h with
  | none h => exact .none fun hinfix => (List.infix_cons_iff.mp hinfix).elim hc h
  | @some before after done hfirst h =>
      refine @ReplacedAll.some _ _ (c :: before) _ _ (fun front rest heq => ?_) h
      cases front with
      | nil => exact absurd ⟨rest, heq.symm⟩ hc
      | cons d front =>
          exact Nat.succ_le_succ (hfirst front rest (List.cons.inj heq).2)

/-- **A word is replaced at each place, from the left and without overlap.** -/
theorem replacedAll_replaceAll (hword : word ≠ []) (replacement cs : List Char) :
    ReplacedAll word replacement cs (replaceAll word replacement cs) := by
  obtain ⟨first, others, rfl⟩ := List.exists_cons_of_ne_nil hword
  rw [replaceAll]
  fun_induction replaceEach first others replacement cs with
  | case1 => exact .none (by simp)
  | case2 cs rest h _ ih =>
      rw [dropStart?_eq_some_iff.mp h]
      exact @ReplacedAll.some _ _ [] _ _ (fun front rest _ => Nat.zero_le _) ih
  | case3 cs h ih =>
      refine ih.cons fun hstart => ?_
      have hothers := isSome_dropStart?_iff.mpr (List.cons_prefix_cons.mp hstart).2
      rw [h] at hothers
      cases hothers
  | case4 c cs hc ih =>
      exact ih.cons fun hstart => hc (List.cons_prefix_cons.mp hstart).1.symm

/-- A single character is replaced wherever it stands. -/
theorem replaceAll_singleton (c : Char) (replacement cs : List Char) :
    replaceAll [c] replacement cs = cs.flatMap fun d => if d = c then replacement else [d] := by
  rw [replaceAll]
  induction cs with
  | nil => rw [replaceEach, List.flatMap_nil]
  | cons d cs ih =>
      rw [replaceEach, List.flatMap_cons]
      split
      · simp only [dropStart?, ih]
      · rw [ih, List.singleton_append]

end ClientRegen.Text
