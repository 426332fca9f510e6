import ClientRegen.Text.TypeName
import Mathlib.Data.List.Basic

/-!
# The case of ASCII letters

The tables of letter case hold all of Unicode, but only the first run of each
has a say on an ASCII character (`mapCase_of_ascii`).  So ASCII characters have
the upper-case and lower-case forms of the ASCII alphabet.

Pascal case puts letters into another case and drops separators, and does
nothing else to ASCII characters, wherever it takes words to start.  So it keeps
what all spellings of a name share (`nameKey_pascalCase`).
-/

namespace ClientRegen

variable {c : Char} {cs : List Char}

/-! ## Case forms -/

/-- On an ASCII character the first run of a case table decides alone. -/
theorem mapCase_of_ascii {r : Text.CaseRun} {runs : List Text.CaseRun}
    {expansions : List (Nat × List Nat)} (h : c.toNat < 128) (hruns : ∀ r ∈ runs, 128 ≤ r.first)
    (hexpansions : ∀ e ∈ expansions, 128 ≤ e.1) :
    Text.mapCase (r :: runs) expansions c = Text.mapCase [r] [] c := by
  have hlookup : expansions.lookup c.toNat = none := by
    refine List.lookup_eq_none_iff.mpr fun e he => ?_
    have := hexpansions e he
    rw [bne_iff_ne]
    omega
  have hnone : runs.find? (·.holds c.toNat) = none := by
    refine List.find?_eq_none.mpr fun r hr => ?_
    have := hruns r hr
    simp only [Text.CaseRun.holds, Bool.and_eq_true, decide_eq_true_eq]
    omega
  rw [Text.mapCase, Text.mapCase, hlookup, List.find?_cons, List.find?_cons, hnone]
  rfl

/-- A fact of ASCII characters may be checked on their numbers. -/
theorem forall_ascii {P : Char → Prop} (h : ∀ n < 128, P (Char.ofNat n)) (hc : c.toNat < 128) :
    P c := by
  have hP := h c.toNat hc
  rwa [Char.ofNat_toNat] at hP

/-- An ASCII character has the lower case of the ASCII alphabet. -/
theorem lowerForm_of_ascii (h : c.toNat < 128) : Text.lowerForm c = [c.toLower] := by
  have hfirst : Text.lowerForm c = Text.mapCase [⟨0x41, 0x5A, 1, 32⟩] [] c :=
    mapCase_of_ascii h (by decide +kernel) (by decide)
  rw [hfirst]
  exact forall_ascii (P := fun c => Text.mapCase [⟨0x41, 0x5A, 1, 32⟩] [] c = [c.toLower])
    (by decide) h

/-- An ASCII character has the upper case of the ASCII alphabet. -/
theorem upperForm_of_ascii (h : c.toNat < 128) : Text.upperForm c = [c.toUpper] := by
  have hfirst : Text.upperForm c = Text.mapCase [⟨0x61, 0x7A, 1, -32⟩] [] c :=
    mapCase_of_ascii h (by decide +kernel) (by decide +kernel)
  rw [hfirst]
  exact forall_ascii (P := fun c => Text.mapCase [⟨0x61, 0x7A, 1, -32⟩] [] c = [c.toUpper])
    (by decide) h

/-! ## Letters and digits -/

/-- Letters and digits are ASCII characters. -/
theorem toNat_lt_of_isAlphanum (h : c.isAlphanum = true) : c.toNat < 128 := by
  have hbound : ∀ last : UInt32, last.toNat < 128 → c.val ≤ last → c.toNat < 128 :=
    fun last hlast hc => Nat.lt_of_le_of_lt (UInt32.le_iff_toNat_le.mp hc) hlast
  obtain hletter | hdigit := Bool.or_eq_true_iff.mp h
  · obtain hupper | hlower := Bool.or_eq_true_iff.mp hletter
    · exact hbound 'Z'.val (by decide) (of_decide_eq_true hupper).2
    · exact hbound 'z'.val (by decide) (of_decide_eq_true (Bool.and_eq_true_iff.mp hlower).2)
  · exact hbound '9'.val (by decide) (of_decide_eq_true (Bool.and_eq_true_iff.mp hdigit).2)

/-- Lower case makes no letter or digit of another character. -/
theorem isAlphanum_toLower (c : Char) : c.toLower.isAlphanum = c.isAlphanum := by
  by_cases hascii : c.toNat < 128
  · exact forall_ascii (P := fun c => c.toLower.isAlphanum = c.isAlphanum) (by decide) hascii
  · have hkept : c.toLower = c := dif_neg fun hupper =>
      hascii (toNat_lt_of_isAlphanum (Bool.or_eq_true_iff.mpr
        (.inl (Bool.or_eq_true_iff.mpr (.inl (decide_eq_true hupper))))))
    rw [hkept]

/-! ## What all spellings of a name share -/

/-- The letters and digits of a concatenation are those of its parts. -/
theorem nameKey_append (cs ds : List Char) :
    Text.nameKey (cs ++ ds) = Text.nameKey cs ++ Text.nameKey ds := by
  rw [Text.nameKey, List.filter_append, List.map_append]
  rfl

/-- Lower case may come before the letters and digits are picked. -/
theorem nameKey_eq_filter (cs : List Char) :
    Text.nameKey cs = (cs.map Char.toLower).filter Char.isAlphanum := by
  rw [Text.nameKey, List.filter_map]
  congr 1
  exact List.filter_congr fun c _ => (isAlphanum_toLower c).symm

/-- Upper case keeps the letter that a character is. -/
theorem nameKey_upperForm (h : c.toNat < 128) :
    Text.nameKey (Text.upperForm c) = Text.nameKey [c] := by
  rw [upperForm_of_ascii h]
  exact forall_ascii (P := fun c => Text.nameKey [c.toUpper] = Text.nameKey [c]) (by decide) h

/-- Lower case keeps it, too. -/
theorem nameKey_lowerForm (h : c.toNat < 128) :
    Text.nameKey (Text.lowerForm c) = Text.nameKey [c] := by
  rw [lowerForm_of_ascii h]
  exact forall_ascii (P := fun c => Text.nameKey [c.toLower] = Text.nameKey [c]) (by decide) h

/-- A separator is neither a letter nor a digit. -/
theorem nameKey_of_isSeparator (h : Text.isSeparator c = true) : Text.nameKey [c] = [] := by
  simp only [Text.isSeparator, Bool.or_eq_true, beq_iff_eq] at h
  obtain (rfl | rfl) | rfl := h <;> decide

/-- **Pascal case keeps the letters and digits of an ASCII name,** whatever it
has read before: each character is put into some case, or it is a separator. -/
theorem nameKey_pascalFrom (h : ∀ c ∈ cs, c.toNat < 128) (capital : Bool) (previous : Char) :
    Text.nameKey (Text.pascalFrom capital previous cs) = Text.nameKey cs := by
  induction cs generalizing capital previous with
  | nil => rfl
  | cons c cs ih =>
      rw [List.forall_mem_cons] at h
      have hcons : Text.nameKey (c :: cs) = Text.nameKey [c] ++ Text.nameKey cs :=
        nameKey_append [c] cs
      rw [Text.pascalFrom, hcons]
      by_cases hcapital : capital = true
      · rw [if_pos hcapital, nameKey_append, nameKey_upperForm h.1, ih h.2]
      · rw [if_neg hcapital]
        by_cases hseparator : Text.isSeparator c = true
        · rw [if_pos hseparator, ih h.2, nameKey_of_isSeparator hseparator, List.nil_append]
        · have hkept : Text.nameKey (if Text.isLowercase previous then [c] else Text.lowerForm c) =
              Text.nameKey [c] := by
            split
            · rfl
            · exact nameKey_lowerForm h.1
          rw [if_neg hseparator, nameKey_append, hkept, ih h.2]

/-- The name of a type has the letters and digits of the ASCII name it is made from. -/
theorem nameKey_pascalCase (h : ∀ c ∈ cs, c.toNat < 128) :
    Text.nameKey (Text.pascalCase cs) = Text.nameKey cs :=
  nameKey_pascalFrom h true ' '

end ClientRegen
