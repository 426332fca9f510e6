import Mathlib.Data.String.Basic

/-!
# The order of texts and of their bytes

Texts are ordered by their characters.  UTF-8 keeps this order: where two
characters differ, so do their bytes, and the bytes of the lesser character are
less at the first place at which they differ (`lex_utf8EncodeChar`).  So names
in order are in the order of their bytes (`byteBefore_of_lt`).
-/

namespace ClientRegen

variable {c d : Char} {cs ds : List Char} {s t : String}

/-- The bytes of a text. -/
def utf8Bytes (s : String) : List UInt8 :=
  s.toList.flatMap String.utf8EncodeChar

/-- One text is before another by their bytes. -/
def ByteBefore (s t : String) : Prop :=
  List.Lex (· < ·) s.toUTF8.data.toList t.toUTF8.data.toList

theorem data_toUTF8 (s : String) : s.toUTF8.data.toList = utf8Bytes s := by
  rw [String.toUTF8_eq_toByteArray, ← String.utf8Encode_toList, List.utf8Encode]
  simp [utf8Bytes]

/-- Bytes that are written for numbers are compared by these numbers. -/
theorem lex_ofNat {a b : Nat} (ha : a < 256) (hb : b < 256) (xs ys : List UInt8) :
    List.Lex (· < ·) (UInt8.ofNat a :: xs) (UInt8.ofNat b :: ys) ↔
      a < b ∨ a = b ∧ List.Lex (· < ·) xs ys := by
  rw [List.cons_lex_cons_iff, UInt8.lt_iff_toNat_lt, ← UInt8.toNat_inj,
    UInt8.toNat_ofNat_of_lt' ha, UInt8.toNat_ofNat_of_lt' hb]

/-- **The bytes of a lesser character are less.**  One that takes more bytes
begins with a greater one; of two that take the same number, the first byte in
which they differ decides. -/
theorem lex_utf8EncodeChar (h : c < d) (xs ys : List UInt8) :
    List.Lex (· < ·) (String.utf8EncodeChar c ++ xs) (String.utf8EncodeChar d ++ ys) := by
  have hlt : c.val.toNat < d.val.toNat := h
  have hbound : d.val.toNat < 0x110000 := by
    rcases d.valid with hd | hd <;> omega
  simp only [String.utf8EncodeChar]
  generalize c.val.toNat = a at hlt
  generalize d.val.toNat = b at hlt hbound
  have hdigits : ∀ n : Nat, n < 0x110000 →
      n = n / 262144 % 8 * 262144 + n / 4096 % 64 * 4096 + n / 64 % 64 * 64 + n % 64 := by
    intro n
    omega
  split_ifs <;> simp only [List.cons_append, List.nil_append]
  -- where the lengths differ, so do the first bytes
  all_goals try (rw [lex_ofNat (by omega) (by omega)]; omega)
  all_goals
    repeat rw [lex_ofNat (by omega) (by omega)]
    have ha := hdigits a (by omega)
    have hb := hdigits b hbound
    omega

theorem lex_flatMap_utf8EncodeChar (h : List.Lex (· < ·) cs ds) :
    List.Lex (· < ·) (cs.flatMap String.utf8EncodeChar) (ds.flatMap String.utf8EncodeChar) := by
  induction h with
  | @nil d ds =>
      obtain ⟨b, bs, hb⟩ := List.exists_cons_of_ne_nil (String.utf8EncodeChar_ne_nil (c := d))
      rw [List.flatMap_nil, List.flatMap_cons, hb]
      exact .nil
  | @cons c cs ds _ ih =>
      rw [List.flatMap_cons, List.flatMap_cons]
      exact List.Lex.append_left _ ih _
  | @rel c cs d ds hlt =>
      rw [List.flatMap_cons, List.flatMap_cons]
      exact lex_utf8EncodeChar hlt _ _

/-- **Texts in order are in the order of their bytes.** -/
theorem byteBefore_of_lt (h : s < t) : ByteBefore s t := by
  rw [ByteBefore, data_toUTF8, data_toUTF8]
  exact lex_flatMap_utf8EncodeChar (String.lt_iff_toList_lt.mp h)

end ClientRegen
