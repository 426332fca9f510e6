import ClientRegen.Proofs.Text.ByteOrder

/-!
# Offsets of bytes

A text is stored as the UTF-8 bytes of its characters, and its parts are taken
by the offsets of their bytes.  An offset may be cut at only if it is a boundary
of the text, which means that a character begins there or the text ends
(`isSome_splitBytes?_iff`).

Whoever steps through the bytes one by one sees the characters up to 127 as they
are, because each of these is one byte; every other character is made of bytes
from 128 on, which are none of them (`utf8EncodeChar_cases`).
-/

namespace ClientRegen.Text

variable {c : Char} {cs ds pre t post before after : List Char} {start stop n : Nat}

/-! ## The bytes of a text -/

/-- The bytes of characters. -/
def utf8 (cs : List Char) : List UInt8 :=
  cs.flatMap String.utf8EncodeChar

/-- How many bytes characters take. -/
def size (cs : List Char) : Nat :=
  (utf8 cs).length

/-- These are the bytes that a string is stored as. -/
theorem utf8_toList (s : String) : utf8 s.toList = s.toUTF8.data.toList :=
  (data_toUTF8 s).symm

@[simp] theorem utf8_nil : utf8 [] = [] := rfl

@[simp] theorem utf8_cons (c : Char) (cs : List Char) :
    utf8 (c :: cs) = String.utf8EncodeChar c ++ utf8 cs :=
  List.flatMap_cons

@[simp] theorem utf8_append (cs ds : List Char) : utf8 (cs ++ ds) = utf8 cs ++ utf8 ds :=
  List.flatMap_append

@[simp] theorem size_nil : size [] = 0 := rfl

@[simp] theorem size_cons (c : Char) (cs : List Char) : size (c :: cs) = c.utf8Size + size cs := by
  rw [size, size, utf8_cons, List.length_append, String.length_utf8EncodeChar]

@[simp] theorem size_append (cs ds : List Char) : size (cs ++ ds) = size cs + size ds := by
  rw [size, size, size, utf8_append, List.length_append]

@[simp] theorem length_utf8 (cs : List Char) : (utf8 cs).length = size cs := rfl

/-- A text that takes no bytes is empty. -/
theorem size_eq_zero_iff : size cs = 0 ↔ cs = [] := by
  cases cs with
  | nil => simp
  | cons c cs =>
      have hpos := c.utf8Size_pos
      simp only [size_cons, reduceCtorEq, iff_false]
      omega

/-- A byte as a character has the number of the byte. -/
theorem toNat_ofUInt8 (b : UInt8) : (Char.ofUInt8 b).toNat = b.toNat :=
  UInt8.toNat_toUInt32 b

/-- So different bytes are different characters. -/
theorem ofUInt8_inj {a b : UInt8} : Char.ofUInt8 a = Char.ofUInt8 b ↔ a = b := by
  rw [← Char.toNat_inj, toNat_ofUInt8, toNat_ofUInt8, UInt8.toNat_inj]

/-- **A character is one byte, which is the character, or many from 128 on.** -/
theorem utf8EncodeChar_cases (c : Char) :
    (∃ b, String.utf8EncodeChar c = [b] ∧ Char.ofUInt8 b = c) ∨
      (128 ≤ c.toNat ∧ ∀ b ∈ String.utf8EncodeChar c, 128 ≤ (Char.ofUInt8 b).toNat) := by
  have htoNat : c.val.toNat = c.toNat := rfl
  simp only [String.utf8EncodeChar, htoNat, toNat_ofUInt8]
  split_ifs with hascii
  · refine Or.inl ⟨_, rfl, ?_⟩
    have hbyte : c.toNat < 256 := by omega
    rw [← Char.toNat_inj, toNat_ofUInt8, UInt8.toNat_ofNat_of_lt' hbyte]
  all_goals
    refine Or.inr ⟨by omega, ?_⟩
    simp only [List.mem_cons, List.not_mem_nil, or_false, forall_eq_or_imp, forall_eq,
      UInt8.toNat_ofNat']
    omega

/-- A character up to 127 is one byte. -/
theorem exists_byte (h : c.toNat < 128) :
    ∃ b, String.utf8EncodeChar c = [b] ∧ Char.ofUInt8 b = c :=
  (utf8EncodeChar_cases c).resolve_right fun hmany => absurd h (Nat.not_lt.mpr hmany.1)

/-- An ASCII character takes one byte. -/
theorem utf8Size_eq_one (h : c.toNat < 128) : c.utf8Size = 1 := by
  obtain ⟨b, hbytes, -⟩ := exists_byte h
  rw [← String.length_utf8EncodeChar, hbytes, List.length_singleton]

/-! ## Cutting at an offset -/

/-- A text in two at an offset, if that is a boundary. -/
def splitBytes? : List Char → Nat → Option (List Char × List Char)
  | cs, 0 => some ([], cs)
  | [], _ + 1 => none
  | c :: cs, n + 1 =>
    if c.utf8Size ≤ n + 1 then
      (splitBytes? cs (n + 1 - c.utf8Size)).map fun r => (c :: r.1, r.2)
    else none

/-- The part of a text between two offsets, if they are in order and boundaries. -/
def slice? (cs : List Char) (start stop : Nat) : Option (List Char) := do
  let (front, _) ← splitBytes? cs stop
  let (_, part) ← splitBytes? front start
  return part

/-- A text is split at the size of its front. -/
theorem splitBytes?_append (before after : List Char) :
    splitBytes? (before ++ after) (size before) = some (before, after) := by
  induction before with
  | nil => cases after <;> rfl
  | cons c before ih =>
      obtain ⟨n, hn⟩ := Nat.exists_eq_succ_of_ne_zero (n := size (c :: before))
        (by simp [size_eq_zero_iff, -size_cons])
      have hrest : n + 1 - c.utf8Size = size before := by
        rw [size_cons] at hn
        omega
      rw [hn, List.cons_append, splitBytes?, if_pos (by rw [size_cons] at hn; omega), hrest, ih]
      rfl

/-- **A text is split at an offset only where one of its characters begins,** and there it is. -/
theorem splitBytes?_eq_some_iff :
    splitBytes? cs n = some (before, after) ↔ cs = before ++ after ∧ n = size before := by
  constructor
  · intro h
    fun_induction splitBytes? cs n generalizing before with
    | case1 cs =>
        obtain ⟨rfl, rfl⟩ := by simpa using h
        exact ⟨rfl, rfl⟩
    | case2 => cases h
    | case3 c cs n hle ih =>
        obtain ⟨⟨front, rest⟩, hsplit, heq⟩ := Option.map_eq_some_iff.mp h
        obtain ⟨rfl, rfl⟩ := Prod.mk.inj heq
        obtain ⟨rfl, hn⟩ := ih hsplit
        refine ⟨rfl, ?_⟩
        rw [size_cons]
        dsimp only at hn ⊢
        omega
    | case4 => cases h
  · rintro ⟨rfl, rfl⟩
    exact splitBytes?_append before after

/-- **A text can be cut at the offsets that are positions of its string.** -/
theorem isSome_splitBytes?_iff (s : String) (n : Nat) :
    (splitBytes? s.toList n).isSome ↔ String.Pos.Raw.IsValid s ⟨n⟩ := by
  have hsize : ∀ t : String, size t.toList = t.utf8ByteSize := by
    intro t
    rw [size, utf8_toList]
    simp
  rw [Option.isSome_iff_exists, String.Pos.Raw.isValid_iff_exists_append]
  constructor
  · rintro ⟨⟨before, after⟩, h⟩
    obtain ⟨hs, rfl⟩ := splitBytes?_eq_some_iff.mp h
    refine ⟨String.ofList before, String.ofList after, ?_, ?_⟩
    · rw [← String.ofList_append, ← hs, String.ofList_toList]
    · rw [String.Pos.Raw.ext_iff, String.byteIdx_rawEndPos, ← hsize, String.toList_ofList]
  · rintro ⟨before, after, rfl, hn⟩
    refine ⟨(before.toList, after.toList), splitBytes?_eq_some_iff.mpr ⟨String.toList_append, ?_⟩⟩
    rw [hsize, ← String.byteIdx_rawEndPos, ← hn]

/-- **What a slice is.**  It is there just when both offsets are boundaries, and
in order. -/
theorem slice?_eq_some_iff : slice? cs start stop = some t ↔
    ∃ pre post, cs = pre ++ t ++ post ∧ start = size pre ∧ stop = size (pre ++ t) := by
  simp only [slice?, Option.bind_eq_bind, Option.bind_eq_some_iff, Option.pure_def,
    Option.some.injEq, Prod.exists, splitBytes?_eq_some_iff]
  constructor
  · rintro ⟨front, post, ⟨rfl, rfl⟩, pre, t, ⟨rfl, rfl⟩, rfl⟩
    exact ⟨pre, post, rfl, rfl, rfl⟩
  · rintro ⟨pre, post, rfl, rfl, rfl⟩
    exact ⟨pre ++ t, post, ⟨rfl, rfl⟩, pre, t, ⟨rfl, rfl⟩, rfl⟩

/-- A part of a text is found between its offsets. -/
theorem slice?_append (pre t post : List Char) :
    slice? (pre ++ t ++ post) (size pre) (size (pre ++ t)) = some t :=
  slice?_eq_some_iff.mpr ⟨pre, post, rfl, rfl, rfl⟩

/-- So is a part at the front. -/
theorem slice?_front (t post : List Char) : slice? (t ++ post) 0 (size t) = some t :=
  slice?_append [] t post

/-- So is a part at the end. -/
theorem slice?_back (pre t : List Char) :
    slice? (pre ++ t) (size pre) (size (pre ++ t)) = some t :=
  slice?_eq_some_iff.mpr ⟨pre, [], (List.append_nil _).symm, rfl, rfl⟩

end ClientRegen.Text
