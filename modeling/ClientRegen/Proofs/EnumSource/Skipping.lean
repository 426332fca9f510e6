import ClientRegen.EnumSource.Lexeme
import Mathlib.Data.List.Basic

/-!
# Scanning bytes

A source is scanned by the offsets of its bytes.  A scanner looks at one byte;
a quote or the mark of a comment makes it go on behind the string or the
comment, and anything else makes it go on at the next byte.  Whatever is met
ends behind its offset and within the bytes (`meet?_bounds`), so a scanner that
goes on from one end to the next gets to the end of any bytes
(`exists_marks?`).

The functions with a question mark in their names read and cut the bytes at
offsets, and have no result where there is nothing to read or to cut.
-/

namespace ClientRegen.EnumSource

variable {bytes : List UInt8} {b : UInt8} {quote : Char} {index k : Nat}

/-! ## The ends of strings and comments -/

/-- Where a string ends that goes on at an offset. -/
def stringEnd (bytes : List UInt8) (quote : Char) (index : Nat) : Nat :=
  match h : bytes[index]? with
  | none => bytes.length
  | some b =>
    if Char.ofUInt8 b = '\\' then stringEnd bytes quote (index + 2)
    else if Char.ofUInt8 b = quote then index + 1
    else stringEnd bytes quote (index + 1)
termination_by bytes.length - index
decreasing_by
  all_goals
    have hindex := (List.getElem?_eq_some_iff.mp h).1
    omega

/-- The offset behind the string that starts at an offset. -/
def skipString? (bytes : List UInt8) (start : Nat) : Option Nat :=
  bytes[start]?.map fun b => stringEnd bytes (Char.ofUInt8 b) (start + 1)

/-- The offset of the end of a line. -/
def skipLine? (bytes : List UInt8) (start : Nat) : Option Nat :=
  if start ≤ bytes.length then
    match (bytes.drop start).findIdx? (Char.ofUInt8 · = '\n') with
    | some offset => some (start + offset)
    | none => some bytes.length
  else none

/-- Where two bytes close a block comment for the first time. -/
def commentEnd? : List UInt8 → Option Nat
  | b :: b' :: bytes =>
    if Char.ofUInt8 b = '*' ∧ Char.ofUInt8 b' = '/' then some 0
    else (commentEnd? (b' :: bytes)).map (· + 1)
  | _ => none

/-- The offset behind the block comment that starts at an offset. -/
def skipBlock? (bytes : List UInt8) (start : Nat) : Option Nat :=
  if start + 2 ≤ bytes.length then
    match commentEnd? (bytes.drop (start + 2)) with
    | some offset => some (start + 2 + offset + 2)
    | none => some bytes.length
  else none

theorem stringEnd_of_none (h : bytes[index]? = none) (quote : Char) :
    stringEnd bytes quote index = bytes.length := by
  rw [stringEnd]
  split <;> simp_all

theorem stringEnd_of_some (h : bytes[index]? = some b) (quote : Char) :
    stringEnd bytes quote index =
      if Char.ofUInt8 b = '\\' then stringEnd bytes quote (index + 2)
      else if Char.ofUInt8 b = quote then index + 1
      else stringEnd bytes quote (index + 1) := by
  rw [stringEnd]
  split <;> simp_all

/-- A string ends within the bytes, and not before the offset unless the bytes
do. -/
theorem stringEnd_bounds (bytes : List UInt8) (quote : Char) (index : Nat) :
    min index bytes.length ≤ stringEnd bytes quote index ∧
      stringEnd bytes quote index ≤ bytes.length := by
  fun_induction stringEnd bytes quote index with
  | case1 => omega
  | case2 index b h hescape ih => omega
  | case3 index b h =>
      have hindex := (List.getElem?_eq_some_iff.mp h).1
      omega
  | case4 index b h hescape hquote ih =>
      have hindex := (List.getElem?_eq_some_iff.mp h).1
      omega

/-- **A string that starts within the bytes ends behind its start and within
them.** -/
theorem skipString?_bounds (h : index < bytes.length) :
    ∃ stop, skipString? bytes index = some stop ∧ index < stop ∧ stop ≤ bytes.length := by
  have hend := stringEnd_bounds bytes (Char.ofUInt8 bytes[index]) (index + 1)
  refine ⟨_, by rw [skipString?, List.getElem?_eq_getElem h, Option.map_some], ?_, ?_⟩ <;> omega

/-- **A line comment ends behind its start and within the bytes.** -/
theorem skipLine?_bounds (h : bytes[index]?.map Char.ofUInt8 = some '/') :
    ∃ stop, skipLine? bytes index = some stop ∧ index < stop ∧ stop ≤ bytes.length := by
  obtain ⟨b, hb, hslash⟩ := Option.map_eq_some_iff.mp h
  obtain ⟨hindex, hb⟩ := List.getElem?_eq_some_iff.mp hb
  rw [skipLine?, if_pos (Nat.le_of_lt hindex)]
  split
  · rename_i offset hoffset
    obtain ⟨hlt, hline, -⟩ := List.findIdx?_eq_some_iff_getElem.mp hoffset
    rw [List.length_drop] at hlt
    refine ⟨_, rfl, ?_, by omega⟩
    rcases Nat.eq_zero_or_pos offset with rfl | hpos
    · simp [hb, hslash] at hline
    · omega
  · exact ⟨_, rfl, hindex, Nat.le_refl _⟩

theorem commentEnd?_le (h : commentEnd? bytes = some k) : k + 2 ≤ bytes.length := by
  fun_induction commentEnd? bytes generalizing k with
  | case1 b b' bytes =>
      cases h
      simp
  | case2 b b' bytes hmark ih =>
      obtain ⟨k, hk, rfl⟩ := Option.map_eq_some_iff.mp h
      have hle := ih hk
      simp only [List.length_cons] at hle ⊢
      omega
  | case3 => cases h

/-- **A block comment whose mark stands within the bytes ends behind its start
and within them.** -/
theorem skipBlock?_bounds (h : index + 2 ≤ bytes.length) :
    ∃ stop, skipBlock? bytes index = some stop ∧ index < stop ∧ stop ≤ bytes.length := by
  rw [skipBlock?, if_pos h]
  split
  · rename_i offset hoffset
    have hle := commentEnd?_le hoffset
    rw [List.length_drop] at hle
    exact ⟨_, rfl, by omega, by omega⟩
  · exact ⟨_, rfl, by omega, Nat.le_refl _⟩

/-! ## What a scanner meets -/

/-- What a scanner meets at an offset. -/
inductive Mark where
  /-- A string up to an offset. -/
  | literal (start stop : Nat)
  /-- A comment up to an offset. -/
  | comment (start stop : Nat)
  /-- Any other byte. -/
  | plain (start : Nat) (byte : UInt8)
deriving DecidableEq, Repr

variable {mark : Mark} {ms : List Mark}

/-- Where a mark starts. -/
def Mark.start : Mark → Nat
  | literal start _ => start
  | comment start _ => start
  | plain start _ => start

/-- Where a scanner goes on behind a mark. -/
def Mark.stop : Mark → Nat
  | literal _ stop => stop
  | comment _ stop => stop
  | plain start _ => start + 1

/-- What a scanner meets at an offset; there is nothing to meet at the end. -/
def meet? (bytes : List UInt8) (index : Nat) : Option Mark := do
  let b ← bytes[index]?
  if isQuote (Char.ofUInt8 b) then
    let stop ← skipString? bytes index
    return .literal index stop
  else if Char.ofUInt8 b = '/' ∧ bytes[index + 1]?.map Char.ofUInt8 = some '/' then
    let stop ← skipLine? bytes index
    return .comment index stop
  else if Char.ofUInt8 b = '/' ∧ bytes[index + 1]?.map Char.ofUInt8 = some '*' then
    let stop ← skipBlock? bytes index
    return .comment index stop
  else return .plain index b

/-- Something is met at every offset within the bytes, and it ends behind the
offset and within them. -/
theorem exists_meet? (h : index < bytes.length) : ∃ mark, meet? bytes index = some mark ∧
    mark.start = index ∧ index < mark.stop ∧ mark.stop ≤ bytes.length := by
  have hb := List.getElem?_eq_getElem h
  simp only [meet?, hb, Option.bind_eq_bind, Option.bind_some, Option.pure_def]
  split
  · obtain ⟨stop, hstop, hbounds⟩ := skipString?_bounds h
    exact ⟨.literal index stop, by rw [hstop, Option.bind_some], rfl, hbounds⟩
  · split
    · rename_i hslash
      have hfirst : bytes[index]?.map Char.ofUInt8 = some '/' := by
        rw [hb, Option.map_some, hslash.1]
      obtain ⟨stop, hstop, hbounds⟩ := skipLine?_bounds hfirst
      exact ⟨.comment index stop, by rw [hstop, Option.bind_some], rfl, hbounds⟩
    · split
      · rename_i hstar
        obtain ⟨b', hb', -⟩ := Option.map_eq_some_iff.mp hstar.2
        have hnext : index + 2 ≤ bytes.length := (List.getElem?_eq_some_iff.mp hb').1
        obtain ⟨stop, hstop, hbounds⟩ := skipBlock?_bounds hnext
        exact ⟨.comment index stop, by rw [hstop, Option.bind_some], rfl, hbounds⟩
      · exact ⟨_, rfl, rfl, Nat.lt_succ_self index, h⟩

/-- **What is met ends behind its offset and within the bytes.** -/
theorem meet?_bounds (h : meet? bytes index = some mark) :
    index < bytes.length ∧ mark.start = index ∧ index < mark.stop ∧ mark.stop ≤ bytes.length := by
  have hindex : index < bytes.length := by
    obtain ⟨b, hb, -⟩ := Option.bind_eq_some_iff.mp h
    exact (List.getElem?_eq_some_iff.mp hb).1
  obtain ⟨mark', hmark', hbounds⟩ := exists_meet? hindex
  rw [h, Option.some.injEq] at hmark'
  exact ⟨hindex, hmark' ▸ hbounds⟩

/-- A string is met at a quote, and goes as far as strings do. -/
theorem meet?_eq_literal {start stop : Nat} (h : meet? bytes index = some (.literal start stop)) :
    ∃ b, bytes[index]? = some b ∧ isQuote (Char.ofUInt8 b) = true ∧
      skipString? bytes index = some stop := by
  obtain ⟨b, hb, hmeet⟩ := Option.bind_eq_some_iff.mp h
  refine ⟨b, hb, ?_⟩
  split at hmeet
  · rename_i hquote
    obtain ⟨stop', hstop, heq⟩ := Option.bind_eq_some_iff.mp hmeet
    cases heq
    exact ⟨hquote, hstop⟩
  · split at hmeet
    · simp [Option.bind_eq_some_iff] at hmeet
    · split at hmeet <;> simp [Option.bind_eq_some_iff] at hmeet

/-- A byte that is met as itself is no quote. -/
theorem meet?_eq_plain {start : Nat} (h : meet? bytes index = some (.plain start b)) :
    bytes[index]? = some b ∧ isQuote (Char.ofUInt8 b) = false := by
  obtain ⟨b', hb, hmeet⟩ := Option.bind_eq_some_iff.mp h
  split at hmeet
  · simp [Option.bind_eq_some_iff] at hmeet
  · rename_i hquote
    split at hmeet
    · simp [Option.bind_eq_some_iff] at hmeet
    · split at hmeet
      · simp [Option.bind_eq_some_iff] at hmeet
      · cases hmeet
        exact ⟨hb, by simpa using hquote⟩

/-- All that a scanner meets from an offset on. -/
def marks? (bytes : List UInt8) (index : Nat) : Option (List Mark) :=
  if index < bytes.length then
    match h : meet? bytes index with
    | none => none
    | some mark =>
      have := meet?_bounds h
      (marks? bytes mark.stop).map (mark :: ·)
  else some []
termination_by bytes.length - index
decreasing_by omega

theorem marks?_eq_some_nil_iff : marks? bytes index = some [] ↔ bytes.length ≤ index := by
  rw [marks?]
  split
  · split <;> simp_all
  · simp_all

theorem marks?_of_meet? (h : meet? bytes index = some mark) :
    marks? bytes index = (marks? bytes mark.stop).map (mark :: ·) := by
  rw [marks?, if_pos (meet?_bounds h).1]
  split <;> simp_all

theorem marks?_eq_some_cons_iff :
    marks? bytes index = some (mark :: ms) ↔
      meet? bytes index = some mark ∧ marks? bytes mark.stop = some ms := by
  constructor
  · intro h
    have hindex : index < bytes.length := by
      by_contra hend
      rw [marks?_eq_some_nil_iff.mpr (Nat.not_lt.mp hend)] at h
      cases h
    obtain ⟨mark', hmark', -⟩ := exists_meet? hindex
    rw [marks?_of_meet? hmark', Option.map_eq_some_iff] at h
    obtain ⟨ms', hms, heq⟩ := h
    obtain ⟨rfl, rfl⟩ := List.cons.inj heq
    exact ⟨hmark', hms⟩
  · rintro ⟨hmark, hms⟩
    rw [marks?_of_meet? hmark, hms, Option.map_some]

/-- **A scanner gets to the end of any bytes.** -/
theorem exists_marks? (bytes : List UInt8) (index : Nat) : ∃ ms, marks? bytes index = some ms := by
  fun_induction marks? bytes index with
  | case1 index hindex hnone =>
      obtain ⟨mark, hmark, -⟩ := exists_meet? hindex
      rw [hnone] at hmark
      cases hmark
  | case2 index hindex mark hmark hbounds ih =>
      obtain ⟨ms, hms⟩ := ih
      exact ⟨mark :: ms, by rw [hms, Option.map_some]⟩
  | case3 => exact ⟨[], rfl⟩

end ClientRegen.EnumSource
