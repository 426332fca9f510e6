import ClientRegen.Number.Basic
import ClientRegen.Proofs.Number.Basins
import Mathlib.Data.List.TakeWhile

/-!
# The texts of numbers

The value of a real can be read back from its text (`textValue_magnitudeText`):
it is the value of the decimal that is written, wherever the point stands and
whether or not there is an exponent part.  No decimal reads back as two numbers,
so different magnitudes have different texts.

An integer has neither a point nor an exponent part and a real has one of them,
so no two numbers have one text (`text_injective`).
-/

namespace ClientRegen.Number

open Binary64

variable {cs digits : List Char} {whole exponent : Int} {c : Char}

/-- The digits of a natural are digits. -/
theorem isDigit_of_mem_toDigits {n : Nat} : ∀ c ∈ Nat.toDigits 10 n, c.isDigit = true :=
  fun _ hc => Nat.isDigit_of_mem_toDigits (by decide) (by decide) hc

/-! ## Reading a text -/

/-- The value of digits with a point among them. -/
def pointValue (cs : List Char) : ℚ :=
  let fraction := (cs.dropWhile (· ≠ '.')).tail
  Nat.ofDigitChars 10 (cs.takeWhile (· ≠ '.') ++ fraction) 0 / 10 ^ fraction.length

/-- The value of an exponent with a sign. -/
def exponentValue : List Char → Int
  | [] => 0
  | sign :: cs =>
    if sign = '-' then -Nat.ofDigitChars 10 cs 0 else Nat.ofDigitChars 10 cs 0

/-- The value of a text without a sign. -/
def textValue (cs : List Char) : ℚ :=
  pointValue (cs.takeWhile (· ≠ 'e')) * 10 ^ exponentValue (cs.dropWhile (· ≠ 'e')).tail

/-- What does not occur is not equal to anything that does, as a test. -/
theorem forall_ne_of_notMem (h : c ∉ digits) : ∀ d ∈ digits, decide (d ≠ c) = true := by
  intro d hd
  exact decide_eq_true fun heq => h (heq ▸ hd)

/-- A text is cut at the first place where a character stands. -/
theorem takeWhile_append_cons (h : c ∉ digits) (rest : List Char) :
    (digits ++ c :: rest).takeWhile (· ≠ c) = digits ∧
      (digits ++ c :: rest).dropWhile (· ≠ c) = c :: rest := by
  rw [List.takeWhile_append_of_pos (forall_ne_of_notMem h),
    List.dropWhile_append_of_pos (forall_ne_of_notMem h)]
  simp

/-- It is not cut where the character does not occur. -/
theorem takeWhile_of_notMem (h : c ∉ digits) :
    digits.takeWhile (· ≠ c) = digits ∧ digits.dropWhile (· ≠ c) = [] :=
  ⟨List.takeWhile_eq_self_iff.mpr (forall_ne_of_notMem h),
    List.dropWhile_eq_nil_iff.mpr (forall_ne_of_notMem h)⟩

/-- Digits around a point are those of a natural over a power of ten. -/
theorem pointValue_append (h : '.' ∉ digits) (fraction : List Char) :
    pointValue (digits ++ '.' :: fraction) =
      Nat.ofDigitChars 10 (digits ++ fraction) 0 / 10 ^ fraction.length := by
  obtain ⟨htake, hdrop⟩ := takeWhile_append_cons h fraction
  rw [pointValue, htake, hdrop, List.tail_cons]

/-- Digits without a point are those of a natural. -/
theorem pointValue_of_notMem (h : '.' ∉ digits) :
    pointValue digits = Nat.ofDigitChars 10 digits 0 := by
  obtain ⟨htake, hdrop⟩ := takeWhile_of_notMem h
  rw [pointValue, htake, hdrop]
  simp

/-- The exponent part scales what stands before it. -/
theorem textValue_append (h : 'e' ∉ cs) (exponent : List Char) :
    textValue (cs ++ 'e' :: exponent) = pointValue cs * 10 ^ exponentValue exponent := by
  obtain ⟨htake, hdrop⟩ := takeWhile_append_cons h exponent
  rw [textValue, htake, hdrop, List.tail_cons]

/-- Without an exponent part nothing is scaled. -/
theorem textValue_of_notMem (h : 'e' ∉ cs) : textValue cs = pointValue cs := by
  obtain ⟨htake, hdrop⟩ := takeWhile_of_notMem h
  rw [textValue, htake, hdrop]
  simp [exponentValue]

/-! ## Reading what is written -/

/-- Among digits there is nothing but digits. -/
theorem notMem_of_isDigit (h : ∀ d ∈ digits, d.isDigit = true) (hc : c.isDigit = false) :
    c ∉ digits :=
  fun hmem => by simp [h c hmem] at hc

theorem isDigit_of_mem_zeros {n : Nat} (h : c ∈ List.replicate n '0') : c.isDigit = true := by
  rw [List.eq_of_mem_replicate h]
  rfl

/-- **A point is set by filling up with zeros or by parting the digits.**  Digits stand
on either side of it, and they are those given, up to a power of ten. -/
theorem exists_pointed_eq (h : ∀ d ∈ digits, d.isDigit = true) (hne : digits ≠ []) (whole : Int) :
    ∃ before after : List Char, pointed digits whole = before ++ '.' :: after ∧ before ≠ [] ∧
      (∀ d ∈ before, d.isDigit = true) ∧ (∀ d ∈ after, d.isDigit = true) ∧
      (Nat.ofDigitChars 10 (before ++ after) 0 : ℚ) =
        Nat.ofDigitChars 10 digits 0 * 10 ^ (whole - digits.length + after.length) := by
  unfold pointed
  split
  · rename_i hwhole
    obtain ⟨n, rfl⟩ : ∃ n : Nat, whole = -n := ⟨whole.natAbs, by omega⟩
    refine ⟨['0'], List.replicate n '0' ++ digits, by simp, by simp, by simp, ?_, ?_⟩
    · intro d hd
      rcases List.mem_append.mp hd with hd | hd
      · exact isDigit_of_mem_zeros hd
      · exact h d hd
    · rw [List.singleton_append, ← List.cons_append, ← List.replicate_succ, Nat.ofDigitChars_append,
        Nat.ofDigitChars_replicate_zero, mul_zero, List.length_append, List.length_replicate]
      push_cast
      rw [show -(n : Int) - digits.length + (n + digits.length) = 0 by ring, zpow_zero, mul_one]
  · rename_i hwhole
    obtain ⟨n, rfl⟩ := Int.eq_ofNat_of_zero_le (le_of_not_ge hwhole)
    simp only [Int.toNat_natCast]
    split
    · rename_i hlength
      refine ⟨digits ++ List.replicate (n - digits.length) '0', ['0'], by simp, by simp [hne], ?_,
        by simp, ?_⟩
      · intro d hd
        rcases List.mem_append.mp hd with hd | hd
        · exact h d hd
        · exact isDigit_of_mem_zeros hd
      · rw [List.append_assoc, ← List.replicate_succ', Nat.ofDigitChars_append,
          Nat.ofDigitChars_replicate_zero, ← Nat.cast_sub hlength, List.length_singleton]
        push_cast
        rw [mul_comm]
        norm_cast
    · rename_i hlength
      have hn : 0 < n := by omega
      refine ⟨digits.take n, digits.drop n, rfl, ?_, fun d hd => h d (List.mem_of_mem_take hd),
        fun d hd => h d (List.mem_of_mem_drop hd), ?_⟩
      · simp [List.take_eq_nil_iff, hne, hn.ne']
      · rw [List.take_append_drop, List.length_drop, Nat.cast_sub (by omega)]
        rw [show (n : Int) - digits.length + (digits.length - n) = 0 by ring, zpow_zero, mul_one]

/-- A point that is set after some digits scales them by a power of ten. -/
theorem textValue_pointed (h : ∀ d ∈ digits, d.isDigit = true) (hne : digits ≠ []) (whole : Int) :
    textValue (pointed digits whole) =
      Nat.ofDigitChars 10 digits 0 * 10 ^ (whole - digits.length) := by
  obtain ⟨before, after, heq, -, hbefore, hafter, hvalue⟩ := exists_pointed_eq h hne whole
  have hplain : 'e' ∉ before ++ '.' :: after := by
    simp [notMem_of_isDigit hbefore, notMem_of_isDigit hafter]
  rw [heq, textValue_of_notMem hplain, pointValue_append (notMem_of_isDigit hbefore rfl), hvalue,
    zpow_add₀ (by norm_num), zpow_natCast]
  field_simp

/-- With an exponent part the point stands behind the first digit, if others follow. -/
theorem exists_scientific_eq (h : ∀ d ∈ digits, d.isDigit = true) (hne : digits ≠ [])
    (exponent : Int) :
    ∃ mantissa : List Char, scientific digits exponent =
        mantissa ++ 'e' :: (if exponent < 0 then '-' else '+') :: Nat.toDigits 10 exponent.natAbs ∧
      mantissa.head? = digits.head? ∧ (∀ d ∈ mantissa, d.isDigit = true ∨ d = '.') ∧
      pointValue mantissa = Nat.ofDigitChars 10 digits 0 * 10 ^ (1 - (digits.length : Int)) := by
  unfold scientific
  match digits, hne with
  | [d], _ =>
      refine ⟨[d], rfl, rfl, fun c hc => .inl (h c hc), ?_⟩
      rw [pointValue_of_notMem (notMem_of_isDigit h rfl)]
      simp
  | d :: d' :: ds, _ =>
      refine ⟨d :: '.' :: d' :: ds, rfl, rfl, ?_, ?_⟩
      · intro c hc
        rcases List.mem_cons.mp hc with rfl | hc
        · exact .inl (h c (by simp))
        · rcases List.mem_cons.mp hc with rfl | hc
          · exact .inr rfl
          · exact .inl (h c (List.mem_cons_of_mem d hc))
      · have hfirst : '.' ∉ [d] := notMem_of_isDigit (fun c hc => h c (by simp_all)) rfl
        rw [← List.singleton_append, pointValue_append hfirst, List.length_cons, List.length_cons,
          List.length_cons]
        push_cast
        have hexponent : (1 : Int) - (ds.length + 1 + 1) = -((ds.length + 1 : Nat) : Int) := by
          push_cast
          ring
        rw [hexponent, zpow_neg, zpow_natCast, div_eq_mul_inv]
        rfl

/-- An exponent is read back from its sign and digits. -/
theorem exponentValue_eq (exponent : Int) :
    exponentValue ((if exponent < 0 then '-' else '+') :: Nat.toDigits 10 exponent.natAbs) =
      exponent := by
  rw [exponentValue, Nat.ofDigitChars_ten_toDigits]
  split
  · rw [if_pos rfl]
    omega
  · rw [if_neg (by decide)]
    omega

/-- An exponent part puts the digits where a point would. -/
theorem textValue_scientific (h : ∀ d ∈ digits, d.isDigit = true) (hne : digits ≠ [])
    (exponent : Int) :
    textValue (scientific digits exponent) =
      Nat.ofDigitChars 10 digits 0 * 10 ^ (exponent + 1 - digits.length) := by
  obtain ⟨mantissa, heq, -, hchars, hvalue⟩ := exists_scientific_eq h hne exponent
  have hplain : 'e' ∉ mantissa := by
    intro hmem
    simpa using hchars 'e' hmem
  rw [heq, textValue_append hplain, hvalue, exponentValue_eq, mul_assoc,
    ← zpow_add₀ (by norm_num)]
  congr 2
  ring

/-! ## Reals -/

/-- **The value can be read back from the text of a magnitude.** -/
theorem textValue_magnitudeText (f : RealFormat) (x : Binary64) :
    textValue (magnitudeText f x) =
      if x.significand = 0 then 0 else (x.shortest.trimZeros 17).value := by
  unfold magnitudeText
  split
  · rw [textValue_of_notMem (by decide), ← List.singleton_append,
      pointValue_append (by decide)]
    simp [Nat.ofDigitChars]
  · have hdigits := isDigit_of_mem_toDigits (n := (x.shortest.trimZeros 17).digits)
    have hne := Nat.toDigits_ne_nil (b := 10) (n := (x.shortest.trimZeros 17).digits)
    dsimp only
    split
    · rw [textValue_pointed hdigits hne, Nat.ofDigitChars_ten_toDigits, Decimal.value]
      congr 2
      ring
    · rw [textValue_scientific hdigits hne, Nat.ofDigitChars_ten_toDigits, Decimal.value]
      congr 2
      ring

/-- **Different magnitudes have different texts,** in whatever format: no value reads back as
two. -/
theorem magnitudeText_injective (f : RealFormat) : Function.Injective (magnitudeText f) := by
  intro x y h
  have hvalue := congrArg textValue h
  rw [textValue_magnitudeText, textValue_magnitudeText] at hvalue
  have hreads : ∀ z : Binary64, z.significand ≠ 0 → ReadsAs (z.shortest.trimZeros 17).value z := by
    intro z hz
    rw [Decimal.value_trimZeros]
    exact readsAs_shortest (Nat.pos_of_ne_zero hz)
  split at hvalue
  · rename_i hx
    split at hvalue
    · rename_i hy
      exact eq_of_significand_eq_zero hx hy
    · rename_i hy
      exact absurd (hvalue ▸ hreads y hy) (not_readsAs_zero (Nat.pos_of_ne_zero hy))
  · rename_i hx
    split at hvalue
    · exact absurd (hvalue ▸ hreads x hx) (not_readsAs_zero (Nat.pos_of_ne_zero hx))
    · rename_i hy
      exact (hreads x hx).unique (hvalue ▸ hreads y hy)

/-- The text of a real without its sign, told by its characters. -/
structure IsRealText (cs : List Char) : Prop where
  /-- A digit stands first. -/
  head_isDigit : ∀ c ∈ cs.head?, c.isDigit = true
  /-- There is a point or an exponent part. -/
  marked : '.' ∈ cs ∨ 'e' ∈ cs
  /-- There are no other characters than digits, these and signs. -/
  chars : ∀ c ∈ cs, c.isDigit = true ∨ c ∈ ['.', 'e', '+', '-']

/-- Digits with a point are the text of a real. -/
theorem isRealText_pointed (h : ∀ d ∈ digits, d.isDigit = true) (hne : digits ≠ []) (whole : Int) :
    IsRealText (pointed digits whole) := by
  obtain ⟨before, after, heq, hbeforene, hbefore, hafter, -⟩ := exists_pointed_eq h hne whole
  rw [heq]
  refine ⟨?_, .inl (by simp), ?_⟩
  · rw [List.head?_append_of_ne_nil _ hbeforene]
    exact fun c hc => hbefore c (List.mem_of_head? hc)
  · intro c hc
    rcases List.mem_append.mp hc with hc | hc
    · exact .inl (hbefore c hc)
    · rcases List.mem_cons.mp hc with rfl | hc
      · exact .inr (by decide)
      · exact .inl (hafter c hc)

/-- So are digits with an exponent part. -/
theorem isRealText_scientific (h : ∀ d ∈ digits, d.isDigit = true) (hne : digits ≠ [])
    (exponent : Int) : IsRealText (scientific digits exponent) := by
  obtain ⟨mantissa, heq, hhead, hchars, -⟩ := exists_scientific_eq h hne exponent
  rw [heq]
  refine ⟨?_, .inr (by simp), ?_⟩
  · have hmantissa : mantissa ≠ [] := by
      rintro rfl
      exact hne (List.head?_eq_none_iff.mp hhead.symm)
    rw [List.head?_append_of_ne_nil _ hmantissa, hhead]
    exact fun c hc => h c (List.mem_of_head? hc)
  · intro c hc
    rcases List.mem_append.mp hc with hc | hc
    · exact (hchars c hc).imp id fun hpoint => by rw [hpoint]; decide
    · rcases List.mem_cons.mp hc with rfl | hc
      · exact .inr (by decide)
      · rcases List.mem_cons.mp hc with rfl | hc
        · exact .inr (by split <;> decide)
        · exact .inl (isDigit_of_mem_toDigits _ hc)

/-- So whatever is written for a magnitude is one. -/
theorem isRealText_magnitudeText (f : RealFormat) (x : Binary64) :
    IsRealText (magnitudeText f x) := by
  unfold magnitudeText
  split
  · exact ⟨by simp, .inl (by simp), by simp⟩
  · have hdigits := isDigit_of_mem_toDigits (n := (x.shortest.trimZeros 17).digits)
    have hne := Nat.toDigits_ne_nil (b := 10) (n := (x.shortest.trimZeros 17).digits)
    dsimp only
    split
    · exact isRealText_pointed hdigits hne _
    · exact isRealText_scientific hdigits hne _

/-! ## Numbers -/

/-- Different naturals have different digits. -/
theorem toDigits_injective : Function.Injective (Nat.toDigits 10) := by
  intro n n' h
  rw [← Nat.ofDigitChars_ten_toDigits (n := n), h, Nat.ofDigitChars_ten_toDigits]

/-- The digits of an integer, behind a sign if it is negative. -/
theorem toList_text_integer (value : Int) : (integer value).text.toList =
    (if value < 0 then ['-'] else []) ++ Nat.toDigits 10 value.natAbs := by
  rw [text, Int.toString_eq_repr, Int.repr_eq_if]
  split
  · rename_i h
    rw [if_neg (by omega), Nat.repr_eq_ofList_toDigits, String.toList_ofList,
      show value.toNat = value.natAbs by omega, List.nil_append]
  · rename_i h
    rw [if_pos (by omega), String.toList_append, Nat.repr_eq_ofList_toDigits, String.toList_ofList,
      show (-value).toNat = value.natAbs by omega, String.toList_ofList]

/-- The text of an integer has digits and perhaps a sign. -/
theorem mem_text_integer {value : Int} (h : c ∈ (integer value).text.toList) :
    c.isDigit = true ∨ c = '-' := by
  rw [toList_text_integer] at h
  rcases List.mem_append.mp h with h | h
  · right
    split at h <;> simp_all
  · exact .inl (isDigit_of_mem_toDigits _ h)

/-- An integer and a real never have one text: one of them has a mark. -/
theorem text_integer_ne_real {value : Int} {negative : Bool} {magnitude : Binary64} :
    (integer value).text ≠ (real negative magnitude).text := by
  intro heq
  obtain ⟨c, hc, hmark⟩ : ∃ c ∈ magnitudeText realFormat magnitude, c = '.' ∨ c = 'e' := by
    rcases (isRealText_magnitudeText realFormat magnitude).marked with h | h
    · exact ⟨_, h, .inl rfl⟩
    · exact ⟨_, h, .inr rfl⟩
  have hmem : c ∈ (integer value).text.toList := by
    rw [heq, text, String.toList_ofList]
    exact List.mem_append_right _ hc
  rcases mem_text_integer hmem with hdigit | rfl
  · rcases hmark with rfl | rfl <;> cases hdigit
  · simp at hmark

/-- The characters of a number's text. -/
theorem mem_text {n : Number} (h : c ∈ n.text.toList) :
    c.isDigit = true ∨ c ∈ ['.', 'e', '+', '-'] := by
  cases n with
  | integer value =>
      exact (mem_text_integer h).imp id fun hsign => by rw [hsign]; decide
  | real negative magnitude =>
      rw [text, String.toList_ofList] at h
      rcases List.mem_append.mp h with h | h
      · right
        split at h <;> simp_all
      · exact (isRealText_magnitudeText _ _).chars c h

/-- A sign stands before a digit, so it can be told from what it stands before. -/
theorem sign_append_inj {p p' : Prop} [Decidable p] [Decidable p'] {cs cs' : List Char}
    (hcs : ∀ c ∈ cs.head?, c.isDigit = true) (hcs' : ∀ c ∈ cs'.head?, c.isDigit = true)
    (h : (if p then ['-'] else []) ++ cs = (if p' then ['-'] else []) ++ cs') :
    (p ↔ p') ∧ cs = cs' := by
  have hnosign : ∀ ds ds' : List Char, (∀ c ∈ ds.head?, c.isDigit = true) → ds ≠ '-' :: ds' := by
    rintro ds ds' hhead rfl
    exact absurd (hhead '-' rfl) (by decide)
  by_cases hp : p <;> by_cases hp' : p' <;> simp only [hp, hp', if_true, if_false] at h
  · exact ⟨by simp [hp, hp'], (List.cons.inj h).2⟩
  · exact absurd h.symm (hnosign cs' cs hcs')
  · exact absurd h (hnosign cs cs' hcs)
  · exact ⟨by simp [hp, hp'], h⟩

/-- **Different numbers have different texts.** -/
theorem text_injective : Function.Injective text := by
  have hdigit : ∀ n : Nat, ∀ c ∈ (Nat.toDigits 10 n).head?, c.isDigit = true := fun n c hc =>
    isDigit_of_mem_toDigits _ (List.mem_of_head? hc)
  have hreal := fun x => (isRealText_magnitudeText realFormat x).head_isDigit
  rintro (value | ⟨negative, magnitude⟩) (value' | ⟨negative', magnitude'⟩) h
  · have hchars := congrArg String.toList h
    rw [toList_text_integer, toList_text_integer] at hchars
    obtain ⟨hsign, hdigits⟩ := sign_append_inj (hdigit _) (hdigit _) hchars
    have habs := toDigits_injective hdigits
    congr 1
    omega
  · exact absurd h text_integer_ne_real
  · exact absurd h.symm text_integer_ne_real
  · obtain ⟨hsign, hmagnitude⟩ :=
      sign_append_inj (hreal magnitude) (hreal magnitude') (String.ofList_inj.mp h)
    rw [Bool.eq_iff_iff.mpr hsign, magnitudeText_injective realFormat hmagnitude]

end ClientRegen.Number
