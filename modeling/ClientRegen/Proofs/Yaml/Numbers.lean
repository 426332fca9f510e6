import ClientRegen.Proofs.Number.Rounding
import ClientRegen.Proofs.Number.Text
import ClientRegen.Yaml.Meaning
import Mathlib.Data.List.TakeDrop

/-!
# Numbers that are read back

A plain scalar that spells the text of a number stands for this number
(`plainValue?_text`).

The reader of decimals takes what is written for a magnitude apart where the
writer put it together: the digits before the point, those behind it and the
exponent part.  So it answers the number that the value of the text reads back as
(`decimal?_magnitudeText_eq_some_iff`), and the value of a written text reads back
as the number that it was written for.

A text with a point or an exponent part is no integer, and no text of a number is
one of the words for nothing, a truth value or infinity, since none of them has a
digit.
-/

namespace ClientRegen.Yaml

open Binary64 Number

variable {cs digits before after rest : List Char} {c : Char} {x : Binary64} {n : Nat}

/-! ## Digits -/

/-- The reader's value of digits is that of the library. -/
theorem decimalValue_eq (ds : List Char) : decimalValue ds = Nat.ofDigitChars 10 ds 0 := by
  simp only [decimalValue, Nat.ofDigitChars, Nat.mul_comm 10]

/-- A run of digits ends before what is no digit. -/
theorem span_digits_append (h : ∀ c ∈ digits, c.isDigit = true)
    (hrest : ∀ c ∈ rest.head?, c.isDigit = false) :
    (digits ++ rest).span Char.isDigit = (digits, rest) := by
  rw [List.span_eq_takeWhile_dropWhile, List.takeWhile_append_of_pos h,
    List.dropWhile_append_of_pos h]
  cases rest with
  | nil => simp
  | cons c cs =>
      have hc := hrest c rfl
      simp [hc]

/-- The digits of a natural begin with a digit. -/
theorem exists_toDigits_eq_cons (n : Nat) :
    ∃ c cs, Nat.toDigits 10 n = c :: cs ∧ c.isDigit = true := by
  cases hdigits : Nat.toDigits 10 n with
  | nil => exact absurd hdigits Nat.toDigits_ne_nil
  | cons c cs =>
      exact ⟨c, cs, rfl, isDigit_of_mem_toDigits (n := n) c (hdigits ▸ List.mem_cons_self)⟩

/-- The digits of a positive natural do not begin with a zero. -/
theorem head?_toDigits_ne (h : 0 < n) : (Nat.toDigits 10 n).head? ≠ some '0' := by
  induction n using Nat.strong_induction_on with
  | _ n ih =>
      rw [Nat.toDigits_eq_if (by decide)]
      split
      · simp [h.ne']
      · rename_i hlarge
        rw [List.head?_append_of_ne_nil _ Nat.toDigits_ne_nil]
        exact ih (n / 10) (by omega) (by omega)

/-- A digit is no sign. -/
theorem ne_sign_of_isDigit (h : c.isDigit = true) : c ≠ '-' ∧ c ≠ '+' := by
  constructor
  all_goals
    intro heq
    rw [heq] at h
    cases h

/-! ## The parts of a decimal -/

/-- An exponent is read back from its part. -/
theorem exponent?_eq (exponent : Int) :
    exponent? ('e' :: (if exponent < 0 then '-' else '+') :: Nat.toDigits 10 exponent.natAbs) =
      some exponent := by
  have hdigits : (Nat.toDigits 10 exponent.natAbs).all Char.isDigit = true :=
    List.all_eq_true.mpr isDigit_of_mem_toDigits
  have hne : Nat.toDigits 10 exponent.natAbs ≠ [] := Nat.toDigits_ne_nil
  have hvalue : decimalValue (Nat.toDigits 10 exponent.natAbs) = exponent.natAbs := by
    rw [decimalValue_eq, Nat.ofDigitChars_ten_toDigits]
  by_cases h : exponent < 0
  · rw [if_pos h]
    simp only [exponent?, hdigits, hvalue]
    rw [if_pos (.inl trivial), if_neg (by simp [hne]), if_pos trivial]
    congr 1
    omega
  · rw [if_neg h]
    simp only [exponent?, hdigits, hvalue]
    rw [if_pos (.inl trivial), if_neg (by simp [hne]), if_neg (by decide)]
    congr 1
    omega

/-- A mark ends a run of digits. -/
theorem head?_mark {mark : Char} (h : mark.isDigit = false) (rest : List Char) :
    ∀ c ∈ (mark :: rest).head?, c.isDigit = false := by
  intro c hc
  obtain rfl := Option.some.inj hc
  exact h

/-- Digits before and behind a point are read as one natural over a power of ten. -/
theorem decimal?_append_point (hbefore : ∀ c ∈ before, c.isDigit = true) (hne : before ≠ [])
    (hafter : ∀ c ∈ after, c.isDigit = true) (hrest : ∀ c ∈ rest.head?, c.isDigit = false) :
    decimal? (before ++ '.' :: (after ++ rest)) = (exponent? rest).bind fun e =>
      ofDecimal? (Nat.ofDigitChars 10 (before ++ after) 0) (e - after.length) := by
  have hpoint : ∀ c ∈ ('.' :: (after ++ rest)).head?, c.isDigit = false := head?_mark rfl _
  unfold decimal?
  simp only [span_digits_append hbefore hpoint, span_digits_append hafter hrest]
  rw [if_neg (by simp [hne]), decimalValue_eq]
  cases exponent? rest with
  | none => rfl
  | some e => rfl

/-- Digits without a point are read as a natural times a power of ten. -/
theorem decimal?_append_exponent (h : ∀ c ∈ digits, c.isDigit = true) (hne : digits ≠ []) :
    decimal? (digits ++ 'e' :: rest) = (exponent? ('e' :: rest)).bind fun e =>
      ofDecimal? (Nat.ofDigitChars 10 digits 0) e := by
  have hmark : ∀ c ∈ ('e' :: rest).head?, c.isDigit = false := head?_mark rfl rest
  unfold decimal?
  simp only [span_digits_append h hmark, List.cons.injEq, Char.reduceEq, false_and, imp_self,
    implies_true]
  rw [if_neg (by simp [hne]), decimalValue_eq, List.append_nil]
  cases exponent? ('e' :: rest) with
  | none => rfl
  | some e => simp

/-! ## Magnitudes -/

/-- Digits with a point are read as the number that their value reads back as. -/
theorem decimal?_pointed_eq_some_iff (h : ∀ d ∈ digits, d.isDigit = true) (hne : digits ≠ [])
    (whole : Int) : decimal? (pointed digits whole) = some x ↔
      ReadsAs (textValue (pointed digits whole)) x := by
  obtain ⟨before, after, heq, hbeforene, hbefore, hafter, hvalue⟩ := exists_pointed_eq h hne whole
  have hend : ∀ c ∈ ([] : List Char).head?, c.isDigit = false := by simp
  have hread := decimal?_append_point hbefore hbeforene hafter hend
  rw [List.append_nil] at hread
  rw [textValue_pointed h hne, heq, hread]
  simp only [exponent?, Option.bind_some]
  rw [ofDecimal?_eq_some_iff, hvalue, mul_assoc, ← zpow_add₀ (by norm_num)]
  rw [show whole - digits.length + after.length + (0 - after.length) = whole - digits.length
    by ring]

/-- So are digits with an exponent part. -/
theorem decimal?_scientific_eq_some_iff (h : ∀ d ∈ digits, d.isDigit = true) (hne : digits ≠ [])
    (exponent : Int) : decimal? (scientific digits exponent) = some x ↔
      ReadsAs (textValue (scientific digits exponent)) x := by
  rw [textValue_scientific h hne]
  unfold scientific
  match digits, hne with
  | [d], hne =>
      rw [decimal?_append_exponent h hne, exponent?_eq, Option.bind_some, ofDecimal?_eq_some_iff]
      simp
  | d :: d' :: ds, _ =>
      have hfirst : ∀ c ∈ [d], c.isDigit = true := fun c hc => h c (by simp_all)
      have hothers : ∀ c ∈ d' :: ds, c.isDigit = true := fun c hc => h c (List.mem_cons_of_mem d hc)
      have hexponent : exponent - ((d' :: ds).length : Int) =
          exponent + 1 - ((d :: d' :: ds).length : Int) := by
        simp only [List.length_cons]
        push_cast
        ring
      dsimp only
      rw [show ∀ r, (d :: '.' :: d' :: ds) ++ r = [d] ++ '.' :: ((d' :: ds) ++ r) from fun _ => rfl,
        decimal?_append_point hfirst (by simp) hothers (head?_mark rfl _), exponent?_eq,
        Option.bind_some, ofDecimal?_eq_some_iff, hexponent]
      rfl

/-- **The text of a magnitude is read as the number that its value reads back as.** -/
theorem decimal?_magnitudeText_eq_some_iff (f : RealFormat) (y : Binary64) :
    decimal? (magnitudeText f y) = some x ↔ ReadsAs (textValue (magnitudeText f y)) x := by
  have hdigits := isDigit_of_mem_toDigits (n := (y.shortest.trimZeros 17).digits)
  have hne := Nat.toDigits_ne_nil (b := 10) (n := (y.shortest.trimZeros 17).digits)
  unfold magnitudeText
  split
  · have hzero : ∀ d ∈ ['0'], d.isDigit = true := by simp
    exact decimal?_pointed_eq_some_iff hzero (by simp) 1
  · dsimp only
    split
    · exact decimal?_pointed_eq_some_iff hdigits hne _
    · exact decimal?_scientific_eq_some_iff hdigits hne _

/-- A magnitude is read back from its text. -/
theorem decimal?_magnitudeText (f : RealFormat) (x : Binary64) :
    decimal? (magnitudeText f x) = some x := by
  rw [decimal?_magnitudeText_eq_some_iff, textValue_magnitudeText]
  split
  · rename_i hzero
    rw [eq_of_significand_eq_zero hzero (y := zero) rfl]
    exact readsAs_zero le_rfl (by positivity)
  · rename_i hpos
    rw [Decimal.value_trimZeros]
    exact readsAs_shortest (Nat.pos_of_ne_zero hpos)

/-! ## Naturals and integers -/

/-- Of the digits that a base may have only the decimal ones are less than ten. -/
theorem readDigit_eq (m : Nat) (c : Char) :
    (match hexValue? c with
      | some d => if d < 10 then some (m * 10 + d) else none
      | none => none) =
      if c.isDigit then some (10 * m + (c.toNat - '0'.toNat)) else none := by
  unfold hexValue?
  by_cases hc : c.isDigit = true
  · have hlast : c.toNat ≤ '9'.toNat := by
      simp only [Char.isDigit, Bool.and_eq_true, decide_eq_true_eq] at hc
      exact hc.2
    have hless : c.toNat - '0'.toNat < 10 := by
      change c.toNat ≤ 57 at hlast
      change c.toNat - 48 < 10
      omega
    rw [if_pos hc, if_pos hc]
    dsimp only
    rw [if_pos hless, Nat.mul_comm]
  · grind

/-- A natural is read from decimal digits, and from nothing else. -/
theorem natural?_eq_some_iff : natural? 10 cs = some n ↔
    cs ≠ [] ∧ (∀ c ∈ cs, c.isDigit = true) ∧ Nat.ofDigitChars 10 cs 0 = n := by
  have hfold : ∀ (ds : List Char) (m : Nat),
      ds.foldlM (fun m c => if c.isDigit then some (10 * m + (c.toNat - '0'.toNat)) else none) m =
        some n ↔ (∀ c ∈ ds, c.isDigit = true) ∧ Nat.ofDigitChars 10 ds m = n := by
    intro ds
    induction ds with
    | nil => simp [Nat.ofDigitChars]
    | cons c ds ih =>
        intro m
        rw [List.foldlM_cons, List.forall_mem_cons, Nat.ofDigitChars_cons]
        by_cases hc : c.isDigit = true
        · simpa [hc] using ih _
        · simp [hc]
  have hread : cs.foldlM (fun m c =>
      match hexValue? c with
      | some d => if d < 10 then some (m * 10 + d) else none
      | none => none) 0 = some n ↔
        (∀ c ∈ cs, c.isDigit = true) ∧ Nat.ofDigitChars 10 cs 0 = n := by
    simp only [readDigit_eq]
    exact hfold cs 0
  unfold natural?
  split
  · rename_i hnil
    simp [List.isEmpty_iff.mp hnil]
  · rename_i hne
    rw [and_iff_right (by simpa using hne)]
    exact hread

/-- Digits are padded behind a sign as without it. -/
theorem zeroPadded_minus (h : c.isDigit = true) (cs : List Char) :
    zeroPadded ('-' :: c :: cs) = zeroPadded (c :: cs) := by
  obtain ⟨hminus, hplus⟩ := ne_sign_of_isDigit h
  simp [zeroPadded, hminus, hplus]

/-- Where digits are padded a zero stands before others. -/
theorem of_zeroPadded (h : c.isDigit = true) (hpadded : zeroPadded (c :: cs) = true) :
    c = '0' ∧ ∀ d ∈ cs, d.isDigit = true := by
  obtain ⟨hminus, hplus⟩ := ne_sign_of_isDigit h
  simp only [zeroPadded] at hpadded
  grind

/-- The digits of a natural are not padded. -/
theorem zeroPadded_toDigits (n : Nat) : zeroPadded (Nat.toDigits 10 n) = false := by
  rcases Nat.eq_zero_or_pos n with rfl | hpos
  · rfl
  · obtain ⟨c, cs, hdigits, hc⟩ := exists_toDigits_eq_cons n
    have hhead := head?_toDigits_ne hpos
    rw [hdigits] at hhead ⊢
    by_contra hpadded
    obtain ⟨hzero, -⟩ := of_zeroPadded hc (by simpa using hpadded)
    exact hhead (congrArg some hzero)

/-- Without one of three letters no base is announced. -/
theorem announced?_of_notMem (h : 'x' ∉ cs ∧ 'o' ∉ cs ∧ 'b' ∉ cs) : announced? cs = none := by
  unfold announced?
  grind

/-- A natural is read back from its digits. -/
theorem magnitude?_toDigits (n : Nat) : magnitude? (Nat.toDigits 10 n) = some n := by
  have hdigits := isDigit_of_mem_toDigits (n := n)
  have hplain : announced? (Nat.toDigits 10 n) = none :=
    announced?_of_notMem ⟨notMem_of_isDigit hdigits rfl, notMem_of_isDigit hdigits rfl,
      notMem_of_isDigit hdigits rfl⟩
  have hread : natural? 10 (Nat.toDigits 10 n) = some n :=
    natural?_eq_some_iff.mpr ⟨Nat.toDigits_ne_nil, hdigits, Nat.ofDigitChars_ten_toDigits⟩
  rw [magnitude?, hplain]
  dsimp only
  rw [zeroPadded_toDigits, if_neg (by decide), hread]

/-- What stands behind a minus is a magnitude. -/
theorem integer?_minus (cs : List Char) :
    integer? ('-' :: cs) = Option.map (fun n : Nat => -(n : Int)) (magnitude? cs) := by
  cases hvalue : magnitude? cs with
  | none => simp [integer?, hvalue]
  | some n => simp [integer?, hvalue]

/-- What begins with a digit is a magnitude. -/
theorem integer?_of_isDigit (h : c.isDigit = true) :
    integer? (c :: cs) = Option.map (fun n : Nat => (n : Int)) (magnitude? (c :: cs)) := by
  obtain ⟨hminus, hplus⟩ := ne_sign_of_isDigit h
  cases hvalue : magnitude? (c :: cs) with
  | none => simp [integer?, hvalue, hminus, hplus]
  | some n => simp [integer?, hvalue, hminus, hplus]

/-- An integer is read back from its text. -/
theorem integer?_text (value : Int) : integer? (integer value).text.toList = some value := by
  rw [toList_text_integer]
  split
  · rename_i hneg
    rw [List.singleton_append, integer?_minus, magnitude?_toDigits, Option.map_some]
    congr 1
    omega
  · rename_i hneg
    obtain ⟨c, cs, hdigits, hc⟩ := exists_toDigits_eq_cons value.natAbs
    rw [List.nil_append, hdigits, integer?_of_isDigit hc, ← hdigits, magnitude?_toDigits,
      Option.map_some]
    congr 1
    omega

/-! ## Reals -/

/-- What has a point or an exponent part is no natural. -/
theorem magnitude?_of_isRealText (h : IsRealText cs) : magnitude? cs = none := by
  have hother : ∀ c, c.isDigit = false → c ∉ ['.', 'e', '+', '-'] → c ∉ cs := by
    intro c hno hmarks hmem
    rcases h.chars c hmem with hc | hc
    · simp [hno] at hc
    · exact hmarks hc
  have hplain : announced? cs = none :=
    announced?_of_notMem ⟨hother 'x' rfl (by decide), hother 'o' rfl (by decide),
      hother 'b' rfl (by decide)⟩
  have hnatural : natural? 10 cs = none := by
    by_contra hsome
    obtain ⟨n, hn⟩ := Option.ne_none_iff_exists'.mp hsome
    obtain ⟨-, hdigits, -⟩ := natural?_eq_some_iff.mp hn
    rcases h.marked with hmark | hmark
    · exact absurd (hdigits _ hmark) (by decide)
    · exact absurd (hdigits _ hmark) (by decide)
  rw [magnitude?, hplain]
  dsimp only
  rw [hnatural, ite_self]

/-- Behind its first digit a real has a mark. -/
theorem exists_cons_of_isRealText (h : IsRealText cs) :
    ∃ c ds, cs = c :: ds ∧ c.isDigit = true ∧ ∃ mark ∈ ds, mark.isDigit = false := by
  cases cs with
  | nil => simpa using h.marked
  | cons c ds =>
      have hc := h.head_isDigit c rfl
      have hbehind : ∀ mark ∈ c :: ds, mark.isDigit = false → mark ∈ ds := by
        intro mark hmem hmark
        refine (List.mem_cons.mp hmem).resolve_left fun heq => ?_
        rw [heq, hc] at hmark
        cases hmark
      rcases h.marked with hmark | hmark
      · exact ⟨c, ds, rfl, hc, '.', hbehind _ hmark rfl, rfl⟩
      · exact ⟨c, ds, rfl, hc, 'e', hbehind _ hmark rfl, rfl⟩

/-- A real is not padded. -/
theorem zeroPadded_of_isRealText (h : IsRealText cs) (negative : Bool) :
    zeroPadded ((if negative then ['-'] else []) ++ cs) = false := by
  obtain ⟨c, ds, rfl, hc, mark, hmem, hmark⟩ := exists_cons_of_isRealText h
  have hplain : zeroPadded (c :: ds) = false := by
    by_contra hpadded
    obtain ⟨-, hdigits⟩ := of_zeroPadded hc (by simpa using hpadded)
    simp [hdigits mark hmem] at hmark
  cases negative with
  | false => exact hplain
  | true => exact (zeroPadded_minus hc ds).trans hplain

/-- A real is no integer. -/
theorem integer?_of_isRealText (h : IsRealText cs) (negative : Bool) :
    integer? ((if negative then ['-'] else []) ++ cs) = none := by
  cases negative with
  | false =>
      obtain ⟨c, ds, rfl, hc, -⟩ := exists_cons_of_isRealText h
      change integer? (c :: ds) = none
      rw [integer?_of_isDigit hc, magnitude?_of_isRealText h]
      rfl
  | true => simpa [magnitude?_of_isRealText h] using integer?_minus cs

/-! ## Words without digits -/

section Words

variable {s : String}

/-- No word for infinity has a digit. -/
theorem isUnbounded_of_isDigit_mem (hmem : c ∈ s.toList) (hc : c.isDigit = true) :
    isUnbounded s = false := by
  have hwords : ∀ w ∈ [".inf", ".Inf", ".INF", "+.inf", "+.Inf", "+.INF", "-.inf", "-.Inf", "-.INF",
      ".nan", ".NaN", ".NAN"], ∀ c ∈ w.toList, c.isDigit = false := by simp
  cases hword : isUnbounded s with
  | false => rfl
  | true =>
      have hno := hwords s (List.contains_iff_mem.mp hword) c hmem
      simp [hno] at hc

/-- No word for nothing has one. -/
theorem isNull_of_isDigit_mem (hmem : c ∈ s.toList) (hc : c.isDigit = true) : isNull s = false := by
  have hwords : ∀ w ∈ ["", "~", "null", "Null", "NULL"], ∀ c ∈ w.toList, c.isDigit = false := by
    simp
  cases hword : isNull s with
  | false => rfl
  | true =>
      have hno := hwords s (by simpa [isNull, or_assoc] using hword) c hmem
      simp [hno] at hc

/-- A digit has no other case. -/
theorem toLower_of_isDigit (h : c.isDigit = true) : c.toLower = c := by
  simp only [Char.isDigit, Bool.and_eq_true, decide_eq_true_eq, ge_iff_le] at h
  unfold Char.toLower
  grind

/-- No word for a truth value has one. -/
theorem bool?_of_isDigit_mem (hmem : c ∈ s.toList) (hc : c.isDigit = true) : bool? s = none := by
  have hlower : c ∈ s.toList.map Char.toLower :=
    List.mem_map.mpr ⟨c, hmem, toLower_of_isDigit hc⟩
  unfold bool?
  split
  · rename_i hword
    have hletters : ∀ letter ∈ ['t', 'r', 'u', 'e'], letter.isDigit = false := by simp
    simp [hletters c (hword ▸ hlower)] at hc
  · rename_i hword
    have hletters : ∀ letter ∈ ['f', 'a', 'l', 's', 'e'], letter.isDigit = false := by simp
    simp [hletters c (hword ▸ hlower)] at hc
  · rfl

end Words

/-! ## Plain scalars -/

/-- A real is read back from its text, with its sign. -/
theorem real?_text (negative : Bool) (x : Binary64) :
    real? (real negative x).text = some (.number (.real negative x)) := by
  have hread := decimal?_magnitudeText realFormat x
  obtain ⟨c, ds, heq, hc, -⟩ := exists_cons_of_isRealText (isRealText_magnitudeText realFormat x)
  rw [heq] at hread
  have hbounded : isUnbounded (real negative x).text = false :=
    isUnbounded_of_isDigit_mem (c := c) (by rw [text, String.toList_ofList, heq]; simp) hc
  obtain ⟨hminus, hplus⟩ := ne_sign_of_isDigit hc
  unfold real?
  rw [hbounded, if_neg (by decide), text, String.toList_ofList, heq]
  cases negative with
  | false => simp [hread, hminus, hplus]
  | true => simp [hread]

/-- The text of a number has a digit. -/
theorem exists_isDigit_mem_text (n : Number) : ∃ c ∈ n.text.toList, c.isDigit = true := by
  cases n with
  | integer value =>
      obtain ⟨c, cs, hdigits, hc⟩ := exists_toDigits_eq_cons value.natAbs
      refine ⟨c, ?_, hc⟩
      rw [toList_text_integer, hdigits]
      simp
  | real negative x =>
      have htext := isRealText_magnitudeText realFormat x
      obtain ⟨c, ds, heq, hc, -⟩ := exists_cons_of_isRealText htext
      refine ⟨c, ?_, hc⟩
      rw [text, String.toList_ofList, heq]
      simp

/-- **A number is read back from its text,** which is a plain scalar; an integer has to fit
64 bits. -/
theorem plainValue?_text (n : Number)
    (hfits : ∀ value, n = .integer value → fitsBits 64 value = true) :
    plainValue? n.text = some (.number n) := by
  obtain ⟨c, hmem, hc⟩ := exists_isDigit_mem_text n
  unfold plainValue?
  simp only [isNull_of_isDigit_mem hmem hc, bool?_of_isDigit_mem hmem hc]
  cases n with
  | integer value =>
      rw [integer?_text]
      simp [hfits value rfl]
  | real negative x =>
      have htext := isRealText_magnitudeText realFormat x
      have hchars : (real negative x).text.toList =
          (if negative then ['-'] else []) ++ magnitudeText realFormat x := by
        rw [text, String.toList_ofList]
      rw [hchars, integer?_of_isRealText htext, zeroPadded_of_isRealText htext, real?_text]
      simp

end ClientRegen.Yaml
