import ClientRegen.Proofs.Number.Basins
import Mathlib.Data.Nat.Log

/-!
# Rounding

A quotient is scaled so that its whole part has 53 bits, and the scaled quotient
is rounded to a natural (`isExponentFor_exponentFor`, `roundsTo_roundAt`).  The
number that comes out is the one that the quotient reads back as, and there is
one unless the quotient is beyond the end of the greatest number
(`ofRatio?_eq_some_iff`).  The shortcuts for decimals far outside the range
answer the same (`ofDecimal?_eq_some_iff`).

By this the reader of plain scalars reads every number back from its text
(`Yaml.plainValue?_text`).
-/

namespace ClientRegen.Binary64

variable {x y : Binary64} {q : ℚ} {num den digits n : Nat} {exponent : Int}

/-! ## Rounding to naturals -/

/-- A natural is the nearest to a value; from halfway between two naturals a value
is rounded to the even one. -/
structure RoundsTo (q : ℚ) (n : Nat) : Prop where
  /-- The value is at most half below the natural. -/
  sub_half_le : n - 1 / 2 ≤ q
  /-- It is at most half above. -/
  le_add_half : q ≤ n + 1 / 2
  /-- Halfway the even natural is taken. -/
  even_of_half : q = n - 1 / 2 ∨ q = n + 1 / 2 → n % 2 = 0

/-- The fractional part decides whether a value is rounded up or down. -/
theorem RoundsTo.of_fraction {k : Nat} {fraction : ℚ} (hnonneg : 0 ≤ fraction)
    (hlt : fraction < 1) : RoundsTo (k + fraction)
      (if 1 / 2 < fraction ∨ (fraction = 1 / 2 ∧ k % 2 = 1) then k + 1 else k) := by
  split
  · rename_i hup
    have hhalf : 1 / 2 ≤ fraction := hup.elim le_of_lt fun h => h.1.ge
    refine ⟨by push_cast; linarith, by push_cast; linarith, fun hend => ?_⟩
    push_cast at hend
    have heq : fraction = 1 / 2 := hend.elim (fun h => by linarith) fun h => by linarith
    have hodd := (hup.resolve_left heq.not_gt).2
    omega
  · rename_i hdown
    obtain ⟨hle, hodd⟩ := not_or.mp hdown
    refine ⟨by linarith, by linarith [not_lt.mp hle], fun hend => ?_⟩
    have heq : fraction = 1 / 2 := hend.elim (fun h => by linarith) fun h => by linarith
    have hne := not_and.mp hodd heq
    omega

/-- A quotient of naturals is rounded by its remainder. -/
theorem roundsTo_roundQuotient (num : Nat) (hden : 0 < den) :
    RoundsTo (num / den) (roundQuotient num den) := by
  have hden' : (0 : ℚ) < den := by exact_mod_cast hden
  have hvalue : (num / den : ℚ) = (num / den : Nat) + (num % den : Nat) / den := by
    have hdivision : (den * (num / den) + num % den : Nat) = (num : ℚ) := by
      exact_mod_cast Nat.div_add_mod num den
    rw [← hdivision]
    push_cast
    field_simp
  have hlt : ((num % den : Nat) / den : ℚ) < 1 := by
    rw [div_lt_one hden']
    exact_mod_cast Nat.mod_lt num hden
  have hup : 2 * (num % den) > den ↔ 1 / 2 < ((num % den : Nat) / den : ℚ) := by
    rw [div_lt_div_iff₀ two_pos hden', one_mul, mul_comm]
    norm_cast
  have hhalf : 2 * (num % den) = den ↔ ((num % den : Nat) / den : ℚ) = 1 / 2 := by
    rw [div_eq_div_iff hden'.ne' two_ne_zero, one_mul, mul_comm]
    norm_cast
  have hrounds := RoundsTo.of_fraction (k := num / den) (by positivity) hlt
  rw [hvalue]
  unfold roundQuotient
  simp only [hup, hhalf]
  exact hrounds

/-- A scaled quotient is rounded in naturals, whichever way it is scaled. -/
theorem roundsTo_roundAt (num : Nat) (hden : 0 < den) (exponent : Int) :
    RoundsTo (num / den / 2 ^ exponent) (roundAt num den exponent) := by
  unfold roundAt
  split
  · rename_i he
    have hrounds := roundsTo_roundQuotient num (Nat.mul_pos hden (Nat.two_pow_pos exponent.toNat))
    rwa [Nat.cast_mul, ← div_div, Nat.cast_pow, ← zpow_of_nonneg _ he] at hrounds
  · rename_i he
    have hrounds := roundsTo_roundQuotient (num * twoTo (-exponent).toNat) hden
    rwa [Nat.cast_mul, cast_twoTo, mul_div_right_comm, ← div_inv_eq_mul,
      ← zpow_of_not_nonneg _ he] at hrounds

/-! ## The exponent -/

/-- Scaled by the power of two a value has a whole part of 53 bits, and of fewer only with the least
exponent. -/
structure IsExponentFor (q : ℚ) (exponent : Int) : Prop where
  /-- The exponent is that of a number. -/
  least_le : leastExponent ≤ exponent
  /-- There are no more than 53 bits. -/
  scaled_lt : q / 2 ^ exponent < 2 ^ 53
  /-- There are no fewer, unless the exponent is the least one. -/
  le_scaled : 2 ^ 52 ≤ q / 2 ^ exponent ∨ exponent = leastExponent

/-- A quotient lies between powers of two that the lengths of its parts give. -/
theorem zpow_log2_bounds (hnum : 0 < num) (hden : 0 < den) :
    (2 : ℚ) ^ ((num.log2 : Int) - den.log2 - 1) < num / den ∧
      (num / den : ℚ) < 2 ^ ((num.log2 : Int) - den.log2 + 1) := by
  have hden' : (0 : ℚ) < den := by exact_mod_cast hden
  have hlow : (2 : ℚ) ^ num.log2 ≤ num := by exact_mod_cast Nat.log2_self_le hnum.ne'
  have hhigh : (num : ℚ) < 2 ^ (num.log2 + 1) := by exact_mod_cast Nat.lt_log2_self
  have hlow' : (2 : ℚ) ^ den.log2 ≤ den := by exact_mod_cast Nat.log2_self_le hden.ne'
  have hhigh' : (den : ℚ) < 2 ^ (den.log2 + 1) := by exact_mod_cast Nat.lt_log2_self
  constructor
  · rw [lt_div_iff₀ hden']
    calc (2 : ℚ) ^ ((num.log2 : Int) - den.log2 - 1) * den
        < 2 ^ ((num.log2 : Int) - den.log2 - 1) * 2 ^ (den.log2 + 1) := by gcongr
      _ = 2 ^ num.log2 := by
          rw [← zpow_natCast, ← zpow_natCast, ← zpow_add₀ two_ne_zero]
          congr 1
          push_cast
          ring
      _ ≤ num := hlow
  · rw [div_lt_iff₀ hden']
    calc (num : ℚ) < 2 ^ (num.log2 + 1) := hhigh
      _ = 2 ^ ((num.log2 : Int) - den.log2 + 1) * 2 ^ den.log2 := by
          rw [← zpow_natCast, ← zpow_natCast, ← zpow_add₀ two_ne_zero]
          congr 1
          push_cast
          ring
      _ ≤ 2 ^ ((num.log2 : Int) - den.log2 + 1) * den := by gcongr

/-- Whether a quotient has 53 bits is decided without a division. -/
theorem fits_iff (num : Nat) (hden : 0 < den) (exponent : Int) :
    (if exponent ≥ 0 then decide (twoTo 52 * (den * twoTo exponent.toNat) ≤ num)
      else decide (twoTo 52 * den ≤ num * twoTo (-exponent).toNat)) = true ↔
      2 ^ 52 ≤ (num / den : ℚ) / 2 ^ exponent := by
  have hden' : (0 : ℚ) < den := by exact_mod_cast hden
  split
  · rename_i he
    rw [decide_eq_true_eq, div_div, le_div_iff₀ (by positivity), zpow_of_nonneg _ he,
      ← cast_twoTo, ← cast_twoTo]
    norm_cast
  · rename_i he
    rw [decide_eq_true_eq, zpow_of_not_nonneg _ he, div_inv_eq_mul, ← mul_div_right_comm,
      le_div_iff₀ hden', ← cast_twoTo, ← cast_twoTo]
    norm_cast

/-- Below the least exponent a value is scaled by the least power of two instead. -/
theorem IsExponentFor.max_leastExponent (hq : 0 ≤ q) (hlt : q / 2 ^ exponent < 2 ^ 53)
    (hle : 2 ^ 52 ≤ q / 2 ^ exponent) : IsExponentFor q (max leastExponent exponent) := by
  rcases le_total exponent leastExponent with h | h
  · rw [max_eq_left h]
    refine ⟨le_rfl, lt_of_le_of_lt ?_ hlt, .inr rfl⟩
    have hpower : (2 : ℚ) ^ exponent ≤ 2 ^ leastExponent := zpow_le_zpow_right₀ one_le_two h
    gcongr
  · rw [max_eq_right h]
    exact ⟨h, hlt, .inl hle⟩

/-- **The exponent of a quotient is found from the lengths of its parts.** -/
theorem isExponentFor_exponentFor (hnum : 0 < num) (hden : 0 < den) :
    IsExponentFor (num / den) (exponentFor num den) := by
  have hq : (0 : ℚ) ≤ num / den := by positivity
  obtain ⟨hlow, hhigh⟩ := zpow_log2_bounds hnum hden
  have hfits := fits_iff num hden ((num.log2 : Int) - den.log2 - 52)
  unfold exponentFor
  dsimp only
  generalize he : (num.log2 : Int) - den.log2 - 52 = e at *
  have hscale : (0 : ℚ) < 2 ^ e := by positivity
  rw [show (num.log2 : Int) - den.log2 - 1 = 51 + e by omega, zpow_add₀ two_ne_zero,
    ← lt_div_iff₀ hscale] at hlow
  rw [show (num.log2 : Int) - den.log2 + 1 = 53 + e by omega, zpow_add₀ two_ne_zero,
    ← div_lt_iff₀ hscale] at hhigh
  simp only [hfits]
  split
  · rename_i h
    exact .max_leastExponent hq hhigh h
  · rename_i h
    have hless := not_le.mp h
    have hdouble : (num / den : ℚ) / 2 ^ (e - 1) = 2 * (num / den / 2 ^ e) := by
      rw [zpow_sub_one₀ two_ne_zero]
      field_simp
    apply IsExponentFor.max_leastExponent hq
    · rw [hdouble]
      linarith
    · rw [hdouble]
      norm_num at hlow
      linarith

/-! ## Rounding to numbers -/

/-- A scaled value between the scaled ends of a number reads back as the number. -/
theorem readsAs_of_scaled (hlower : x.significand - x.halfBelow ≤ q / 2 ^ x.exponent)
    (hupper : q / 2 ^ x.exponent ≤ x.significand + 1 / 2)
    (heven : q / 2 ^ x.exponent = x.significand - x.halfBelow ∨
      q / 2 ^ x.exponent = x.significand + 1 / 2 → x.significand % 2 = 0) : ReadsAs q x := by
  have hscale : (0 : ℚ) < 2 ^ x.exponent := by positivity
  refine ⟨(le_div_iff₀ hscale).mp hlower, (div_le_iff₀ hscale).mp hupper, fun hend => heven ?_⟩
  rwa [div_eq_iff hscale.ne', div_eq_iff hscale.ne']

/-- The end of the greatest number. -/
def greatestEnd : ℚ :=
  (2 ^ 53 - 1 / 2) * 2 ^ greatestExponent

/-- No number ends above the greatest one, and the one that ends there is odd. -/
theorem upperEnd_le_greatestEnd (x : Binary64) :
    x.upperEnd ≤ greatestEnd ∧ (x.upperEnd = greatestEnd → x.significand % 2 = 1) := by
  have hpower : (2 : ℚ) ^ x.exponent ≤ 2 ^ greatestExponent :=
    zpow_le_zpow_right₀ one_le_two x.isNormal.2.2.1
  have hscale : (0 : ℚ) < 2 ^ x.exponent := by positivity
  have hbound : x.significand < 2 ^ 53 := x.isNormal.1
  rw [upperEnd, greatestEnd]
  generalize (2 : ℚ) ^ greatestExponent = top at hpower ⊢
  have htop : 0 < top := hscale.trans_le hpower
  by_cases hgreatest : x.significand = 2 ^ 53 - 1
  · refine ⟨?_, fun _ => by rw [hgreatest]; rfl⟩
    rw [hgreatest]
    norm_num
    exact hpower
  · have hless : x.significand + 2 ≤ 2 ^ 53 := by omega
    have hcast : (x.significand + 2 : ℚ) ≤ 2 ^ 53 := by exact_mod_cast hless
    have hbelow : (x.significand + 1 / 2) * 2 ^ x.exponent < (2 ^ 53 - 1 / 2) * top :=
      calc (x.significand + 1 / 2) * 2 ^ x.exponent ≤ (x.significand + 1 / 2) * top := by gcongr
        _ < (2 ^ 53 - 1 / 2) * top := by
            gcongr
            linarith
    exact ⟨hbelow.le, fun heq => absurd heq hbelow.ne⟩

/-- Beyond the end of the greatest number a value reads back as no number. -/
theorem not_readsAs_of_greatestEnd_le (h : greatestEnd ≤ q) : ¬ ReadsAs q x := by
  intro hreads
  obtain ⟨hle, hodd⟩ := x.upperEnd_le_greatestEnd
  have heq : q = x.upperEnd := le_antisymm hreads.le_upper (hle.trans h)
  have heven := hreads.even_of_end (.inr heq)
  have := hodd (le_antisymm hle (h.trans_eq heq))
  omega

/-- Rounding gives one bit more at most, and then a power of two. -/
theorem RoundsTo.le_of_isExponentFor (hrounds : RoundsTo (q / 2 ^ exponent) n)
    (hexponent : IsExponentFor q exponent) : n ≤ 2 ^ 53 := by
  have hlt : (n : ℚ) < 2 ^ 53 + 1 := by
    linarith [hrounds.sub_half_le, hexponent.scaled_lt]
  have hlt : n < 2 ^ 53 + 1 := by exact_mod_cast hlt
  omega

/-- A number in normal form is made of its parts. -/
theorem ofParts?_eq_some_iff {significand : Nat} : ofParts? significand exponent = some x ↔
    x.significand = significand ∧ x.exponent = exponent := by
  unfold ofParts?
  split
  · rw [Option.some.injEq]
    constructor
    · rintro rfl
      exact ⟨rfl, rfl⟩
    · rintro ⟨rfl, rfl⟩
      rfl
  · rename_i hnormal
    simp only [reduceCtorEq, false_iff, not_and]
    rintro rfl rfl
    exact hnormal x.isNormal

/-- Parts that are not in normal form make no number. -/
theorem ofParts?_eq_none_iff {significand : Nat} :
    ofParts? significand exponent = none ↔ ¬ IsNormal significand exponent := by
  unfold ofParts?
  split <;> simp_all

/-- **A value is rounded to the number that it reads back as.** -/
theorem readsAs_of_carry? (hrounds : RoundsTo (q / 2 ^ exponent) n)
    (hexponent : IsExponentFor q exponent) (h : carry? n exponent = some x) : ReadsAs q x := by
  have hscaled := hexponent.scaled_lt
  unfold carry? at h
  split at h
  · -- the number is the next power of two, and its lower end is what the value is above
    rename_i hn
    obtain ⟨hsignificand, hexp⟩ := ofParts?_eq_some_iff.mp h
    have hnarrow : x.IsNarrow := by
      refine ⟨hsignificand, ?_⟩
      have := hexponent.least_le
      omega
    have hhalf : x.halfBelow = 1 / 4 := if_pos hnarrow
    have hlow := hrounds.sub_half_le
    have hvalue : q / 2 ^ x.exponent = q / 2 ^ exponent / 2 := by
      rw [hexp, zpow_add_one₀ two_ne_zero, div_div]
    rw [hn, cast_twoTo] at hlow
    apply readsAs_of_scaled
    · rw [hvalue, hsignificand, hhalf, cast_twoTo]
      linarith
    · rw [hvalue, hsignificand, cast_twoTo]
      linarith
    · intro _
      rw [hsignificand]
      rfl
  · obtain ⟨rfl, rfl⟩ := ofParts?_eq_some_iff.mp h
    by_cases hnarrow : x.IsNarrow
    · have hhalf : x.halfBelow = 1 / 4 := if_pos hnarrow
      have hle := hexponent.le_scaled.resolve_right hnarrow.2.ne'
      apply readsAs_of_scaled _ hrounds.le_add_half
      · intro _
        rw [hnarrow.1]
        rfl
      · rw [hnarrow.1, hhalf, cast_twoTo]
        linarith
    · have hhalf : x.halfBelow = 1 / 2 := if_neg hnarrow
      refine readsAs_of_scaled ?_ hrounds.le_add_half ?_
      · rw [hhalf]
        exact hrounds.sub_half_le
      · rw [hhalf]
        exact hrounds.even_of_half

/-- A scaled value of 52 bits is rounded to no fewer. -/
theorem RoundsTo.isNormal (hrounds : RoundsTo (q / 2 ^ exponent) n)
    (hexponent : IsExponentFor q exponent) (hn : n ≠ 2 ^ 53) (hle : exponent ≤ greatestExponent) :
    IsNormal n exponent := by
  have hmost := hrounds.le_of_isExponentFor hexponent
  refine ⟨lt_of_le_of_ne hmost hn, hexponent.least_le, hle, hexponent.le_scaled.imp_left ?_⟩
  intro hscaled
  have hlt : (2 ^ 52 : ℚ) < n + 1 := by linarith [hrounds.le_add_half]
  have hlt : 2 ^ 52 < n + 1 := by exact_mod_cast hlt
  exact Nat.le_of_lt_succ hlt

/-- There is a number unless the value is beyond the end of the greatest one. -/
theorem greatestEnd_le_of_carry? (hrounds : RoundsTo (q / 2 ^ exponent) n)
    (hexponent : IsExponentFor q exponent) (h : carry? n exponent = none) : greatestEnd ≤ q := by
  have hscale : (0 : ℚ) < 2 ^ exponent := by positivity
  unfold carry? at h
  split at h
  · rename_i hn
    have hbeyond : greatestExponent ≤ exponent := by
      by_contra hless
      have hleast := hexponent.least_le
      exact ofParts?_eq_none_iff.mp h ⟨by decide, by omega, by omega, .inl le_rfl⟩
    have hlow := hrounds.sub_half_le
    rw [hn, cast_twoTo, le_div_iff₀ hscale] at hlow
    refine le_trans ?_ hlow
    exact mul_le_mul_of_nonneg_left (zpow_le_zpow_right₀ one_le_two hbeyond) (by norm_num)
  · rename_i hn
    have hbeyond : greatestExponent + 1 ≤ exponent := by
      by_contra hless
      exact ofParts?_eq_none_iff.mp h (hrounds.isNormal hexponent hn (by omega))
    have hfull := hexponent.le_scaled.resolve_right fun heq => by
      rw [heq] at hbeyond
      exact absurd hbeyond (by decide)
    have hpower : 2 * (2 : ℚ) ^ greatestExponent ≤ 2 ^ exponent := by
      rw [← zpow_one_add₀ two_ne_zero, add_comm]
      exact zpow_le_zpow_right₀ one_le_two hbeyond
    rw [le_div_iff₀ hscale] at hfull
    rw [greatestEnd]
    generalize (2 : ℚ) ^ greatestExponent = top at hpower ⊢
    linarith

/-- What is at most half of the least number reads back as zero. -/
theorem readsAs_zero (h : 0 ≤ q) (hle : q ≤ 1 / 2 * 2 ^ leastExponent) : ReadsAs q zero := by
  have hhalf : zero.halfBelow = 1 / 2 := if_neg (by decide)
  have hscale : (0 : ℚ) < 2 ^ leastExponent := by positivity
  refine ⟨?_, ?_, fun _ => rfl⟩
  · rw [lowerEnd, hhalf]
    simp only [zero, Nat.cast_zero]
    linarith
  · rw [upperEnd]
    simp only [zero, Nat.cast_zero]
    linarith

/-- What a value reads back as is all that it reads back as. -/
theorem ReadsAs.some_eq_some_iff (h : ReadsAs q y) : some y = some x ↔ ReadsAs q x := by
  rw [Option.some.injEq]
  exact ⟨fun heq => heq ▸ h, h.unique⟩

/-- **A quotient is rounded to the number that it reads back as, if there is one.** -/
theorem ofRatio?_eq_some_iff (hden : 0 < den) :
    ofRatio? num den = some x ↔ ReadsAs (num / den) x := by
  unfold ofRatio?
  split
  · rename_i hnum
    rw [hnum, Nat.cast_zero, zero_div]
    exact (readsAs_zero le_rfl (by positivity)).some_eq_some_iff
  · rename_i hnum
    have hexponent := isExponentFor_exponentFor (Nat.pos_of_ne_zero hnum) hden
    have hrounds := roundsTo_roundAt num hden (exponentFor num den)
    dsimp only
    cases hcarry : carry? (roundAt num den (exponentFor num den)) (exponentFor num den) with
    | some y => exact (readsAs_of_carry? hrounds hexponent hcarry).some_eq_some_iff
    | none =>
        have hbeyond := greatestEnd_le_of_carry? hrounds hexponent hcarry
        simp only [reduceCtorEq, false_iff]
        exact not_readsAs_of_greatestEnd_le hbeyond

/-! ## Decimals -/

/-- A natural is below the power of ten with the number of its digits. -/
theorem digits_lt_pow (digits : Nat) : digits < 10 ^ (Nat.toDigits 10 digits).length :=
  (Nat.length_toDigits_le_iff (by decide) Nat.length_toDigits_pos).mp le_rfl

/-- With an exponent of 400 a decimal is beyond every number. -/
theorem greatestEnd_le_decimal (hdigits : digits ≠ 0) (h : 400 ≤ exponent) :
    greatestEnd ≤ digits * 10 ^ exponent := by
  have hone : (1 : ℚ) ≤ digits := by exact_mod_cast Nat.pos_of_ne_zero hdigits
  have hpower : (10 : ℚ) ^ 400 ≤ 10 ^ exponent := by
    rw [← zpow_natCast]
    exact zpow_le_zpow_right₀ (by norm_num) h
  calc greatestEnd ≤ 2 ^ 53 * 2 ^ greatestExponent :=
        mul_le_mul_of_nonneg_right (by norm_num) (by positivity)
    _ = 2 ^ 1024 := by
        rw [← zpow_natCast, ← zpow_natCast, ← zpow_add₀ two_ne_zero]
        rfl
    _ ≤ 10 ^ 400 := two_pow_le_ten_pow (by norm_num)
    _ ≤ 10 ^ exponent := hpower
    _ = 1 * 10 ^ exponent := (one_mul _).symm
    _ ≤ digits * 10 ^ exponent := by gcongr

/-- Four hundred places behind the point a decimal is nearer to zero than to any other number. -/
theorem decimal_le_half_least (h : ((Nat.toDigits 10 digits).length : Int) + exponent < -400) :
    (digits * 10 ^ exponent : ℚ) ≤ 1 / 2 * 2 ^ leastExponent := by
  have hdigits : (digits : ℚ) ≤ 10 ^ (Nat.toDigits 10 digits).length := by
    exact_mod_cast (digits_lt_pow digits).le
  calc (digits * 10 ^ exponent : ℚ)
      ≤ 10 ^ (Nat.toDigits 10 digits).length * 10 ^ exponent := by gcongr
    _ = 10 ^ (((Nat.toDigits 10 digits).length : Int) + exponent) := by
        rw [zpow_add₀ (by norm_num), zpow_natCast]
    _ ≤ 10 ^ (-(400 : Nat) : Int) := zpow_le_zpow_right₀ (by norm_num) (by exact_mod_cast h.le)
    _ ≤ 2 ^ (-(1075 : Nat) : Int) := zpow_neg_ten_le (by norm_num)
    _ = 1 / 2 * 2 ^ leastExponent := by
        rw [one_div, ← zpow_neg_one, ← zpow_add₀ two_ne_zero]
        rfl

/-- **A decimal is read as the number that it reads back as, if there is one.** -/
theorem ofDecimal?_eq_some_iff :
    ofDecimal? digits exponent = some x ↔ ReadsAs (digits * 10 ^ exponent) x := by
  unfold ofDecimal?
  split
  · rename_i hdigits
    rw [hdigits, Nat.cast_zero, zero_mul]
    exact (readsAs_zero le_rfl (by positivity)).some_eq_some_iff
  · rename_i hdigits
    split
    · rename_i hlarge
      simp only [reduceCtorEq, false_iff]
      exact not_readsAs_of_greatestEnd_le (greatestEnd_le_decimal hdigits hlarge)
    · split
      · rename_i he
        rw [ofRatio?_eq_some_iff Nat.one_pos, Nat.cast_mul, cast_tenTo, Nat.cast_one, div_one,
          ← zpow_of_nonneg _ he]
      · rename_i he
        dsimp only
        split
        · rename_i hsmall
          exact (readsAs_zero (by positivity) (decimal_le_half_least hsmall)).some_eq_some_iff
        · have hden : 0 < tenTo (-exponent).toNat := Nat.pow_pos (by decide)
          rw [ofRatio?_eq_some_iff hden, cast_tenTo, div_eq_mul_inv, ← zpow_of_not_nonneg _ he]

end ClientRegen.Binary64
