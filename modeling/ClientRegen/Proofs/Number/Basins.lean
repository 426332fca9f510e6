import ClientRegen.Number.Shortest
import Mathlib.Algebra.Order.Field.Rat
import Mathlib.Algebra.Order.Field.Power
import Mathlib.Tactic.FieldSimp
import Mathlib.Tactic.GCongr
import Mathlib.Tactic.Linarith
import Mathlib.Tactic.NormNum
import Mathlib.Tactic.Positivity
import Mathlib.Tactic.Ring

/-!
# The decimals that read back

A decimal reads back as a number when it lies between the points halfway to the
two neighbours (`ReadsAs`), and a basin holds just these decimals
(`basin_holds_iff`).  The points halfway are shared by two neighbours, but of
two neighbours one has an odd significand, so no decimal reads back as two
numbers (`ReadsAs.unique`).

The decimal that is written for a number reads back as that number
(`readsAs_shortest`).  On the grid of seventeen digits the distance of two
decimals is less than the width of a basin, so one of the two neighbours of the
number lies in it.
-/

namespace ClientRegen.Binary64

variable {x y : Binary64} {q : ℚ} {d : Decimal} {num den : Nat} {exponent : Int}

/-! ## Powers -/

theorem cast_twoTo (n : Nat) : (twoTo n : ℚ) = 2 ^ n :=
  Nat.cast_pow 2 n

theorem cast_tenTo (n : Nat) : (tenTo n : ℚ) = 10 ^ n :=
  Nat.cast_pow 10 n

/-- A power to an integer that is not negative is one to a natural. -/
theorem zpow_of_nonneg (b : ℚ) (h : 0 ≤ exponent) : b ^ exponent = b ^ exponent.toNat := by
  rw [← zpow_natCast, Int.toNat_of_nonneg h]

/-- A power to a negative integer is the inverse of one to a natural. -/
theorem zpow_of_not_nonneg (b : ℚ) (h : ¬ 0 ≤ exponent) :
    b ^ exponent = (b ^ (-exponent).toNat)⁻¹ := by
  rw [← zpow_natCast, Int.toNat_of_nonneg (by omega), zpow_neg, inv_inv]

/-! ## Values and ends -/

/-- The value of a number. -/
def value (x : Binary64) : ℚ :=
  x.significand * 2 ^ x.exponent

/-- A power of two, but the least: its lower neighbour is half as far away as its upper one. -/
def IsNarrow (x : Binary64) : Prop :=
  x.significand = twoTo 52 ∧ x.exponent > leastExponent

instance (x : Binary64) : Decidable x.IsNarrow :=
  inferInstanceAs (Decidable (_ ∧ _))

/-- Half the distance to the lower neighbour, in units of the last place. -/
def halfBelow (x : Binary64) : ℚ :=
  if x.IsNarrow then 1 / 4 else 1 / 2

theorem halfBelow_pos (x : Binary64) : 0 < x.halfBelow := by
  unfold halfBelow
  split <;> norm_num

theorem halfBelow_le (x : Binary64) : x.halfBelow ≤ 1 / 2 := by
  unfold halfBelow
  split <;> norm_num

/-- The point halfway to the lower neighbour. -/
def lowerEnd (x : Binary64) : ℚ :=
  (x.significand - x.halfBelow) * 2 ^ x.exponent

/-- The point halfway to the upper neighbour. -/
def upperEnd (x : Binary64) : ℚ :=
  (x.significand + 1 / 2) * 2 ^ x.exponent

/-- A value reads back as a number when it lies between the ends; the ends
themselves do when the significand is even. -/
structure ReadsAs (q : ℚ) (x : Binary64) : Prop where
  /-- The value is not below the lower end. -/
  lower_le : x.lowerEnd ≤ q
  /-- It is not beyond the upper end. -/
  le_upper : q ≤ x.upperEnd
  /-- An end belongs to an even significand. -/
  even_of_end : q = x.lowerEnd ∨ q = x.upperEnd → x.significand % 2 = 0

/-- Only zero has a lower end that is not positive. -/
theorem lowerEnd_pos (h : 0 < x.significand) : 0 < x.lowerEnd := by
  have hone : (1 : ℚ) ≤ x.significand := by exact_mod_cast h
  have hhalf := x.halfBelow_le
  exact mul_pos (by linarith) (by positivity)

/-- Zero reads back as no other number. -/
theorem not_readsAs_zero (h : 0 < x.significand) : ¬ ReadsAs 0 x :=
  fun hzero => (hzero.lower_le.trans_lt' (lowerEnd_pos h)).false

/-- There is one zero. -/
theorem eq_of_significand_eq_zero (hx : x.significand = 0) (hy : y.significand = 0) : x = y := by
  have hleast : ∀ z : Binary64, z.significand = 0 → z.exponent = leastExponent := by
    intro z hz
    exact z.isNormal.2.2.2.resolve_left (by rw [hz]; decide)
  have hx' := hleast x hx
  have hy' := hleast y hy
  cases x
  cases y
  simp_all

/-! ## No value reads back as two numbers -/

/-- Beyond the least exponent a number has 53 bits. -/
theorem le_significand_sub_halfBelow (h : leastExponent < x.exponent) :
    2 ^ 52 - 1 / 4 ≤ x.significand - x.halfBelow := by
  have hfull : twoTo 52 ≤ x.significand := x.isNormal.2.2.2.resolve_right (by omega)
  unfold halfBelow
  split
  · rename_i hnarrow
    rw [hnarrow.1, cast_twoTo]
  · rename_i hwide
    have hmore : twoTo 52 + 1 ≤ x.significand := by
      have hne : x.significand ≠ twoTo 52 := fun heq => hwide ⟨heq, h⟩
      omega
    have hcast : ((twoTo 52 + 1 : Nat) : ℚ) ≤ x.significand := by exact_mod_cast hmore
    rw [Nat.cast_add, cast_twoTo, Nat.cast_one] at hcast
    linarith

/-- The upper end lies below twice the least number with the same exponent and 53 bits, unless the
significand is the greatest one. -/
theorem upperEnd_le_lowerEnd_of_exponent (h : x.exponent < y.exponent) :
    x.upperEnd ≤ y.lowerEnd ∧ (x.upperEnd = y.lowerEnd → x.significand % 2 = 1) := by
  have hscale : (0 : ℚ) < 2 ^ x.exponent := by positivity
  have hdouble : 2 * (2 : ℚ) ^ x.exponent ≤ 2 ^ y.exponent := by
    rw [← zpow_one_add₀ two_ne_zero]
    exact zpow_le_zpow_right₀ one_le_two (by omega)
  have hhalf := le_significand_sub_halfBelow (x := y) (by have := x.isNormal.2.1; omega)
  have hlower : (2 ^ 53 - 1 / 2) * (2 : ℚ) ^ x.exponent ≤ y.lowerEnd :=
    calc (2 ^ 53 - 1 / 2) * (2 : ℚ) ^ x.exponent
        = (2 ^ 52 - 1 / 4) * (2 * 2 ^ x.exponent) := by ring
      _ ≤ y.lowerEnd := mul_le_mul hhalf hdouble (by positivity) (by linarith)
  by_cases hgreatest : x.significand = 2 ^ 53 - 1
  · refine ⟨?_, fun _ => by rw [hgreatest]; rfl⟩
    apply le_trans _ hlower
    rw [upperEnd, hgreatest]
    norm_num
  · have hless : x.significand + 2 ≤ 2 ^ 53 := by
      have hbound : x.significand < 2 ^ 53 := x.isNormal.1
      omega
    have hcast : (x.significand + 2 : ℚ) ≤ 2 ^ 53 := by exact_mod_cast hless
    have hbelow : x.upperEnd < y.lowerEnd := by
      apply lt_of_lt_of_le _ hlower
      rw [upperEnd]
      gcongr
      linarith
    exact ⟨hbelow.le, fun heq => absurd heq hbelow.ne⟩

/-- With the same exponent the greater significand begins where the smaller one ends, or later,
and two neighbours are not both even. -/
theorem upperEnd_le_lowerEnd_of_significand (he : x.exponent = y.exponent)
    (h : x.significand < y.significand) :
    x.upperEnd ≤ y.lowerEnd ∧
      (x.upperEnd = y.lowerEnd → x.significand % 2 = 0 → y.significand % 2 = 1) := by
  have hscale : (0 : ℚ) < 2 ^ y.exponent := by positivity
  have hcast : (x.significand + 1 : ℚ) ≤ y.significand := by exact_mod_cast h
  have hhalf := y.halfBelow_le
  rw [upperEnd, lowerEnd, he]
  refine ⟨by gcongr; linarith, fun heq heven => ?_⟩
  have hmeet := mul_right_cancel₀ hscale.ne' heq
  have hnext : (x.significand + 1 : ℚ) = y.significand := by linarith
  have hnext : x.significand + 1 = y.significand := by exact_mod_cast hnext
  omega

/-- A value that reads back as two numbers is an end of both, and one of them has an
odd significand. -/
theorem ReadsAs.false_of_upperEnd_le (hx : ReadsAs q x) (hy : ReadsAs q y)
    (h : x.upperEnd ≤ y.lowerEnd)
    (hodd : x.upperEnd = y.lowerEnd → x.significand % 2 = 0 → y.significand % 2 = 1) : False := by
  have hupper : q = x.upperEnd := le_antisymm hx.le_upper (h.trans hy.lower_le)
  have hlower : q = y.lowerEnd := le_antisymm (hx.le_upper.trans h) hy.lower_le
  have heven := hx.even_of_end (.inr hupper)
  have heven' := hy.even_of_end (.inl hlower)
  have := hodd (hupper.symm.trans hlower) heven
  omega

/-- **No value reads back as two numbers.** -/
theorem ReadsAs.unique (hx : ReadsAs q x) (hy : ReadsAs q y) : x = y := by
  rcases lt_trichotomy x.exponent y.exponent with he | he | he
  · obtain ⟨hends, hodd⟩ := upperEnd_le_lowerEnd_of_exponent he
    exact (hx.false_of_upperEnd_le hy hends fun heq heven => by have := hodd heq; omega).elim
  · rcases lt_trichotomy x.significand y.significand with hs | hs | hs
    · obtain ⟨hends, hodd⟩ := upperEnd_le_lowerEnd_of_significand he hs
      exact (hx.false_of_upperEnd_le hy hends hodd).elim
    · cases x
      cases y
      simp_all
    · obtain ⟨hends, hodd⟩ := upperEnd_le_lowerEnd_of_significand he.symm hs
      exact (hy.false_of_upperEnd_le hx hends hodd).elim
  · obtain ⟨hends, hodd⟩ := upperEnd_le_lowerEnd_of_exponent he
    exact (hy.false_of_upperEnd_le hx hends fun heq heven => by have := hodd heq; omega).elim

/-! ## The basin -/

/-- Four times the lower end, in units of the last place, is a natural. -/
theorem cast_low (h : 0 < x.significand) :
    ((if x.IsNarrow then 4 * x.significand - 1 else 4 * x.significand - 2 : Nat) : ℚ) =
      4 * (x.significand - x.halfBelow) := by
  unfold halfBelow
  split
  · rw [Nat.cast_sub (by omega)]
    push_cast
    ring
  · rw [Nat.cast_sub (by omega)]
    push_cast
    ring

/-- What the numerators of a basin stand for. -/
structure Basin.Spans (b : Basin) (x : Binary64) : Prop where
  /-- The unit is a denominator. -/
  unit_pos : 0 < b.unit
  /-- The lower end. -/
  low_eq : (b.low : ℚ) / b.unit = x.lowerEnd
  /-- The number itself. -/
  mid_eq : (b.mid : ℚ) / b.unit = x.value
  /-- The upper end. -/
  high_eq : (b.high : ℚ) / b.unit = x.upperEnd
  /-- The ends belong to an even significand. -/
  closed_eq : b.closed = decide (x.significand % 2 = 0)

/-- A basin stands over one denominator, which the power of two gives. -/
theorem exists_basin_eq (x : Binary64) : ∃ scale unit : Nat, 0 < unit ∧
    (scale : ℚ) / unit = 2 ^ x.exponent ∧
    x.basin = ⟨(if x.IsNarrow then 4 * x.significand - 1 else 4 * x.significand - 2) * scale,
      4 * x.significand * scale, (4 * x.significand + 2) * scale, unit * 4,
      x.significand % 2 = 0⟩ := by
  by_cases he : 0 ≤ x.exponent
  · refine ⟨twoTo x.exponent.toNat, 1, Nat.one_pos, ?_, ?_⟩
    · rw [cast_twoTo, Nat.cast_one, div_one, zpow_of_nonneg 2 he]
    · rw [basin, if_pos he]
      rfl
  · refine ⟨1, twoTo (-x.exponent).toNat, Nat.two_pow_pos _, ?_, ?_⟩
    · rw [cast_twoTo, Nat.cast_one, one_div, zpow_of_not_nonneg 2 he]
    · rw [basin, if_neg he]
      rfl

/-- **The basin of a number spans what lies between its ends.** -/
theorem spans_basin (h : 0 < x.significand) : x.basin.Spans x := by
  obtain ⟨scale, unit, hunit, hscale, hbasin⟩ := exists_basin_eq x
  have hpos : (unit : ℚ) ≠ 0 := by positivity
  have hscale : (scale : ℚ) = 2 ^ x.exponent * unit := by rw [← hscale, div_mul_cancel₀ _ hpos]
  rw [hbasin]
  refine ⟨Nat.mul_pos hunit (by decide), ?_, ?_, ?_, rfl⟩
  · rw [Nat.cast_mul, cast_low h, hscale, lowerEnd]
    push_cast
    field_simp
  · rw [value]
    push_cast
    rw [hscale]
    field_simp
  · rw [upperEnd]
    push_cast
    rw [hscale]
    field_simp
    ring

/-- A basin holds what reads back as its number. -/
theorem Basin.Spans.holds_iff {b : Basin} (hb : b.Spans x) (hden : 0 < den) :
    b.holds num den = true ↔ ReadsAs (num / den) x := by
  have hunit : (0 : ℚ) < b.unit := by exact_mod_cast hb.unit_pos
  have hden : (0 : ℚ) < den := by exact_mod_cast hden
  have hlow : b.low * den ≤ num * b.unit ↔ x.lowerEnd ≤ num / den := by
    rw [← hb.low_eq, div_le_div_iff₀ hunit hden]
    norm_cast
  have hhigh : num * b.unit ≤ b.high * den ↔ (num / den : ℚ) ≤ x.upperEnd := by
    rw [← hb.high_eq, div_le_div_iff₀ hden hunit]
    norm_cast
  have hlow' : b.low * den < num * b.unit ↔ x.lowerEnd < num / den := by
    rw [← hb.low_eq, div_lt_div_iff₀ hunit hden]
    norm_cast
  have hhigh' : num * b.unit < b.high * den ↔ (num / den : ℚ) < x.upperEnd := by
    rw [← hb.high_eq, div_lt_div_iff₀ hden hunit]
    norm_cast
  unfold Basin.holds
  rw [hb.closed_eq]
  by_cases heven : x.significand % 2 = 0
  · rw [if_pos (decide_eq_true heven), Bool.and_eq_true, decide_eq_true_eq, decide_eq_true_eq,
      hlow, hhigh]
    exact ⟨fun h => ⟨h.1, h.2, fun _ => heven⟩, fun h => ⟨h.lower_le, h.le_upper⟩⟩
  · rw [if_neg (by simpa using heven), Bool.and_eq_true, decide_eq_true_eq, decide_eq_true_eq,
      hlow', hhigh']
    constructor
    · rintro ⟨hlower, hupper⟩
      exact ⟨hlower.le, hupper.le, fun hend => absurd hend (not_or.mpr ⟨hlower.ne', hupper.ne⟩)⟩
    · intro h
      have hends := not_or.mp (mt h.even_of_end heven)
      exact ⟨lt_of_le_of_ne h.lower_le (Ne.symm hends.1), lt_of_le_of_ne h.le_upper hends.2⟩

/-! ## Decimals -/

/-- The value of a decimal. -/
def Decimal.value (d : Decimal) : ℚ :=
  d.digits * 10 ^ d.exponent

/-- The denominator of a decimal is positive. -/
theorem Decimal.ratio_pos (d : Decimal) : 0 < d.ratio.2 := by
  unfold Decimal.ratio
  split
  · exact Nat.one_pos
  · exact Nat.pow_pos (by decide)

/-- Its quotient is its value. -/
theorem Decimal.ratio_eq (d : Decimal) : (d.ratio.1 : ℚ) / d.ratio.2 = d.value := by
  unfold Decimal.ratio Decimal.value
  split
  · rename_i he
    rw [zpow_of_nonneg 10 he, Nat.cast_mul, cast_tenTo, Nat.cast_one, div_one]
  · rename_i he
    rw [zpow_of_not_nonneg 10 he, cast_tenTo, div_eq_mul_inv]

/-- A basin holds the decimals that read back as its number. -/
theorem Basin.Spans.holdsDecimal_iff {b : Basin} (hb : b.Spans x) :
    b.holdsDecimal d = true ↔ ReadsAs d.value x := by
  rw [Basin.holdsDecimal, hb.holds_iff d.ratio_pos, d.ratio_eq]

/-- Zeros move without changing the value. -/
theorem Decimal.value_trimZeros (d : Decimal) (n : Nat) : (d.trimZeros n).value = d.value := by
  induction n generalizing d with
  | zero => rfl
  | succ n ih =>
      rw [Decimal.trimZeros]
      split
      · rename_i hzero
        have hdigits : (d.digits : ℚ) = (d.digits / 10 : Nat) * 10 := by
          exact_mod_cast (Nat.div_mul_cancel (Nat.dvd_of_mod_eq_zero hzero.2)).symm
        rw [ih, Decimal.value, Decimal.value, zpow_add_one₀ (by norm_num), hdigits]
        ring
      · rfl

/-! ## The decimal that is written -/

/-- A decimal that is found on a grid reads back. -/
theorem holdsDecimal_of_onGrid? {b : Basin} (h : onGrid? b exponent = some d) :
    b.holdsDecimal d = true := by
  unfold onGrid? at h
  grind

/-- Where none is found on a grid, neither neighbour reads back. -/
theorem onGrid?_eq_none {b : Basin} (h : onGrid? b exponent = none) :
    b.holdsDecimal (neighbours b.mid b.unit exponent).1 = false ∧
      b.holdsDecimal (neighbours b.mid b.unit exponent).2 = false := by
  unfold onGrid? at h
  grind

/-- Neighbours have the whole part of the quotient over the power of ten. -/
theorem exists_neighbours_eq (num : Nat) (hden : 0 < den) (exponent : Int) : ∃ a b : Nat, 0 < b ∧
    (a / b : ℚ) * 10 ^ exponent = num / den ∧
    neighbours num den exponent = (⟨a / b, exponent⟩, ⟨a / b + 1, exponent⟩) := by
  have hden' : (den : ℚ) ≠ 0 := by positivity
  by_cases he : 0 ≤ exponent
  · refine ⟨num, den * tenTo exponent.toNat, Nat.mul_pos hden (Nat.pow_pos (by decide)), ?_, ?_⟩
    · rw [Nat.cast_mul, cast_tenTo, zpow_of_nonneg 10 he]
      field_simp
    · rw [neighbours, if_pos he]
  · refine ⟨num * tenTo (-exponent).toNat, den, hden, ?_, ?_⟩
    · rw [Nat.cast_mul, cast_tenTo, zpow_of_not_nonneg 10 he]
      field_simp
    · rw [neighbours, if_neg he]

/-- A quotient lies between its neighbours, which are one step of the grid apart. -/
theorem neighbours_spec (num : Nat) (hden : 0 < den) (exponent : Int) :
    (neighbours num den exponent).1.value ≤ num / den ∧
      (num / den : ℚ) < (neighbours num den exponent).2.value ∧
      (neighbours num den exponent).2.value =
        (neighbours num den exponent).1.value + 10 ^ exponent := by
  obtain ⟨a, b, hb, hquotient, heq⟩ := exists_neighbours_eq num hden exponent
  have hstep : (0 : ℚ) < 10 ^ exponent := by positivity
  have hb' : (0 : ℚ) < b := by exact_mod_cast hb
  have hfloor : ((a / b : Nat) : ℚ) ≤ a / b := by
    rw [le_div_iff₀ hb']
    exact_mod_cast Nat.div_mul_le_self a b
  have hceil : (a / b : ℚ) < (a / b : Nat) + 1 := by
    rw [div_lt_iff₀ hb']
    exact_mod_cast Nat.lt_mul_of_div_lt (Nat.lt_succ_self (a / b)) hb
  rw [heq, ← hquotient]
  simp only [Decimal.value]
  push_cast
  refine ⟨by gcongr, by gcongr, by ring⟩

/-- A natural is no less than the power of ten with as many digits. -/
theorem pow_length_toDigits_le {n : Nat} (h : 0 < n) :
    10 ^ ((Nat.toDigits 10 n).length - 1) ≤ n := by
  by_contra hlt
  cases hlength : (Nat.toDigits 10 n).length - 1 with
  | zero => rw [hlength] at hlt; omega
  | succ k =>
      have hfewer := (Nat.length_toDigits_le_iff (by decide) (by omega)).mpr (not_le.mp hlt)
      omega

/-- The place of the first digit is not too great. -/
theorem zpow_leadingPlace_le (hden : 0 < den) (h : (10 : ℚ) ^ (-399 : Int) ≤ num / den) :
    (10 : ℚ) ^ (leadingPlace num den - 1) ≤ num / den := by
  have hden' : (0 : ℚ) < den := by exact_mod_cast hden
  unfold leadingPlace
  split
  · rename_i hle
    have hlength : 0 < (Nat.toDigits 10 (num / den)).length := Nat.length_toDigits_pos
    calc (10 : ℚ) ^ (((Nat.toDigits 10 (num / den)).length : Int) - 1)
        = (10 ^ ((Nat.toDigits 10 (num / den)).length - 1) : Nat) := by
          rw [← Nat.cast_pred hlength, zpow_natCast]
          norm_cast
      _ ≤ (num / den : Nat) := by
          exact_mod_cast pow_length_toDigits_le (Nat.div_pos hle hden)
      _ ≤ num / den := by
          rw [le_div_iff₀ hden']
          exact_mod_cast Nat.div_mul_le_self num den
  · have hplace : ∀ j : Nat, den ≤ num * tenTo j ↔ (10 : ℚ) ^ (1 - (j : Int) - 1) ≤ num / den := by
      intro j
      rw [sub_sub_cancel_left, zpow_neg, zpow_natCast, ← cast_tenTo, le_div_iff₀ hden',
        inv_mul_le_iff₀ (by rw [cast_tenTo]; positivity), mul_comm (tenTo j : ℚ)]
      norm_cast
    split
    · rename_i j hfound
      exact (hplace j).mp (of_decide_eq_true (List.find?_some hfound :))
    · rename_i hnone
      have hlast := List.find?_eq_none.mp hnone 399 (by simp)
      exact absurd (decide_eq_true ((hplace 399).mpr h)) hlast

/-- A number lies above its lower end. -/
theorem lowerEnd_lt_value (x : Binary64) : x.lowerEnd < x.value := by
  have hhalf := x.halfBelow_pos
  rw [lowerEnd, value]
  gcongr
  linarith

/-- It lies below its upper end. -/
theorem value_lt_upperEnd (x : Binary64) : x.value < x.upperEnd := by
  rw [upperEnd, value]
  gcongr
  linarith

/-- A basin is wider than the number over ten to the sixteenth. -/
theorem value_lt_width (x : Binary64) : x.value < 10 ^ 16 * (x.upperEnd - x.lowerEnd) := by
  have hscale : (0 : ℚ) < 2 ^ x.exponent := by positivity
  have hwidth : (x.significand : ℚ) < 10 ^ 16 * (1 / 2 + x.halfBelow) := by
    have hbound : (x.significand : ℚ) < 2 ^ 53 := by
      have := x.isNormal.1
      rw [← cast_twoTo]
      exact_mod_cast this
    unfold halfBelow
    split
    · rename_i hnarrow
      rw [hnarrow.1, cast_twoTo]
      norm_num
    · linarith
  calc x.value < 10 ^ 16 * (1 / 2 + x.halfBelow) * 2 ^ x.exponent := by
        rw [value]
        gcongr
    _ = 10 ^ 16 * (x.upperEnd - x.lowerEnd) := by
        rw [upperEnd, lowerEnd]
        ring

/-- What lies strictly between the ends reads back, also for an odd significand. -/
theorem readsAs_of_between (hlower : x.lowerEnd < q) (hupper : q < x.upperEnd) : ReadsAs q x :=
  ⟨hlower.le, hupper.le, fun hend => absurd hend (not_or.mpr ⟨hlower.ne', hupper.ne⟩)⟩

/-- On a grid that is finer than the basin is wide one of the neighbours reads back. -/
theorem readsAs_neighbour {step : ℚ} (hstep : step < x.upperEnd - x.lowerEnd) (hle : q ≤ x.value)
    (hlt : x.value < q + step) : ReadsAs q x ∨ ReadsAs (q + step) x := by
  have hlower := x.lowerEnd_lt_value
  have hupper := x.value_lt_upperEnd
  by_cases hq : x.lowerEnd < q
  · exact .inl (readsAs_of_between hq (hle.trans_lt hupper))
  · exact .inr (readsAs_of_between (hlower.trans hlt) (by linarith))

/-- Three bits are less than one decimal digit. -/
theorem two_pow_le_ten_pow {m n : Nat} (h : m ≤ 3 * n) : (2 : ℚ) ^ m ≤ 10 ^ n :=
  calc (2 : ℚ) ^ m ≤ 2 ^ (3 * n) := pow_le_pow_right₀ one_le_two h
    _ = 8 ^ n := by rw [pow_mul]; norm_num
    _ ≤ 10 ^ n := by gcongr; norm_num

/-- The same for places behind the point. -/
theorem zpow_neg_ten_le {m n : Nat} (h : m ≤ 3 * n) :
    (10 : ℚ) ^ (-(n : Int)) ≤ 2 ^ (-(m : Int)) := by
  rw [zpow_neg, zpow_neg, zpow_natCast, zpow_natCast]
  exact inv_anti₀ (by positivity) (two_pow_le_ten_pow h)

/-- The first digit of a positive number stands no later than 399 places behind the point. -/
theorem zpow_le_value (h : 0 < x.significand) : (10 : ℚ) ^ (-399 : Int) ≤ x.value := by
  have hone : (1 : ℚ) ≤ x.significand := by exact_mod_cast h
  calc (10 : ℚ) ^ (-399 : Int) ≤ 2 ^ leastExponent :=
        zpow_neg_ten_le (m := 1074) (n := 399) (by norm_num)
    _ = 1 * 2 ^ leastExponent := (one_mul _).symm
    _ ≤ x.value := by
      rw [value]
      gcongr
      · exact one_le_two
      · exact x.isNormal.2.1

/-- **The decimal that is written reads back.** -/
theorem readsAs_shortest (h : 0 < x.significand) : ReadsAs x.shortest.value x := by
  have hspans := spans_basin h
  dsimp only [shortest]
  split
  · rename_i d hfound
    obtain ⟨n, -, hgrid⟩ := List.exists_of_findSome?_eq_some hfound
    exact hspans.holdsDecimal_iff.mp (holdsDecimal_of_onGrid? hgrid)
  · -- a grid of seventeen digits is finer than the basin is wide
    rename_i hnone
    obtain ⟨hlower, hupper⟩ := onGrid?_eq_none (List.findSome?_eq_none_iff.mp hnone 16 (by simp))
    obtain ⟨hle, hlt, hnext⟩ := neighbours_spec x.basin.mid hspans.unit_pos
      (leadingPlace x.basin.mid x.basin.unit - 1 - (16 : Nat))
    rw [hspans.mid_eq] at hle hlt
    have hplace : (10 : ℚ) ^ (leadingPlace x.basin.mid x.basin.unit - 1) ≤ x.value := by
      rw [← hspans.mid_eq]
      apply zpow_leadingPlace_le hspans.unit_pos
      rw [hspans.mid_eq]
      exact zpow_le_value h
    have hstep : (10 : ℚ) ^ (leadingPlace x.basin.mid x.basin.unit - 1 - (16 : Nat)) <
        x.upperEnd - x.lowerEnd := by
      have hwidth := x.value_lt_width
      rw [zpow_sub₀ (by norm_num), zpow_natCast, div_lt_iff₀ (by norm_num)]
      linarith
    have hread := readsAs_neighbour hstep hle (hnext ▸ hlt)
    rw [← hnext, ← hspans.holdsDecimal_iff, ← hspans.holdsDecimal_iff, hlower, hupper] at hread
    simp at hread

end ClientRegen.Binary64
