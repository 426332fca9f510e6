import ClientRegen.Number.Power
/-!
# Finite binary floating point

Non-negative numbers with a significand of 53 bits, kept exactly as `significand * 2 ^ exponent`,
and the operations that round to the nearest of them, a tie going to the even significand.

* `ofRatio?` rounds a quotient once; it has no answer beyond the greatest such number.
* `mul?` and `div` round the exact product and quotient.
-/

namespace ClientRegen

namespace Binary64

/-- The exponent of the least positive number. -/
def leastExponent : Int := -1074

/-- The exponent of the greatest numbers. -/
def greatestExponent : Int := 971

/-- A significand and an exponent in normal form: the significand has 53 bits, and fewer only with
the least exponent. So every number has one significand and one exponent. -/
def IsNormal (significand : Nat) (exponent : Int) : Prop :=
  significand < twoTo 53 ∧ leastExponent ≤ exponent ∧ exponent ≤ greatestExponent ∧
    (twoTo 52 ≤ significand ∨ exponent = leastExponent)

instance (significand : Nat) (exponent : Int) : Decidable (IsNormal significand exponent) :=
  inferInstanceAs (Decidable (_ ∧ _ ∧ _ ∧ _))

end Binary64

/-- A non-negative number `significand * 2 ^ exponent` in normal form. -/
structure Binary64 where
  /-- The integer significand. -/
  significand : Nat
  /-- The power of two. -/
  exponent : Int
  /-- They are in normal form. -/
  isNormal : Binary64.IsNormal significand exponent
deriving DecidableEq, Repr

namespace Binary64

/-- The number with a significand and an exponent in normal form. -/
def ofParts? (significand : Nat) (exponent : Int) : Option Binary64 :=
  if h : IsNormal significand exponent then some ⟨significand, exponent, h⟩ else none

/-- Zero. -/
def zero : Binary64 := ⟨0, leastExponent, by decide⟩

/-- The exact value as a quotient of naturals, the denominator being a power of two. -/
def ratio (x : Binary64) : Nat × Nat :=
  if x.exponent ≥ 0 then (x.significand * twoTo x.exponent.toNat, 1)
  else (x.significand, twoTo (-x.exponent).toNat)

/-- The quotient rounded to the nearest natural, a tie going to the even one. -/
def roundQuotient (num den : Nat) : Nat :=
  let q := num / den
  let twice := 2 * (num % den)
  if twice > den ∨ (twice = den ∧ q % 2 = 1) then q + 1 else q

/-- The quotient over a power of two, rounded to the nearest natural. -/
def roundAt (num den : Nat) (exponent : Int) : Nat :=
  if exponent ≥ 0 then roundQuotient num (den * twoTo exponent.toNat)
  else roundQuotient (num * twoTo (-exponent).toNat) den

/-- A significand that rounding carried to 54 bits moves one place on; beyond the greatest
exponent there is no number. -/
def carry? (significand : Nat) (exponent : Int) : Option Binary64 :=
  if significand = twoTo 53 then ofParts? (twoTo 52) (exponent + 1)
  else ofParts? significand exponent

/-- The exponent at which a positive quotient has a significand of 53 bits, or the least one. -/
def exponentFor (num den : Nat) : Int :=
  let e := (num.log2 : Int) - den.log2 - 52
  let fits :=
    if e ≥ 0 then decide (twoTo 52 * (den * twoTo e.toNat) ≤ num)
    else decide (twoTo 52 * den ≤ num * twoTo (-e).toNat)
  max leastExponent (if fits then e else e - 1)

/-- The nearest number to a quotient with a positive denominator. -/
def ofRatio? (num den : Nat) : Option Binary64 :=
  if num = 0 then some zero
  else
    let e := exponentFor num den
    carry? (roundAt num den e) e

/-- The nearest number to a product. -/
def mul? (x y : Binary64) : Option Binary64 :=
  ofRatio? (x.ratio.1 * y.ratio.1) (x.ratio.2 * y.ratio.2)

/-- The nearest number to a quotient; the divisor is not zero. -/
def div? (x y : Binary64) : Option Binary64 :=
  ofRatio? (x.ratio.1 * y.ratio.2) (x.ratio.2 * y.ratio.1)

/-- The nearest number to `digits * 10 ^ exponent`. Exponents far outside the range are settled
without computing the power. -/
def ofDecimal? (digits : Nat) (exponent : Int) : Option Binary64 :=
  if digits = 0 then some zero
  else if exponent ≥ 400 then none
  else if exponent ≥ 0 then ofRatio? (digits * tenTo exponent.toNat) 1
  else
    let places := (Nat.toDigits 10 digits).length
    if (places : Int) + exponent < -400 then some zero
    else ofRatio? digits (tenTo (-exponent).toNat)

end Binary64
end ClientRegen
