import ClientRegen.Number.Binary64
/-!
# Shortest decimals

The decimal that is written for a binary number: of all decimals that read back as the same number
those with the fewest digits, and of these the nearest. A decimal reads back when it lies between
the two points halfway to the neighbouring numbers; the points themselves count when the
significand is even.
-/

namespace ClientRegen.Binary64

/-- A decimal `digits * 10 ^ exponent`. -/
structure Decimal where
  /-- The digits, as one natural. -/
  digits : Nat
  /-- The power of ten that they are multiplied by. -/
  exponent : Int
deriving DecidableEq, Repr

/-- The numbers that read back as `x`, all over one denominator and four times as large: the lower
end, the number itself, the upper end, and the denominator. -/
structure Basin where
  /-- Four times the numerator of the lower end. -/
  low : Nat
  /-- Four times the numerator of the number. -/
  mid : Nat
  /-- Four times the numerator of the upper end. -/
  high : Nat
  /-- The common denominator of the four-fold values. -/
  unit : Nat
  /-- Whether the ends belong to it. -/
  closed : Bool

/-- The basin of a number. Below a power of two the neighbours lie half as far apart. -/
def basin (x : Binary64) : Basin :=
  let narrow := x.significand = twoTo 52 ∧ x.exponent > leastExponent
  let (scale, unit) : Nat × Nat :=
    if x.exponent ≥ 0 then (twoTo x.exponent.toNat, 1) else (1, twoTo (-x.exponent).toNat)
  let m := 4 * x.significand
  ⟨(if narrow then m - 1 else m - 2) * scale, m * scale, (m + 2) * scale, unit * 4,
    x.significand % 2 = 0⟩

/-- Whether a quotient lies in the basin. -/
def Basin.holds (b : Basin) (num den : Nat) : Bool :=
  let v := num * b.unit
  if b.closed then b.low * den ≤ v && v ≤ b.high * den else b.low * den < v && v < b.high * den

/-- The quotient `digits * 10 ^ exponent`. -/
def Decimal.ratio (d : Decimal) : Nat × Nat :=
  if d.exponent ≥ 0 then (d.digits * tenTo d.exponent.toNat, 1)
  else (d.digits, tenTo (-d.exponent).toNat)

/-- Whether a decimal reads back. -/
def Basin.holdsDecimal (b : Basin) (d : Decimal) : Bool :=
  b.holds d.ratio.1 d.ratio.2

/-- How far a decimal lies from the number, over the product of the two denominators. -/
def Basin.distance (b : Basin) (d : Decimal) : Nat :=
  let v := d.ratio.1 * b.unit
  let m := b.mid * d.ratio.2
  if v ≥ m then v - m else m - v

/-- The place of the first digit of a positive quotient: `k` with `10 ^ (k - 1) ≤ q < 10 ^ k`. -/
def leadingPlace (num den : Nat) : Int :=
  if num ≥ den then (Nat.toDigits 10 (num / den)).length
  else
    match (List.range 400).find? fun j => den ≤ num * tenTo j with
    | some j => 1 - (j : Int)
    | none => -400

/-- The two neighbours of a quotient among the multiples of a power of ten. -/
def neighbours (num den : Nat) (exponent : Int) : Decimal × Decimal :=
  let q :=
    if exponent ≥ 0 then num / (den * tenTo exponent.toNat) else num * tenTo (-exponent).toNat / den
  (⟨q, exponent⟩, ⟨q + 1, exponent⟩)

/-- The nearest decimal on one grid that reads back. -/
def onGrid? (b : Basin) (exponent : Int) : Option Decimal :=
  let (lower, upper) := neighbours b.mid b.unit exponent
  match b.holdsDecimal lower, b.holdsDecimal upper with
  | true, true =>
    let l := b.distance lower
    let u := b.distance upper
    some (if l < u ∨ (l = u ∧ lower.digits % 2 = 0) then lower else upper)
  | true, false => some lower
  | false, true => some upper
  | false, false => none

/-- The shortest decimal of a positive number: seventeen digits always suffice. -/
def shortest (x : Binary64) : Decimal :=
  let b := x.basin
  let place := leadingPlace b.mid b.unit
  match (List.range 17).findSome? fun (n : Nat) => onGrid? b (place - 1 - n) with
  | some d => d
  | none => (neighbours b.mid b.unit (place - 17)).1

/-- Moves zeros at the end of the digits into the exponent. -/
def Decimal.trimZeros (d : Decimal) : Nat → Decimal
  | 0 => d
  | n + 1 =>
    if d.digits ≠ 0 ∧ d.digits % 10 = 0 then Decimal.trimZeros ⟨d.digits / 10, d.exponent + 1⟩ n
    else d

end ClientRegen.Binary64
