import ClientRegen.Number.Shortest
/-!
# Numbers of a document

A number that a document holds, and its one canonical text. Integers are kept as integers; every
other number is a binary floating point number with a sign, and a negative zero is told apart from
zero.
-/

namespace ClientRegen

/-- A number of a document. -/
inductive Number where
  /-- An integer that fits 64 bits, signed or unsigned. -/
  | integer (value : Int)
  /-- A floating point number, as its sign and its magnitude. -/
  | real (negative : Bool) (magnitude : Binary64)
deriving DecidableEq, Repr

namespace Number

/-- How reals are written: the least and the greatest exponent of the leading digit that are
written without an exponent part. -/
structure RealFormat where
  /-- The least exponent written without an exponent part. -/
  leastPlain : Int
  /-- The greatest exponent written without an exponent part. -/
  greatestPlain : Int

/-- Reals between a hundred-thousandth and ten to the sixteenth are written plainly. -/
def realFormat : RealFormat := ⟨-5, 15⟩

/-- Digits with a point after the given number of them; at least one digit stands on either
side. -/
def pointed (digits : List Char) (whole : Int) : List Char :=
  if whole ≤ 0 then '0' :: '.' :: List.replicate (-whole).toNat '0' ++ digits
  else
    let n := whole.toNat
    if digits.length ≤ n then digits ++ List.replicate (n - digits.length) '0' ++ ['.', '0']
    else digits.take n ++ '.' :: digits.drop n

/-- The first digit, a point and the others if there are others, and a signed exponent. -/
def scientific (digits : List Char) (exponent : Int) : List Char :=
  let mantissa :=
    match digits with
    | d :: e :: ds => d :: '.' :: e :: ds
    | ds => ds
  mantissa ++ 'e' :: (if exponent < 0 then '-' else '+') :: Nat.toDigits 10 exponent.natAbs

/-- The text of a magnitude. -/
def magnitudeText (f : RealFormat) (x : Binary64) : List Char :=
  if x.significand = 0 then ['0', '.', '0']
  else
    let d := x.shortest.trimZeros 17
    let digits := Nat.toDigits 10 d.digits
    let exponent := d.exponent + digits.length - 1
    if f.leastPlain ≤ exponent ∧ exponent ≤ f.greatestPlain then pointed digits (exponent + 1)
    else scientific digits exponent

/-- The text of a number. -/
def text : Number → String
  | integer n => toString n
  | real negative x =>
    String.ofList ((if negative then ['-'] else []) ++ magnitudeText realFormat x)

end Number
end ClientRegen
