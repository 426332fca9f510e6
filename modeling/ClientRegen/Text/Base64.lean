/-!
# Bytes as text

Bytes written in base 64: four letters for three bytes, each letter for six bits. The last group
may be of two or three letters, filled up to four by equals signs; its unused bits are zero.
-/

namespace ClientRegen.Text

/-- The six bits that a letter stands for. -/
def sixBits? (c : Char) : Option Nat :=
  if 'A' ≤ c ∧ c ≤ 'Z' then some (c.toNat - 'A'.toNat)
  else if 'a' ≤ c ∧ c ≤ 'z' then some (c.toNat - 'a'.toNat + 26)
  else if c.isDigit then some (c.toNat - '0'.toNat + 52)
  else if c = '+' then some 62
  else if c = '/' then some 63
  else none

/-- The bytes of a last group that is filled up. -/
def lastBytes? (a b : Nat) (c : Option Nat) : Option (List Nat) :=
  match c with
  | none => if b % 16 = 0 then some [a * 4 + b / 16] else none
  | some c => if c % 4 = 0 then some [a * 4 + b / 16, b % 16 * 16 + c / 4] else none

/-- The bytes that letters write. -/
def decodeBase64? : List Char → Option (List Nat)
  | [] => some []
  | a :: b :: c :: d :: rest => do
    let x ← sixBits? a
    let y ← sixBits? b
    match c, d, rest with
    | '=', '=', [] => lastBytes? x y none
    | _, '=', [] => lastBytes? x y (some (← sixBits? c))
    | _, _, _ =>
      let z ← sixBits? c
      let w ← sixBits? d
      let more ← decodeBase64? rest
      pure ((x * 4 + y / 16) :: (y % 16 * 16 + z / 4) :: (z % 4 * 64 + w) :: more)
  | _ => none

end ClientRegen.Text
