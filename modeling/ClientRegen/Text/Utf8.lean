/-!
# Reading UTF-8

A byte sequence read as UTF-8. `decode` fills in for what is not UTF-8: it writes one replacement
character for each longest run of bytes that could begin a character and does not go on as one.
-/

namespace ClientRegen.Text.Utf8

/-- What the first byte of a character of several bytes announces: the bits it contributes, the
range of the second byte, and how many further bytes follow the second. -/
structure Lead where
  /-- The leading bits of the code point. -/
  bits : Nat
  /-- The least second byte. -/
  least : Nat
  /-- The greatest second byte. -/
  greatest : Nat
  /-- How many bytes follow the second one. -/
  further : Nat

/-- The announcement of a first byte, for bytes that begin a character of two to four bytes. -/
def lead? (b : UInt8) : Option Lead :=
  let n := b.toNat
  if 0xC2 ≤ n ∧ n ≤ 0xDF then some ⟨n - 0xC0, 0x80, 0xBF, 0⟩
  else if n = 0xE0 then some ⟨0, 0xA0, 0xBF, 1⟩
  else if n = 0xED then some ⟨0xD, 0x80, 0x9F, 1⟩
  else if 0xE1 ≤ n ∧ n ≤ 0xEF then some ⟨n - 0xE0, 0x80, 0xBF, 1⟩
  else if n = 0xF0 then some ⟨0, 0x90, 0xBF, 2⟩
  else if 0xF1 ≤ n ∧ n ≤ 0xF3 then some ⟨n - 0xF0, 0x80, 0xBF, 2⟩
  else if n = 0xF4 then some ⟨4, 0x80, 0x8F, 2⟩
  else none

/-- Reads the bytes after the second one: the code point if all are there, and how many were
read. -/
def finish : Nat → Nat → Nat → List UInt8 → Option Nat × Nat
  | 0, code, read, _ => (some code, read)
  | _ + 1, _, read, [] => (none, read)
  | k + 1, code, read, b :: bs =>
    if 0x80 ≤ b.toNat ∧ b.toNat ≤ 0xBF then finish k (code * 64 + (b.toNat - 0x80)) (read + 1) bs
    else (none, read)

/-- One character from its first byte and what follows: its code point, or nothing where the bytes
do not make one, and how many of the following bytes belong to it. -/
def character (b : UInt8) (bs : List UInt8) : Option Nat × Nat :=
  if b.toNat < 0x80 then (some b.toNat, 0)
  else
    match lead? b, bs with
    | none, _ => (none, 0)
    | some _, [] => (none, 0)
    | some l, c :: cs =>
      if l.least ≤ c.toNat ∧ c.toNat ≤ l.greatest then
        finish l.further (l.bits * 64 + (c.toNat - 0x80)) 1 cs
      else (none, 0)

/-- The text of a byte sequence, with U+FFFD wherever the bytes are not UTF-8. -/
def decode : List UInt8 → List Char
  | [] => []
  | b :: bs =>
    let (code, read) := character b bs
    Char.ofNat (code.getD 0xFFFD) :: decode (bs.drop read)
termination_by bs => bs.length
decreasing_by simp only [List.length_drop, List.length_cons]; omega

end ClientRegen.Text.Utf8
