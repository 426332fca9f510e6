/-!
# Powers

The powers that numbers are scaled by, and the numbers of bits that integers may have.
-/

namespace ClientRegen

/-- A power of two. -/
def twoTo (n : Nat) : Nat :=
  Nat.pow 2 n

/-- A power of ten. -/
def tenTo (n : Nat) : Nat :=
  Nat.pow 10 n

/-- The least natural that does not fit 64 bits. -/
def wordLimit : Nat :=
  twoTo 64

/-- The greatest magnitude of a negative integer of 64 bits. -/
def negativeLimit : Nat :=
  twoTo 63

end ClientRegen
