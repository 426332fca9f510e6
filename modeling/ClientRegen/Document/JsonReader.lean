import ClientRegen.Document.Value
/-!
# Reading JSON

Strict JSON text as a document value. Lists and objects may lie in one another up to a fixed
depth; a key that is repeated keeps its first place and takes its last value.

Each reader returns what it read together with the rest of the text and a proof that the rest is
shorter, so reading ends.
-/

namespace ClientRegen.Json

/-- Something read from the start of a text, and the shorter rest. -/
structure Read (α : Type) (cs : List Char) where
  /-- What was read. -/
  value : α
  /-- What follows it. -/
  rest : List Char
  /-- Reading consumes something. -/
  shorter : rest.length < cs.length

/-- How deep lists and objects may lie in one another. -/
def depthLimit : Nat := 127

/-- The characters that may stand between tokens. -/
def isSpace (c : Char) : Bool :=
  c == ' ' || c == '\n' || c == '\t' || c == '\r'

/-- The text from the next token on. -/
def skipSpace (cs : List Char) : List Char :=
  cs.dropWhile isSpace

/-- Skipping spaces never lengthens a text. -/
theorem length_skipSpace_le (cs : List Char) : (skipSpace cs).length ≤ cs.length := by
  unfold skipSpace
  induction cs with
  | nil => simp
  | cons c cs ih =>
    rw [List.dropWhile_cons]
    split
    · simp only [List.length_cons]; omega
    · simp

/-- The value of a hexadecimal digit. -/
def hexDigit? (c : Char) : Option Nat :=
  if c.isDigit then some (c.toNat - '0'.toNat)
  else if 'a' ≤ c ∧ c ≤ 'f' then some (c.toNat - 'a'.toNat + 10)
  else if 'A' ≤ c ∧ c ≤ 'F' then some (c.toNat - 'A'.toNat + 10)
  else none

/-- The number that four hexadecimal digits write. -/
def hex4? (a b c d : Char) : Option Nat := do
  let a ← hexDigit? a
  let b ← hexDigit? b
  let c ← hexDigit? c
  let d ← hexDigit? d
  pure (((a * 16 + b) * 16 + c) * 16 + d)

/-- The characters with a short escape. -/
def shortEscape? (c : Char) : Option Char :=
  match c with
  | '"' => some '"'
  | '\\' => some '\\'
  | '/' => some '/'
  | 'b' => some (Char.ofNat 8)
  | 'f' => some (Char.ofNat 12)
  | 'n' => some '\n'
  | 'r' => some '\r'
  | 't' => some '\t'
  | _ => none

/-- The characters of a string up to its closing quote, and what follows the quote. A code point
beyond 16 bits is escaped as two surrogates; a surrogate alone is an error. -/
def readString : List Char → Option (List Char × List Char)
  | [] => none
  | '"' :: rest => some ([], rest)
  | '\\' :: 'u' :: a :: b :: c :: d :: rest =>
    match hex4? a b c d with
    | none => none
    | some n =>
      if n < 0xD800 ∨ 0xDFFF < n then
        (readString rest).map fun r => (Char.ofNat n :: r.1, r.2)
      else if 0xDBFF < n then none
      else
        match rest with
        | '\\' :: 'u' :: e :: f :: g :: h :: rest =>
          match hex4? e f g h with
          | none => none
          | some m =>
            if 0xDC00 ≤ m ∧ m ≤ 0xDFFF then
              (readString rest).map fun r =>
                (Char.ofNat (0x10000 + (n - 0xD800) * 0x400 + (m - 0xDC00)) :: r.1, r.2)
            else none
        | _ => none
  | '\\' :: e :: rest =>
    match shortEscape? e with
    | none => none
    | some c => (readString rest).map fun r => (c :: r.1, r.2)
  | c :: rest =>
    if c = '\\' ∨ c.toNat < 0x20 then none
    else (readString rest).map fun r => (c :: r.1, r.2)

/-- What follows a string is shorter than the text from its first character on. -/
theorem length_lt_of_readString {cs : List Char} {r : List Char × List Char}
    (h : readString cs = some r) : r.2.length < cs.length := by
  fun_induction readString cs generalizing r <;>
    simp_all only [Option.map_eq_some_iff, reduceCtorEq, Option.some.injEq, List.length_cons]
  case case2 => subst h; simp
  all_goals
    obtain ⟨a, ha, rfl⟩ := h
    rename_i ih
    have := ih ha
    simp only at this ⊢
    omega

/-- The digits at the start of a text. -/
def spanDigits (cs : List Char) : List Char × List Char :=
  cs.span Char.isDigit

/-- The natural that decimal digits write. -/
def digitsValue (ds : List Char) : Nat :=
  ds.foldl (fun n c => n * 10 + (c.toNat - '0'.toNat)) 0

/-- The parts of a number's text. -/
structure Numeral where
  /-- Whether a minus sign stands in front. -/
  negative : Bool
  /-- The digits before the point. -/
  whole : List Char
  /-- The digits after the point, if there is a point. -/
  fraction : Option (List Char)
  /-- The exponent, if there is one. -/
  exponent : Option Int

/-- The leading digits that fit 64 bits, as a number, and how many digits are left over. -/
def leading64 : Nat → List Char → Nat × Nat
  | n, [] => (n, 0)
  | n, d :: ds =>
    let m := n * 10 + (d.toNat - '0'.toNat)
    if m < wordLimit then leading64 m ds else (n, ds.length + 1)

/-- A power of ten as the nearest binary number, up to the greatest there is. -/
def powerOfTen? (n : Nat) : Option Binary64 :=
  if n ≤ 308 then Binary64.ofDecimal? 1 n else none

/-- `significand * 10 ^ exponent` in one multiplication or division by a rounded power of ten;
a power beyond the greatest is divided by in two steps. -/
def scaled? (significand : Nat) (exponent : Int) : Option Binary64 := do
  let f ← Binary64.ofRatio? significand 1
  if f.significand = 0 then pure f
  else if exponent ≥ 0 then
    let p ← powerOfTen? exponent.toNat
    f.mul? p
  else
    match powerOfTen? (-exponent).toNat with
    | some p => f.div? p
    | none =>
      let top ← powerOfTen? 308
      let g ← f.div? top
      if g.significand = 0 then pure g
      else
        match powerOfTen? (-exponent - 308).toNat with
        | some p => g.div? p
        | none => pure Binary64.zero

/-- The number that a numeral writes. Without point and exponent it is an integer if it fits
64 bits, but a minus sign before zero makes a real. Otherwise its leading digits that fit 64 bits
are scaled: digits left over before the point raise the exponent, digits after the point lower it
as far as they were used. -/
def Numeral.value? (x : Numeral) : Option Number :=
  let (significand, unread) := leading64 0 x.whole
  let integer : Option Number :=
    if x.fraction.isSome ∨ x.exponent.isSome ∨ unread ≠ 0 then none
    else if !x.negative then some (.integer significand)
    else if significand ≠ 0 ∧ significand ≤ negativeLimit then
      some (.integer (-(significand : Int)))
    else none
  match integer with
  | some n => some n
  | none =>
    let fraction := x.fraction.getD []
    let (significand, unused) := leading64 significand fraction
    let exponent := (unread : Int) - (fraction.length - unused : Nat) + x.exponent.getD 0
    (scaled? significand exponent).map (.real x.negative)

/-- Reads an exponent part, if there is one: a sign is optional, digits are not. -/
def readExponent (cs : List Char) : Option (Option Int × List Char) :=
  match cs with
  | e :: rest =>
    if e = 'e' ∨ e = 'E' then
      let (negative, rest) : Bool × List Char :=
        match rest with
        | '+' :: r => (false, r)
        | '-' :: r => (true, r)
        | r => (false, r)
      match spanDigits rest with
      | ([], _) => none
      | (ds, rest) =>
        let n : Int := digitsValue ds
        some (some (if negative then -n else n), rest)
    else some (none, cs)
  | [] => some (none, [])

/-- Reads the digits after a point, if there is a point. -/
def readFraction (cs : List Char) : Option (Option (List Char) × List Char) :=
  match cs with
  | '.' :: rest =>
    match spanDigits rest with
    | ([], _) => none
    | (ds, rest) => some (some ds, rest)
  | _ => some (none, cs)

/-- Reads a number: no leading zero before other digits, and at least one digit on either side of
a point. -/
def readNumber (cs : List Char) : Option (Number × List Char) :=
  let (negative, body) : Bool × List Char :=
    match cs with
    | '-' :: r => (true, r)
    | r => (false, r)
  match spanDigits body with
  | ([], _) => none
  | (d :: ds, rest) =>
    if d = '0' ∧ ds ≠ [] then none
    else do
      let (fraction, rest) ← readFraction rest
      let (exponent, rest) ← readExponent rest
      let number ← Numeral.value? ⟨negative, d :: ds, fraction, exponent⟩
      pure (number, rest)

/-- The rest after a word that must come next. -/
def readWord (word : List Char) (value : Value) (cs : List Char) : Option (Value × List Char) :=
  (Text.dropStart? word cs).map fun rest => (value, rest)

/-- Reads a scalar that is not a string. -/
def readPlain (cs : List Char) : Option (Value × List Char) :=
  match cs with
  | 't' :: _ => readWord ['t', 'r', 'u', 'e'] (.bool true) cs
  | 'f' :: _ => readWord ['f', 'a', 'l', 's', 'e'] (.bool false) cs
  | 'n' :: _ => readWord ['n', 'u', 'l', 'l'] .null cs
  | _ => (readNumber cs).map fun r => (.number r.1, r.2)

/-- Keeps a result whose rest is shorter than the text it was read from. -/
def Read.of? {α : Type} (cs : List Char) (r : α × List Char) : Option (Read α cs) :=
  if h : r.2.length < cs.length then some ⟨r.1, r.2, h⟩ else none

mutual

/-- Reads one value, spaces before it included. -/
def readValue (depth : Nat) (cs : List Char) : Option (Read Value cs) :=
  have hs := length_skipSpace_le cs
  match hcs : skipSpace cs with
  | [] => none
  | '"' :: rest =>
    match h : readString rest with
    | none => none
    | some r =>
      have := length_lt_of_readString h
      some ⟨.string (String.ofList r.1), r.2, by simp only [hcs, List.length_cons] at hs; omega⟩
  | '[' :: rest =>
    match depth with
    | 0 => none
    | depth + 1 =>
      have hr : rest.length < cs.length := by simp only [hcs, List.length_cons] at hs; omega
      have hk := length_skipSpace_le rest
      match hc : skipSpace rest with
      | ']' :: after =>
        some ⟨.array [], after, by simp only [hc, List.length_cons] at hk; omega⟩
      | _ =>
        match readItems depth rest with
        | none => none
        | some r => some ⟨.array r.value, r.rest, by have := r.shorter; omega⟩
  | '\x7b' :: rest =>
    match depth with
    | 0 => none
    | depth + 1 =>
      have hr : rest.length < cs.length := by simp only [hcs, List.length_cons] at hs; omega
      have hk := length_skipSpace_le rest
      match hc : skipSpace rest with
      | '\x7d' :: after =>
        some ⟨.object [], after, by simp only [hc, List.length_cons] at hk; omega⟩
      | _ =>
        match readFields depth [] rest with
        | none => none
        | some r => some ⟨.object r.value, r.rest, by have := r.shorter; omega⟩
  | c :: rest =>
    match readPlain (c :: rest) with
    | none => none
    | some r => Read.of? cs r
termination_by (cs.length, 0)

/-- Reads the items of a list up to its end; there is at least one. -/
def readItems (depth : Nat) (cs : List Char) : Option (Read (List Value) cs) :=
  match readValue depth cs with
  | none => none
  | some v =>
    have hv := v.shorter
    have hs := length_skipSpace_le v.rest
    match h : skipSpace v.rest with
    | ',' :: rest =>
      have hr : rest.length < cs.length := by simp only [h, List.length_cons] at hs; omega
      match readItems depth rest with
      | none => none
      | some vs => some ⟨v.value :: vs.value, vs.rest, by have := vs.shorter; omega⟩
    | ']' :: rest =>
      some ⟨[v.value], rest, by simp only [h, List.length_cons] at hs; omega⟩
    | _ => none
termination_by (cs.length, 1)

/-- Reads the fields of an object up to its end, after those already read; there is at least
one. -/
def readFields (depth : Nat) (before : List (String × Value)) (cs : List Char) :
    Option (Read (List (String × Value)) cs) :=
  have hs := length_skipSpace_le cs
  match hcs : skipSpace cs with
  | '"' :: rest =>
    match hk : readString rest with
    | none => none
    | some key =>
      have hkey := length_lt_of_readString hk
      have hs2 := length_skipSpace_le key.2
      match hc : skipSpace key.2 with
      | ':' :: after =>
        have ha : after.length < cs.length := by
          simp only [hcs, List.length_cons] at hs
          simp only [hc, List.length_cons] at hs2
          omega
        match readValue depth after with
        | none => none
        | some v =>
          have hv := v.shorter
          have hs3 := length_skipSpace_le v.rest
          let fields := putField (String.ofList key.1) v.value before
          match he : skipSpace v.rest with
          | ',' :: more =>
            have hm : more.length < cs.length := by simp only [he, List.length_cons] at hs3; omega
            match readFields depth fields more with
            | none => none
            | some r => some ⟨r.value, r.rest, by have := r.shorter; omega⟩
          | '\x7d' :: more =>
            some ⟨fields, more, by simp only [he, List.length_cons] at hs3; omega⟩
          | _ => none
      | _ => none
  | _ => none
termination_by (cs.length, 0)

end

/-- The value of a text that is JSON from end to end. -/
def parse? (s : String) : Option Value :=
  match readValue depthLimit s.toList with
  | none => none
  | some r => if (skipSpace r.rest).isEmpty then some r.value else none

end ClientRegen.Json
