import ClientRegen.Document.JsonReader

/-!
# Reading JSON part by part

What a reader answers for a list or an object follows from what it answers for
the parts (`outcome_readValue_array`, `outcome_readValue_object`), whatever was
needed to see that each part is shorter than the whole.
-/

namespace ClientRegen.Json

variable {α : Type} {depth : Nat} {cs more rest : List Char} {v : Value} {vs : List Value}
  {fs before : List (String × Value)} {s : List Char}

/-- What was read, and what follows it. -/
def outcome (r : Option (Read α cs)) : Option (α × List Char) :=
  r.map fun r => (r.value, r.rest)

theorem outcome_eq_some_iff {r : Option (Read α cs)} {a : α} :
    outcome r = some (a, rest) ↔ ∃ h, r = some ⟨a, rest, h⟩ := by
  constructor
  · intro h
    obtain ⟨⟨_, _, shorter⟩, hr, hpair⟩ := Option.map_eq_some_iff.mp h
    cases hpair
    exact ⟨shorter, hr⟩
  · rintro ⟨shorter, rfl⟩
    rfl

/-! ## Values -/

theorem outcome_readValue_string (h : readString cs = some (s, rest)) :
    outcome (readValue depth ('"' :: cs)) = some (.string (String.ofList s), rest) := by
  rw [readValue]
  split
  · rename_i hcs
    cases hcs
  · rename_i hcs
    cases hcs
    split
    · rename_i hnone
      rw [h] at hnone
      cases hnone
    · rename_i r hr
      rw [h] at hr
      cases hr
      rfl
  · rename_i hcs
    cases hcs
  · rename_i hcs
    cases hcs
  · rename_i hcs
    cases hcs
    rename_i hquote _ _
    exact (hquote rfl).elim

/-- A list is read when its items are. -/
theorem outcome_readValue_array (hitem : (skipSpace cs).head? ≠ some ']')
    (h : outcome (readItems depth cs) = some (vs, rest)) :
    outcome (readValue (depth + 1) ('[' :: cs)) = some (.array vs, rest) := by
  obtain ⟨shorter, hr⟩ := outcome_eq_some_iff.mp h
  rw [readValue]
  split
  · rename_i hcs
    cases hcs
  · rename_i hcs
    cases hcs
  · rename_i hcs
    cases hcs
    dsimp only
    split
    · rename_i hc
      exact absurd (congrArg List.head? hc) hitem
    · rw [hr]
      rfl
  · rename_i hcs
    cases hcs
  · rename_i hcs
    cases hcs
    rename_i hbracket _
    exact (hbracket rfl).elim

/-- An object is read when its fields are. -/
theorem outcome_readValue_object (hfield : (skipSpace cs).head? ≠ some '\x7d')
    (h : outcome (readFields depth [] cs) = some (fs, rest)) :
    outcome (readValue (depth + 1) ('\x7b' :: cs)) = some (.object fs, rest) := by
  obtain ⟨shorter, hr⟩ := outcome_eq_some_iff.mp h
  rw [readValue]
  split
  · rename_i hcs
    cases hcs
  · rename_i hcs
    cases hcs
  · rename_i hcs
    cases hcs
  · rename_i hcs
    cases hcs
    dsimp only
    split
    · rename_i hc
      exact absurd (congrArg List.head? hc) hfield
    · rw [hr]
      rfl
  · rename_i hcs
    cases hcs
    rename_i hbrace
    exact (hbrace rfl).elim

/-! ## Items and fields -/

/-- The last item stands before the closing bracket. -/
theorem outcome_readItems_last (h : outcome (readValue depth cs) = some (v, more))
    (hmore : skipSpace more = ']' :: rest) :
    outcome (readItems depth cs) = some ([v], rest) := by
  obtain ⟨shorter, hr⟩ := outcome_eq_some_iff.mp h
  rw [readItems, hr]
  dsimp only
  split
  · rename_i hcomma
    rw [hmore] at hcomma
    cases hcomma
  · rename_i hbracket
    rw [hmore] at hbracket
    cases hbracket
    rfl
  · rename_i hbracket
    exact absurd hmore (hbracket _)

/-- Before a comma stands an item, and more of them come after it. -/
theorem outcome_readItems_cons (h : outcome (readValue depth cs) = some (v, more))
    {after : List Char} (hmore : skipSpace more = ',' :: after)
    (hitems : outcome (readItems depth after) = some (vs, rest)) :
    outcome (readItems depth cs) = some (v :: vs, rest) := by
  obtain ⟨shorter, hr⟩ := outcome_eq_some_iff.mp h
  obtain ⟨_, hitems⟩ := outcome_eq_some_iff.mp hitems
  rw [readItems, hr]
  dsimp only
  split
  · rename_i hcomma
    rw [hmore] at hcomma
    cases hcomma
    rw [hitems]
    rfl
  · rename_i hbracket
    rw [hmore] at hbracket
    cases hbracket
  · rename_i hcomma _
    exact absurd hmore (hcomma _)

/-- What follows the value of a field decides whether there are more. -/
theorem outcome_readFields {after : List Char} (hkey : readString cs = some (s, ':' :: after))
    (hv : outcome (readValue depth after) = some (v, more)) :
    outcome (readFields depth before ('"' :: cs)) =
      match skipSpace more with
      | ',' :: others => outcome (readFields depth (putField (String.ofList s) v before) others)
      | '\x7d' :: rest => some (putField (String.ofList s) v before, rest)
      | _ => none := by
  obtain ⟨shorter, hr⟩ := outcome_eq_some_iff.mp hv
  rw [readFields]
  split
  · rename_i hcs
    cases hcs
    split
    · rename_i hnone
      rw [hkey] at hnone
      cases hnone
    · rename_i r hkey'
      rw [hkey] at hkey'
      cases hkey'
      dsimp only
      split
      · rename_i hc
        cases hc
        rw [hr]
        dsimp only
        split
        · rename_i others hcomma
          simp only [hcomma]
          cases readFields depth (putField (String.ofList s) v before) others <;> rfl
        · rename_i rest hbrace
          simp only [hbrace]
          rfl
        · rename_i hcomma hbrace
          split
          · exact (hcomma _ ‹_›).elim
          · exact (hbrace _ ‹_›).elim
          · rfl
      · rename_i hc
        exact (hc _ rfl).elim
  · rename_i hquote
    exact (hquote _ rfl).elim

/-- The last field stands before the closing brace. -/
theorem outcome_readFields_last {after : List Char} (hkey : readString cs = some (s, ':' :: after))
    (hv : outcome (readValue depth after) = some (v, more))
    (hmore : skipSpace more = '\x7d' :: rest) :
    outcome (readFields depth before ('"' :: cs)) =
      some (putField (String.ofList s) v before, rest) := by
  rw [outcome_readFields hkey hv]
  simp only [hmore]

/-- Any other field stands before a comma and the fields after it. -/
theorem outcome_readFields_cons {after others : List Char}
    (hkey : readString cs = some (s, ':' :: after))
    (hv : outcome (readValue depth after) = some (v, more))
    (hmore : skipSpace more = ',' :: others)
    (hothers : outcome (readFields depth (putField (String.ofList s) v before) others) =
      some (fs, rest)) :
    outcome (readFields depth before ('"' :: cs)) = some (fs, rest) := by
  rw [outcome_readFields hkey hv]
  simpa only [hmore] using hothers

/-- Whether a text holds no quotes, escapes and control characters. -/
def isPlain (s : List Char) : Bool :=
  s.all fun c => c != '"' && c != '\\' && decide (0x20 ≤ c.toNat)

/-- A plain text between quotes is read as it is. -/
theorem readString_plain (h : isPlain s = true) :
    readString (s ++ '"' :: rest) = some (s, rest) := by
  induction s with
  | nil => rfl
  | cons c s ih =>
      simp only [isPlain, List.all_cons, Bool.and_eq_true, bne_iff_ne, decide_eq_true_eq] at h
      obtain ⟨⟨⟨hquote, hescape⟩, hcontrol⟩, hs⟩ := h
      have hrest := ih (by simpa [isPlain] using hs)
      simp [readString, hescape, hcontrol, hrest]

/-- A text is a document when its value is followed by nothing but spaces. -/
theorem parse?_eq_some {text : String}
    (h : outcome (readValue depthLimit text.toList) = some (v, rest))
    (hrest : skipSpace rest = []) : parse? text = some v := by
  obtain ⟨shorter, hr⟩ := outcome_eq_some_iff.mp h
  rw [parse?, hr]
  dsimp only
  rw [hrest]
  rfl

end ClientRegen.Json
