import ClientRegen.Proofs.EnumSource.Patch
import ClientRegen.Proofs.EnumSource.Scanners

/-!
# Slices of a source

The functions that read and patch an enum cut their texts at offsets of bytes
that their scanners found.  Here they are written with every offset checked, so
that they have no result where a byte is read outside the text, or where a text
is cut outside or within a character.  This never happens, and the results are
those of the functions on characters (`rawValues?_eq`, `patch?_eq`).
-/

namespace ClientRegen.EnumSource

open Text (utf8 size slice?)

variable {bytes : List UInt8} {b : UInt8} {c s : Char} {cs before after : List Char}

/-! ## The declaration -/

/-- The offsets between which the body of the first enum stands. -/
def findBody? (source : List Char) : Option (Except SourceFault (Nat × Nat)) :=
  match firstOpening? true source with
  | none => some (.error .noDeclaration)
  | some o =>
    if o.isConstant ≠ o.isAssigned then some (.error .malformedDeclaration)
    else
      let start := size source - size o.rest
      (closingBrace? (utf8 source) start 0).map fun
        | none => .error .unterminated
        | some stop => .ok (start, stop)

/-- **The body is found at the offsets where it stands.** -/
theorem findBody?_eq (source : List Char) :
    findBody? source =
      some ((findDeclaration source).map fun d => (size d.head, size (d.head ++ d.body))) := by
  unfold findBody? findDeclaration
  cases hopening : firstOpening? true source with
  | none => rfl
  | some o =>
      dsimp only
      split_ifs with hkind
      · rfl
      · obtain ⟨before, rfl, -⟩ := firstOpening?_eq_some hopening
        have hassoc : before ++ '\x7b' :: o.rest = (before ++ ['\x7b']) ++ o.rest := by simp
        have hstart :
            size (before ++ '\x7b' :: o.rest) - size o.rest = size (before ++ ['\x7b']) := by
          rw [hassoc, Text.size_append, Nat.add_sub_cancel]
        have hhead : (before ++ '\x7b' :: o.rest).take
            ((before ++ '\x7b' :: o.rest).length - o.rest.length) = before ++ ['\x7b'] := by
          rw [hassoc, List.length_append, Nat.add_sub_cancel, List.take_left]
        have hstands := standsAt_append (before ++ ['\x7b']) o.rest
        rw [← hassoc] at hstands
        rw [hstart, hhead, closingBrace?_of_standsAt hstands]
        cases splitBlock 0 (lexemes o.rest) with
        | none => rfl
        | some r =>
            simp only [Option.map_some, Except.map, Text.size_append]

/-! ## Members -/

/-- The value that a literal stands for. -/
def literalValue? (literal : List Char) : Option (List Char) :=
  let value := Text.trim (skipCast literal)
  let bytes := utf8 value
  if 2 ≤ bytes.length then do
    let first ← bytes[0]?
    if isQuote (Char.ofUInt8 first) then
      let last ← bytes[bytes.length - 1]?
      if last = first then (slice? value 1 (bytes.length - 1)).map unescape else some value
    else some value
  else some value

/-- A member from its text. -/
def member? (text : List Char) : Option (Except SourceFault Member) := do
  match ← separator? (utf8 text) 0 with
  | none => return .error (.noValue (String.ofList text))
  | some split =>
    let before ← slice? text 0 split
    let after ← slice? text (split + 1) (size text)
    let key := Text.trim before
    let literal := Text.trim after
    if key = [] ∨ literal = [] then return .error (.malformedMember (String.ofList text))
    else
      let raw ← literalValue? literal
      let separator ← (utf8 text)[split]?
      return .ok ⟨key, Char.ofUInt8 separator, literal, raw⟩

/-- Members from their texts, up to the first that cannot be read. -/
def readMembers? : List (List Char) → Option (Except SourceFault (List Member))
  | [] => some (.ok [])
  | text :: texts => do
    match ← member? text with
    | .error f => return .error f
    | .ok member =>
      match ← readMembers? texts with
      | .error f => return .error f
      | .ok ms => return .ok (member :: ms)

/-- The members of a body. -/
def members? (body : List Char) : Option (Except SourceFault (List Member)) := do
  let texts ← copyPieces? body 0 [] []
  readMembers? ((texts.map Text.trim).filter (· ≠ []))

/-- The values of the first enum of a source. -/
def rawValues? (source : List Char) : Option (Except SourceFault (List (List Char))) := do
  match ← findBody? source with
  | .error f => return .error f
  | .ok (start, stop) =>
    let body ← slice? source start stop
    match ← members? body with
    | .error f => return .error f
    | .ok ms => return .ok (ms.map (·.raw))

/-- The indentation of members. -/
def memberIndent? (body : List Char) : Option (List Char) :=
  match (Text.lines body).find? fun line => isMemberLine (Text.trimStart line) with
  | some line =>
    if size (Text.trimStart line) ≤ size line then
      slice? line 0 (size line - size (Text.trimStart line))
    else none
  | none => some [' ', ' ', ' ', ' ']

/-- The offset behind the last line feed of a text. -/
def lineStart (cs : List Char) : Nat :=
  match (utf8 cs).reverse.findIdx? (Char.ofUInt8 · = '\n') with
  | some k => (utf8 cs).length - k
  | none => 0

/-- The blanks before a closing brace. -/
def closingIndent? (source : List Char) (stop : Nat) : Option (List Char) := do
  let front ← slice? source 0 stop
  let line ← slice? source (lineStart front) stop
  return if Text.allBlank line then line else []

/-- A source whose enum carries the labels and names of a schema. -/
def patch? (source : List Char) (m : EnumMetadata) : Option (Except SourceFault (List Char)) := do
  match ← findBody? source with
  | .error f => return .error f
  | .ok (start, stop) =>
    let body ← slice? source start stop
    match ← members? body with
    | .error f => return .error f
    | .ok ms =>
      match valueFault? m ms with
      | some f => return .error f
      | none =>
        let indent ← memberIndent? body
        let trailing ← trailingComma? (utf8 body)
        match renderMembers m indent trailing ms with
        | .error f => return .error f
        | .ok text =>
          let closing ← closingIndent? source stop
          let head ← slice? source 0 start
          let tail ← slice? source stop (size source)
          let patched := head ++ '\n' :: text ++ closing ++ tail
          match ← rawValues? patched with
          | .error f => return .error f
          | .ok after =>
            return if ms.map (·.raw) = after then .ok patched else .error (.changed m.typeName)

/-! ## Nothing is cut amiss -/

/-- **The indentation is cut at the end of a character.** -/
theorem memberIndent?_eq (body : List Char) : memberIndent? body = some (memberIndent body) := by
  unfold memberIndent? memberIndent
  cases (Text.lines body).find? fun line => isMemberLine (Text.trimStart line) with
  | none => rfl
  | some line =>
      have hline : line.takeWhile Text.isBlank ++ Text.trimStart line = line :=
        List.takeWhile_append_dropWhile
      have hsize : size line = size (line.takeWhile Text.isBlank) + size (Text.trimStart line) := by
        rw [← Text.size_append, hline]
      have hslice := Text.slice?_front (line.takeWhile Text.isBlank) (Text.trimStart line)
      rw [hline] at hslice
      dsimp only
      rw [if_pos (by omega), hsize, Nat.add_sub_cancel, hslice]

/-- The last line of a text starts behind its last line feed. -/
theorem lineStart_append {line : List Char} (hline : '\n' ∉ line)
    (hbefore : before = [] ∨ before.getLast? = some '\n') :
    lineStart (before ++ line) = size before := by
  have hnone : (utf8 line).reverse.findIdx? (Char.ofUInt8 · = '\n') = none := by
    rw [List.findIdx?_eq_none_iff]
    intro b hb
    obtain ⟨c, hc, hb⟩ := List.mem_flatMap.mp (List.mem_reverse.mp hb)
    have hne : c ≠ '\n' := by
      rintro rfl
      exact hline hc
    simpa using (ofUInt8_eq_iff_of_mem (by decide) hb).not.mpr hne
  have hreverse :
      (utf8 (before ++ line)).reverse = (utf8 line).reverse ++ (utf8 before).reverse := by
    rw [Text.utf8_append, List.reverse_append]
  rw [lineStart, hreverse, List.findIdx?_append, hnone, Option.none_or]
  rcases hbefore with rfl | hlast
  · rfl
  · obtain ⟨init, rfl⟩ := List.getLast?_eq_some_iff.mp hlast
    have hfirst : ((utf8 (init ++ ['\n'])).reverse.findIdx? (Char.ofUInt8 · = '\n')) = some 0 := by
      rw [Text.utf8_append, List.reverse_append]
      rfl
    rw [hfirst]
    simp only [Option.map_some, List.length_reverse, Text.length_utf8, Text.size_append]
    omega

/-- So is the last line before a closing brace. -/
theorem closingIndent?_append (before after : List Char) :
    closingIndent? (before ++ after) (size before) = some (closingIndent before) := by
  let line := (before.reverse.takeWhile (· ≠ '\n')).reverse
  let front := (before.reverse.dropWhile (· ≠ '\n')).reverse
  have hbefore : front ++ line = before := by
    rw [← List.reverse_append, List.takeWhile_append_dropWhile, List.reverse_reverse]
  have hline : '\n' ∉ line := by
    intro hmem
    have hall := List.all_takeWhile (p := (· ≠ '\n')) (l := before.reverse)
    exact absurd (List.all_eq_true.mp hall _ (List.mem_reverse.mp hmem)) (by simp)
  have hfront : front = [] ∨ front.getLast? = some '\n' := by
    rw [List.getLast?_reverse, List.reverse_eq_nil_iff, ← List.head?_eq_none_iff]
    have hhead := List.head?_dropWhile_not (· ≠ '\n') before.reverse
    cases hfirst : (before.reverse.dropWhile (· ≠ '\n')).head? with
    | none => exact Or.inl rfl
    | some c =>
        rw [hfirst] at hhead
        exact Or.inr (congrArg some (by simpa using hhead))
  have hstart : lineStart before = size front := by
    rw [← hbefore, lineStart_append hline hfront]
  have hslice := Text.slice?_append front line after
  rw [hbefore] at hslice
  simp only [closingIndent?, Text.slice?_front, Option.bind_eq_bind, Option.bind_some, hstart,
    hslice]
  rfl

/-- The last byte of a text is one of its last character. -/
theorem exists_getLast_byte (cs : List Char) (c : Char) :
    ∃ b, (utf8 (cs ++ [c]))[(utf8 (cs ++ [c])).length - 1]? = some b ∧
      b ∈ String.utf8EncodeChar c := by
  obtain ⟨b, hb, hmem⟩ := exists_getLast?_eq c
  refine ⟨b, ?_, hmem⟩
  rw [← List.getLast?_eq_getElem?, Text.utf8_append, Text.utf8_cons, Text.utf8_nil,
    List.append_nil, List.getLast?_append, hb, Option.some_or]

/-- A single character of two bytes or more is no quote. -/
theorem not_isQuote_of_two_le (hmem : b ∈ String.utf8EncodeChar c)
    (hlength : 2 ≤ (utf8 [c]).length) : ¬ isQuote (Char.ofUInt8 b) := by
  intro hquote
  rw [isQuote_iff_of_mem hmem] at hquote
  rw [Text.length_utf8, Text.size_cons, Text.size_nil,
    Text.utf8Size_eq_one (isQuote_lt hquote)] at hlength
  omega

/-- Bytes of two characters, one of which is a quote, are the same just when the
characters are. -/
theorem byte_eq_iff_of_isQuote {z : Char} {b' : UInt8} (hquote : isQuote c = true)
    (hmem : b ∈ String.utf8EncodeChar c) (hmem' : b' ∈ String.utf8EncodeChar z) :
    b' = b ↔ z = c := by
  have hchar : Char.ofUInt8 b = c :=
    (ofUInt8_eq_iff_of_mem (isQuote_lt hquote) hmem).mpr rfl
  rw [← Text.ofUInt8_inj, hchar, ofUInt8_eq_iff_of_mem (isQuote_lt hquote) hmem']

/-- What stands between quotes can be cut out. -/
theorem slice?_between_quotes {q : Char} (hquote : isQuote q = true) (t : List Char) :
    slice? (q :: (t ++ [q])) 1 ((utf8 (q :: (t ++ [q]))).length - 1) = some t := by
  have hone := Text.utf8Size_eq_one (isQuote_lt hquote)
  have hstart : size [q] = 1 := by simp [hone]
  have hend : (utf8 (q :: (t ++ [q]))).length - 1 = size ([q] ++ t) := by
    simp [hone, Nat.add_comm]
  rw [hend, ← hstart]
  exact Text.slice?_append [q] t [q]

/-- The quotes around a literal are single bytes, so its value is cut out between characters. -/
theorem literalValue?_eq (literal : List Char) :
    literalValue? literal = some (rawOf literal) := by
  unfold literalValue? rawOf
  generalize Text.trim (skipCast literal) = value
  cases value with
  | nil => rfl
  | cons c value =>
      obtain ⟨b, hb, hmem⟩ := (standsAt_zero (c :: value)).exists_getElem?_eq
      have hb : (utf8 (c :: value))[0]? = some b := hb
      rcases List.eq_nil_or_concat value with rfl | ⟨init, z, rfl⟩
      · simp only [hb, Option.bind_eq_bind, Option.bind_some]
        split_ifs with hlength hquote
        · exact absurd hquote (not_isQuote_of_two_le hmem hlength)
        · rfl
        · rfl
      · rw [List.concat_eq_append] at hb ⊢
        obtain ⟨b', hb', hmem'⟩ := exists_getLast_byte (c :: init) z
        rw [List.cons_append] at hb'
        have hlength : 2 ≤ (utf8 (c :: (init ++ [z]))).length := by
          have hc := c.utf8Size_pos
          have hz := z.utf8Size_pos
          rw [Text.length_utf8, Text.size_cons, Text.size_append, Text.size_cons]
          omega
        obtain ⟨d, rest, hrest⟩ := List.exists_cons_of_ne_nil (show init ++ [z] ≠ [] by simp)
        have hlast : (d :: rest).getLast? = some z := by rw [← hrest, List.getLast?_concat]
        have hinit : (d :: rest).dropLast = init := by rw [← hrest, List.dropLast_concat]
        simp only [if_pos hlength, hb, hb', Option.bind_eq_bind, Option.bind_some,
          isQuote_iff_of_mem hmem]
        by_cases hquote : isQuote c
        · have hsame := byte_eq_iff_of_isQuote hquote hmem hmem'
          rw [if_pos hquote]
          by_cases hz : z = c
          · subst hz
            rw [if_pos (hsame.mpr rfl), slice?_between_quotes hquote, hrest]
            simp [hquote, hlast, hinit]
          · rw [if_neg (hsame.not.mpr hz), hrest]
            simp [hlast, hz]
        · rw [if_neg hquote, hrest]
          simp [hquote]

/-- A text is parted at an equals sign or a colon. -/
theorem splitSeparator?_eq_some (h : splitSeparator? cs = some (before, s, after)) :
    cs = before ++ s :: after ∧ (s = '=' ∨ s = ':') := by
  fun_induction splitSeparator? cs generalizing before with
  | case1 => cases h
  | case2 c cs hquote hle ih =>
      obtain ⟨⟨front, r⟩, hsplit, heq⟩ := Option.map_eq_some_iff.mp h
      obtain ⟨rfl, rfl⟩ := Prod.mk.inj heq
      obtain ⟨hrest, hs⟩ := ih hsplit
      refine ⟨?_, hs⟩
      rw [List.append_assoc, ← hrest, List.cons_append, splitLiteral_append]
  | case3 c cs hquote hseparator =>
      cases h
      exact ⟨rfl, hseparator⟩
  | case4 c cs hquote hseparator ih =>
      obtain ⟨⟨front, r⟩, hsplit, heq⟩ := Option.map_eq_some_iff.mp h
      obtain ⟨rfl, rfl⟩ := Prod.mk.inj heq
      obtain ⟨rfl, hs⟩ := ih hsplit
      exact ⟨rfl, hs⟩

/-- A member is cut at its separator, which is a single byte. -/
theorem member?_eq (text : List Char) : member? text = some (Member.ofText text) := by
  unfold member? Member.ofText
  rw [separator?_of_standsAt (standsAt_zero text)]
  cases hsplit : splitSeparator? text with
  | none => rfl
  | some r =>
      obtain ⟨before, separator, after⟩ := r
      obtain ⟨rfl, hseparator⟩ := splitSeparator?_eq_some hsplit
      have hone : separator.utf8Size = 1 := by
        rcases hseparator with rfl | rfl <;> rfl
      have hstands := standsAt_append before (separator :: after)
      obtain ⟨b, hb, hmem⟩ := hstands.exists_getElem?_eq
      have hfront := Text.slice?_front before (separator :: after)
      have hback := Text.slice?_back (before ++ [separator]) after
      have hchar : Char.ofUInt8 b = separator :=
        (ofUInt8_eq_iff_of_mem (by rcases hseparator with rfl | rfl <;> decide) hmem).mpr rfl
      rw [List.append_assoc, List.singleton_append, Text.size_append, Text.size_cons,
        Text.size_nil, hone] at hback
      simp only [Option.map_some, Option.bind_eq_bind, Option.bind_some, Nat.zero_add, hfront,
        hback]
      split_ifs with hempty
      · rfl
      · simp only [literalValue?_eq, hb, hchar, Option.bind_some]
        rfl

/-- Members that are cut one after another are those that are read one after another. -/
theorem readMembers?_eq (texts : List (List Char)) :
    readMembers? texts = some (texts.mapM Member.ofText) := by
  induction texts with
  | nil => rfl
  | cons text texts ih =>
      rw [readMembers?, member?_eq, ih, List.mapM_cons]
      cases Member.ofText text with
      | error f => rfl
      | ok member => cases texts.mapM Member.ofText <;> rfl

/-- The members of a body are cut where it is read. -/
theorem members?_eq (body : List Char) : members? body = some (members body) := by
  rw [members?, copyPieces?_zero]
  exact readMembers?_eq _

/-- The values of a source are read from the body that is cut out of it. -/
theorem rawValues?_eq (source : List Char) : rawValues? source = some (rawValues source) := by
  unfold rawValues? rawValues
  rw [findBody?_eq]
  cases hfind : findDeclaration source with
  | error f => rfl
  | ok d =>
      obtain ⟨hsource, -, -⟩ := findDeclaration_spec hfind
      have hslice := Text.slice?_append d.head d.body d.tail
      rw [← hsource] at hslice
      simp only [Except.map, bind, Except.bind, Option.bind_some, hslice, members?_eq]
      cases members d.body <;> rfl

/-- **A patch never cuts amiss,** whatever source and schema it is given. -/
theorem patch?_eq (source : List Char) (m : EnumMetadata) :
    patch? source m = some (patch source m) := by
  unfold patch? patch
  rw [findBody?_eq]
  cases hfind : findDeclaration source with
  | error f => rfl
  | ok d =>
      obtain ⟨hsource, -, -⟩ := findDeclaration_spec hfind
      have hslice := Text.slice?_append d.head d.body d.tail
      have hclosing := closingIndent?_append (d.head ++ d.body) d.tail
      have hhead := Text.slice?_front d.head (d.body ++ d.tail)
      have htail := Text.slice?_back (d.head ++ d.body) d.tail
      rw [← List.append_assoc] at hhead
      rw [← hsource] at hslice hclosing hhead htail
      simp only [Except.map, bind, Except.bind, Option.bind_some, hslice, members?_eq]
      cases members d.body with
      | error f => rfl
      | ok ms =>
          dsimp only
          cases valueFault? m ms with
          | some f => rfl
          | none =>
              simp only [memberIndent?_eq, trailingComma?_utf8, Option.bind_some]
              cases renderMembers m (memberIndent d.body) (hasTrailingComma d.body) ms with
              | error f => rfl
              | ok text =>
                  simp only [hclosing, hhead, htail, rawValues?_eq, Option.bind_some]
                  cases rawValues (d.head ++ '\n' :: text ++ closingIndent (d.head ++ d.body) ++
                    d.tail) <;> rfl

/-- A scanner goes on behind an offset, and not past the end of the bytes. -/
def GetsOn (skip : List UInt8 → Nat → Option Nat) (bytes : List UInt8) (index : Nat) : Prop :=
  ∃ stop, skip bytes index = some stop ∧ index < stop ∧ stop ≤ bytes.length

/-- **No offset leads astray.**  Strings and comments end behind their starts and
within the bytes, whatever these are, and so does all that a scanner meets.  In
every text the offsets that are found can be read and cut at, so each function
with checked offsets has a result, which is that of the function on
characters. -/
theorem offsets_are_sound :
    (∀ bytes index, index < bytes.length → GetsOn skipString? bytes index) ∧
      (∀ bytes index, bytes[index]?.map Char.ofUInt8 = some '/' → GetsOn skipLine? bytes index) ∧
      (∀ bytes index, index + 2 ≤ bytes.length → GetsOn skipBlock? bytes index) ∧
      (∀ bytes index, index < bytes.length → ∃ mark, meet? bytes index = some mark ∧
        mark.start = index ∧ index < mark.stop ∧ mark.stop ≤ bytes.length) ∧
      (∀ source, findBody? source =
        some ((findDeclaration source).map fun d => (size d.head, size (d.head ++ d.body)))) ∧
      (∀ body, copyPieces? body 0 [] [] = some (memberTexts (lexemes body))) ∧
      (∀ text, member? text = some (Member.ofText text)) ∧
      (∀ literal, literalValue? literal = some (rawOf literal)) ∧
      (∀ body, memberIndent? body = some (memberIndent body)) ∧
      (∀ body, trailingComma? (utf8 body) = some (hasTrailingComma body)) ∧
      (∀ before after, closingIndent? (before ++ after) (size before) =
        some (closingIndent before)) ∧
      (∀ source, rawValues? source = some (rawValues source)) ∧
      ∀ source m, patch? source m = some (patch source m) :=
  ⟨fun _ _ => skipString?_bounds, fun _ _ => skipLine?_bounds, fun _ _ => skipBlock?_bounds,
    fun _ _ => exists_meet?, findBody?_eq, copyPieces?_zero, member?_eq, literalValue?_eq,
    memberIndent?_eq, trailingComma?_utf8, closingIndent?_append, rawValues?_eq, patch?_eq⟩

/-- A string and comments that are never closed; a backslash in the string takes
along the first of the two bytes of a character. -/
theorem offsets_are_sound_unclosed :
    GetsOn skipString? (utf8 ['\'', '\\', 'é']) 0 ∧ GetsOn skipLine? (utf8 ['/', '/', 'é']) 0 ∧
      GetsOn skipBlock? (utf8 ['/', '*', 'é']) 0 := by
  obtain ⟨hstring, hline, hblock, -⟩ := offsets_are_sound
  exact ⟨hstring _ 0 (by decide), hline _ 0 (by decide), hblock _ 0 (by decide)⟩

end ClientRegen.EnumSource
