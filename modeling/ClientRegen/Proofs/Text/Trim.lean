import ClientRegen.Text.Blank

/-!
# Trimming

Trimming takes blanks off the two ends of a text and nothing else.  A text
that begins and ends with something other than a blank is `Tight`: such a text
comes back unchanged when it is trimmed, whatever blanks were put around it
(`Tight.trim_between`), and what trimming leaves is tight unless it is nothing
(`tight_trim`).
-/

namespace ClientRegen.Text

variable {a b t : List Char} {c : Char}

@[simp] theorem allBlank_nil : allBlank [] = true := rfl

@[simp] theorem allBlank_cons : allBlank (c :: t) = (isBlank c && allBlank t) := rfl

@[simp] theorem allBlank_append : allBlank (a ++ b) = (allBlank a && allBlank b) := by
  simp [allBlank]

/-- Every character of a blank text is a blank. -/
theorem isBlank_of_allBlank (h : allBlank t = true) (hc : c ∈ t) : isBlank c = true :=
  List.all_eq_true.mp h c hc

/-- Blanks in front do not change what is left of a text. -/
theorem trimStart_append_of_blank (ha : allBlank a = true) :
    trimStart (a ++ t) = trimStart t :=
  List.dropWhile_append_of_pos fun _ hc => isBlank_of_allBlank ha hc

/-- Nothing is dropped in front of a character that is not a blank. -/
theorem trimStart_cons_of_not_blank (hc : isBlank c = false) :
    trimStart (c :: t) = c :: t := by
  simp [trimStart, hc]

/-- A blank text in front of a character that is not a blank is what is
dropped. -/
theorem trimStart_append_cons (ha : allBlank a = true) (hc : isBlank c = false) :
    trimStart (a ++ c :: t) = c :: t := by
  rw [trimStart_append_of_blank ha, trimStart_cons_of_not_blank hc]

/-- What is dropped at the start is blank. -/
theorem exists_append_trimStart (t : List Char) :
    ∃ a, allBlank a = true ∧ t = a ++ trimStart t :=
  ⟨t.takeWhile isBlank, List.all_takeWhile, List.takeWhile_append_dropWhile.symm⟩

/-- What is left at the start is not a blank. -/
theorem isBlank_head_trimStart (h : c ∈ (trimStart t).head?) : isBlank c = false := by
  have hnot := List.head?_dropWhile_not isBlank t
  rw [show t.dropWhile isBlank = trimStart t from rfl, Option.mem_def.mp h] at hnot
  simpa using hnot

theorem trimEnd_eq_nil_iff : trimEnd t = [] ↔ allBlank t = true := by
  induction t with
  | nil => simp [trimEnd]
  | cons c t ih =>
      cases hrest : trimEnd t with
      | nil => by_cases hc : isBlank c <;> simp [trimEnd, hrest, hc, ih.mp hrest]
      | cons d ds =>
          have : ¬ allBlank t = true := fun h => by simp [ih.mpr h] at hrest
          simp [trimEnd, hrest, this]

/-- Nothing is dropped up to a character that is not a blank. -/
theorem trimEnd_append_cons (hc : isBlank c = false) :
    trimEnd (a ++ c :: b) = a ++ c :: trimEnd b := by
  induction a with
  | nil => cases hb : trimEnd b <;> simp [trimEnd, hb, hc]
  | cons x a ih => cases a <;> simp_all [trimEnd]

/-- Blanks behind do not change what is left of a text. -/
theorem trimEnd_append_of_blank (hb : allBlank b = true) :
    trimEnd (a ++ b) = trimEnd a := by
  induction a with
  | nil => simpa [trimEnd] using trimEnd_eq_nil_iff.mpr hb
  | cons x a ih => simp [trimEnd, ih]

/-- What is dropped at the end is blank. -/
theorem exists_append_trimEnd (t : List Char) :
    ∃ b, allBlank b = true ∧ t = trimEnd t ++ b := by
  induction t with
  | nil => exact ⟨[], rfl, rfl⟩
  | cons c t ih =>
      obtain ⟨b, hb, ht⟩ := ih
      cases hrest : trimEnd t with
      | nil =>
          have hblank : allBlank t = true := trimEnd_eq_nil_iff.mp hrest
          by_cases hc : isBlank c
          · exact ⟨c :: t, by simp [hc, hblank], by simp [trimEnd, hrest, hc]⟩
          · exact ⟨t, hblank, by simp [trimEnd, hrest, hc]⟩
      | cons d ds =>
          refine ⟨b, hb, ?_⟩
          have hkept : trimEnd (c :: t) = c :: trimEnd t := by simp [trimEnd, hrest]
          rw [hkept, List.cons_append, ← ht]

/-- What is left at the end is not a blank. -/
theorem isBlank_getLast_trimEnd (h : c ∈ (trimEnd t).getLast?) : isBlank c = false := by
  induction t with
  | nil => simp [trimEnd] at h
  | cons x t ih =>
      cases hrest : trimEnd t with
      | nil =>
          by_cases hx : isBlank x
          · simp [trimEnd, hrest, hx] at h
          · simp only [trimEnd, hrest, if_neg hx, List.getLast?_singleton, Option.mem_def,
              Option.some.injEq] at h
            simpa [← h] using hx
      | cons d ds =>
          refine ih ?_
          simpa [trimEnd, hrest, List.getLast?_cons_cons] using h

/-- What is left at the end of a text is part of it. -/
theorem mem_of_mem_trimEnd (h : c ∈ trimEnd t) : c ∈ t := by
  obtain ⟨b, -, ht⟩ := exists_append_trimEnd t
  rw [ht]
  exact List.mem_append_left b h

/-- A text is the blanks that trimming drops around what it leaves. -/
theorem exists_append_trim (t : List Char) :
    ∃ a b, allBlank a = true ∧ allBlank b = true ∧ t = a ++ trim t ++ b := by
  obtain ⟨a, ha, hstart⟩ := exists_append_trimStart t
  obtain ⟨b, hb, hend⟩ := exists_append_trimEnd (trimStart t)
  refine ⟨a, b, ha, hb, ?_⟩
  rw [List.append_assoc]
  exact hstart.trans (congrArg (a ++ ·) hend)

/-- Blanks at the start do not change what trimming leaves. -/
theorem trim_append_left (ha : allBlank a = true) : trim (a ++ t) = trim t := by
  rw [trim, trimStart_append_of_blank ha, trim]

/-- Trimming a text that holds something other than blanks trims what stands
on either side of it. -/
theorem trim_append_cons (hc : isBlank c = false) :
    trim (a ++ c :: b) = trimStart a ++ c :: trimEnd b := by
  obtain ⟨x, hx, ha⟩ := exists_append_trimStart a
  have hstart : trimStart (a ++ c :: b) = trimStart a ++ c :: b := by
    cases htail : trimStart a with
    | nil =>
        rw [htail, List.append_nil] at ha
        rw [List.nil_append, ha, trimStart_append_cons hx hc]
    | cons d ds =>
        have hd : isBlank d = false := isBlank_head_trimStart (t := a) (by simp [htail])
        rw [htail] at ha
        rw [ha, List.append_assoc, List.cons_append, trimStart_append_cons hx hd]
  rw [trim, hstart, trimEnd_append_cons hc]

/-- Blanks at the end do not change what trimming leaves. -/
theorem trim_append_right (hb : allBlank b = true) : trim (t ++ b) = trim t := by
  obtain ⟨a, ha, hstart⟩ := exists_append_trimStart t
  cases htail : trimStart t with
  | nil =>
      rw [htail, List.append_nil] at hstart
      subst hstart
      have hboth : trimStart (t ++ b) = [] := by
        rw [trimStart_append_of_blank ha]
        simpa [trimStart] using trimStart_append_of_blank (t := []) hb
      rw [trim, trim, hboth, htail]
  | cons d ds =>
      have hd : isBlank d = false := isBlank_head_trimStart (t := t) (by simp [htail])
      rw [htail] at hstart
      rw [hstart, List.append_assoc, List.cons_append, trim, trim,
        trimStart_append_cons ha hd, trimStart_append_cons ha hd, ← List.cons_append,
        trimEnd_append_of_blank hb]

/-- Trimming leaves nothing exactly of a blank text. -/
theorem trim_eq_nil_iff : trim t = [] ↔ allBlank t = true := by
  obtain ⟨a, ha, hstart⟩ := exists_append_trimStart t
  rw [trim, trimEnd_eq_nil_iff]
  constructor
  · intro h
    rw [hstart, allBlank_append, ha, h, Bool.and_self]
  · intro h
    rw [hstart, allBlank_append] at h
    exact (Bool.and_eq_true_iff.mp h).2

/-- A text that begins and ends with something other than a blank. -/
structure Tight (t : List Char) : Prop where
  /-- The text holds something. -/
  ne_nil : t ≠ []
  /-- It does not begin with a blank. -/
  head : ∀ c ∈ t.head?, isBlank c = false
  /-- It does not end with a blank. -/
  last : ∀ c ∈ t.getLast?, isBlank c = false

/-- A tight text comes back from between blanks. -/
theorem Tight.trim_between (h : Tight t) (ha : allBlank a = true) (hb : allBlank b = true) :
    trim (a ++ t ++ b) = t := by
  rw [trim_append_right hb, trim_append_left ha]
  obtain ⟨x, c, rfl⟩ := List.eq_nil_or_concat t |>.resolve_left h.ne_nil
  have hc : isBlank c = false := h.last c (by simp)
  have hx : trimStart x = x := by
    cases x with
    | nil => rfl
    | cons d ds => exact trimStart_cons_of_not_blank (h.head d (by simp))
  rw [List.concat_eq_append, trim_append_cons hc, hx]
  rfl

theorem Tight.trim_eq (h : Tight t) : trim t = t := by
  simpa using h.trim_between allBlank_nil allBlank_nil

/-- What trimming leaves is tight, unless it is nothing. -/
theorem tight_trim (h : trim t ≠ []) : Tight (trim t) where
  ne_nil := h
  head := by
    intro c hc
    obtain ⟨b, -, hend⟩ := exists_append_trimEnd (trimStart t)
    refine isBlank_head_trimStart (t := t) ?_
    have hhead : (trim t).head? = some c := hc
    rw [hend, show trimEnd (trimStart t) = trim t from rfl, List.head?_append, hhead]
    rfl
  last := fun _ => isBlank_getLast_trimEnd

end ClientRegen.Text
