import ClientRegen.Spec.Search

/-!
# Documents that references lead to

A search goes from document to document along the references in them.  The list
that it makes of a document holds what a reader would call its references
(`mem_references_iff`), and the documents that it goes on to are those files
that they name (`mem_referredDocuments_iff`).  So it never leaves the documents
that can be reached from the root (`Reachable`).
-/

namespace ClientRegen

variable {w : World} {root p q : Path} {v : Value} {text : String}

/-! ## References in a value -/

/-- A text stands under a reference key somewhere in a value, and not below
another reference key. -/
inductive HasReference (text : String) : Value → Prop where
  /-- The value is an object with the text under its reference key. -/
  | key {fields : List (String × Value)} (h : ("$ref", .string text) ∈ fields) :
      HasReference text (.object fields)
  /-- The text is a reference in what stands under another key. -/
  | field {fields : List (String × Value)} {key : String} {v : Value} (h : (key, v) ∈ fields)
      (hkey : key ≠ "$ref") (hv : HasReference text v) : HasReference text (.object fields)
  /-- The text is a reference in an item. -/
  | item {items : List Value} {v : Value} (h : v ∈ items) (hv : HasReference text v) :
      HasReference text (.array items)

/-- The references in fields are the texts under reference keys and the references in the others. -/
theorem fieldReferences_eq (fields : List (String × Value)) :
    fieldReferences fields = fields.flatMap fun e =>
      if e.1 = "$ref" then e.2.string?.toList else references e.2 := by
  induction fields with
  | nil => rw [fieldReferences, List.flatMap_nil]
  | cons e fields ih =>
      obtain ⟨key, v⟩ := e
      rw [fieldReferences, List.flatMap_cons, ih]

/-- The references in items are those of each item. -/
theorem itemReferences_eq (items : List Value) :
    itemReferences items = items.flatMap references := by
  induction items with
  | nil => rw [itemReferences, List.flatMap_nil]
  | cons v items ih => rw [itemReferences, List.flatMap_cons, ih]

/-- Every reference is on the list. -/
theorem mem_references_of_hasReference (h : HasReference text v) : text ∈ references v := by
  induction h with
  | key h =>
      rw [references, fieldReferences_eq, List.mem_flatMap]
      exact ⟨_, h, by simp [Value.string?]⟩
  | field h hkey _ ih =>
      rw [references, fieldReferences_eq, List.mem_flatMap]
      exact ⟨_, h, by rwa [if_neg hkey]⟩
  | item h _ ih =>
      rw [references, itemReferences_eq, List.mem_flatMap]
      exact ⟨_, h, ih⟩

/-- Only a text has a text. -/
theorem eq_string_of_string? (h : v.string? = some text) : v = .string text := by
  cases v with
  | string s =>
      cases h
      rfl
  | null | bool | number | array | object => cases h

mutual

/-- Whatever is on the list is a reference. -/
theorem hasReference_of_mem_references {v : Value} (h : text ∈ references v) :
    HasReference text v := by
  match v with
  | .object fields =>
      rw [references] at h
      obtain ⟨hkey⟩ | ⟨key, v, hv, hkey, href⟩ := exists_of_mem_fieldReferences h
      · exact .key hkey
      · exact .field hv hkey href
  | .array items =>
      rw [references] at h
      obtain ⟨v, hv, href⟩ := exists_of_mem_itemReferences h
      exact .item hv href
  | .null | .bool _ | .number _ | .string _ => simp [references] at h

/-- What is listed for fields stands under a reference key, or in what stands under another key. -/
theorem exists_of_mem_fieldReferences {fields : List (String × Value)}
    (h : text ∈ fieldReferences fields) :
    ("$ref", .string text) ∈ fields ∨
      ∃ key v, (key, v) ∈ fields ∧ key ≠ "$ref" ∧ HasReference text v := by
  match fields with
  | [] => simp [fieldReferences] at h
  | (key, v) :: fields =>
      rw [fieldReferences, List.mem_append] at h
      rcases h with h | h
      · by_cases hkey : key = "$ref"
        · subst hkey
          rw [if_pos rfl, Option.mem_toList] at h
          obtain rfl := eq_string_of_string? h
          exact Or.inl List.mem_cons_self
        · rw [if_neg hkey] at h
          exact Or.inr ⟨key, v, List.mem_cons_self, hkey, hasReference_of_mem_references h⟩
      · rcases exists_of_mem_fieldReferences h with hmem | ⟨key', v', hv', hkey', href⟩
        · exact Or.inl (List.mem_cons_of_mem _ hmem)
        · exact Or.inr ⟨key', v', List.mem_cons_of_mem _ hv', hkey', href⟩

/-- What is listed for items stands in one of them. -/
theorem exists_of_mem_itemReferences {items : List Value} (h : text ∈ itemReferences items) :
    ∃ v ∈ items, HasReference text v := by
  match items with
  | [] => simp [itemReferences] at h
  | v :: items =>
      rw [itemReferences, List.mem_append] at h
      rcases h with h | h
      · exact ⟨v, List.mem_cons_self, hasReference_of_mem_references h⟩
      · obtain ⟨v', hv', href⟩ := exists_of_mem_itemReferences h
        exact ⟨v', List.mem_cons_of_mem _ hv', href⟩

end

/-- **The list of references holds just the references.** -/
theorem mem_references_iff : text ∈ references v ↔ HasReference text v :=
  ⟨hasReference_of_mem_references, mem_references_of_hasReference⟩

/-! ## Documents that can be reached -/

/-- The documents that a document refers to are the files that its references
name. -/
theorem mem_referredDocuments_iff : q ∈ referredDocuments w p v ↔
    ∃ text, HasReference text v ∧ (Reference.ofText text).file ≠ "" ∧
      (Reference.ofText text).document p = q ∧ w.isFile q = true := by
  simp only [referredDocuments, List.mem_filter, List.mem_map, decide_eq_true_eq]
  constructor
  · intro h
    obtain ⟨⟨r, ⟨⟨text, htext, rfl⟩, hfile⟩, rfl⟩, hthere⟩ := h
    exact ⟨text, mem_references_iff.mp htext, hfile, rfl, hthere⟩
  · intro h
    obtain ⟨text, htext, hfile, rfl, hthere⟩ := h
    exact ⟨⟨_, ⟨⟨text, mem_references_iff.mpr htext, rfl⟩, hfile⟩, rfl⟩, hthere⟩

/-- A document can be reached from the root: it is the root, or a file that a
reference in a document names which can be reached. -/
inductive Reachable (w : World) (root : Path) : Path → Prop where
  /-- The root itself. -/
  | root : Reachable w root root
  /-- A file that a reference names. -/
  | referred {p : Path} {v : Value} {text : String} (h : Reachable w root p)
      (hread : readDocument w p = .ok v) (htext : HasReference text v)
      (hfile : (Reference.ofText text).file ≠ "")
      (hthere : w.isFile ((Reference.ofText text).document p) = true) :
      Reachable w root ((Reference.ofText text).document p)

/-- A search that goes on from a document that can be reached stays among these. -/
theorem Reachable.of_mem_referredDocuments (h : Reachable w root p)
    (hread : readDocument w p = .ok v) (hq : q ∈ referredDocuments w p v) :
    Reachable w root q := by
  obtain ⟨text, htext, hfile, rfl, hthere⟩ := mem_referredDocuments_iff.mp hq
  exact .referred h hread htext hfile hthere

/-- Documents among which the root is, and with each one those that it refers
to, are all that can be reached. -/
theorem Reachable.mem_of_closed {ps : List Path} (h : Reachable w root p) (hroot : root ∈ ps)
    (hclosed : ∀ p ∈ ps, ∀ v, readDocument w p = .ok v → ∀ q ∈ referredDocuments w p v, q ∈ ps) :
    p ∈ ps := by
  induction h with
  | root => exact hroot
  | referred _ hread htext hfile hthere ih =>
      exact hclosed _ ih _ hread _
        (mem_referredDocuments_iff.mpr ⟨_, htext, hfile, rfl, hthere⟩)

end ClientRegen
