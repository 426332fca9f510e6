import ClientRegen.Proofs.Spec.Caching

/-!
# Schemas that are looked at

A search looks at one schema after the other and keeps the best that it has
seen.  What looking at some schemas in some order comes to depends on the list of
them alone (`outcome`): the first enum, if one of them declares any
(`outcome_eq_found_iff`), and otherwise a reason why there is none.  Work that
looks at schemas comes to just this (`Tries`), and where parts of it follow each
other, so do their lists (`Tries.continueWith`).
-/

namespace ClientRegen

variable {α : Type} {w : World} {x next : Loading EnumLookup} {root : Path}
  {names : List String}

/-! ## Schemas that are looked at -/

/-- What work answers that starts with no documents kept. -/
def answer (x : Loading α) : Except Failure α :=
  match x [] with
  | .ok a _ => .ok a
  | .error f _ => .error f

/-- Work that answers something answers it with nothing kept, too. -/
theorem Answers.answer_eq {x : Loading α} {y : Except Failure α} (h : Answers w x y) :
    answer x = y := by
  obtain ⟨docs, -, hrun⟩ := h [] (current_nil w)
  rw [answer, hrun]
  cases y with
  | ok a => rfl
  | error f => rfl

/-- So work that has an answer has this one. -/
theorem HasAnswer.answers {x : Loading α} (h : HasAnswer w x) : Answers w x (answer x) := by
  obtain ⟨y, hy⟩ := h
  rwa [hy.answer_eq]

/-- A schema that stands under a key of a document. -/
structure Match where
  /-- The document. -/
  document : Path
  /-- The key as it is written, and the schema. -/
  entry : String × Value

namespace Match

/-- The references of the schema lead to a schema that is none. -/
def Resolves (w : World) (c : Match) : Prop :=
  ∃ schema, answer (resolve w c.document c.entry.2) = .ok schema

/-- The enum that is declared under the key. -/
def enum? (w : World) (c : Match) : Option EnumMetadata :=
  (answer (resolve w c.document c.entry.2)).toOption.bind fun schema =>
    (Schema.enum c.entry.1 schema).toOption

/-- What looking at the schema comes to. -/
def verdict (w : World) (c : Match) : EnumLookup :=
  match answer (resolve w c.document c.entry.2) with
  | .error _ => .missing
  | .ok schema =>
    match Schema.enum c.entry.1 schema with
    | .ok m => .found m
    | .error f => .notEnum f

/-- Looking at a schema finds an enum exactly if the schema declares it. -/
theorem verdict_eq_found_iff {c : Match} {m : EnumMetadata} :
    c.verdict w = .found m ↔ c.enum? w = some m := by
  unfold verdict enum?
  cases answer (resolve w c.document c.entry.2) with
  | error f => simp [Except.toOption]
  | ok schema => cases h : Schema.enum c.entry.1 schema <;> simp [Except.toOption, h]

/-- A schema that resolves is not missing. -/
theorem verdict_ne_missing {c : Match} (h : c.Resolves w) : c.verdict w ≠ .missing := by
  obtain ⟨schema, hschema⟩ := h
  unfold verdict
  rw [hschema]
  cases h : Schema.enum c.entry.1 schema <;> simp [h]

end Match

/-- What looking at schemas in order comes to. -/
def outcome (w : World) (cs : List Match) : EnumLookup :=
  cs.foldr (fun c later => (c.verdict w).orLater later) .missing

/-- What some schemas come to is put before what the others come to. -/
theorem outcome_append (w : World) (cs cs' : List Match) :
    outcome w (cs ++ cs') = (outcome w cs).orLater (outcome w cs') := by
  induction cs with
  | nil => rfl
  | cons c cs ih =>
      change (c.verdict w).orLater (outcome w (cs ++ cs')) =
        ((c.verdict w).orLater (outcome w cs)).orLater (outcome w cs')
      rw [ih]
      cases c.verdict w <;> cases outcome w cs <;> cases outcome w cs' <;> rfl

/-- The enum that is found is the first. -/
theorem outcome_eq_found_iff {cs : List Match} {m : EnumMetadata} :
    outcome w cs = .found m ↔ cs.findSome? (Match.enum? w) = some m := by
  induction cs with
  | nil => simp [outcome]
  | cons c cs ih =>
      change (c.verdict w).orLater (outcome w cs) = .found m ↔ _
      rw [List.findSome?_cons]
      cases henum : c.enum? w with
      | some m' =>
          rw [Match.verdict_eq_found_iff.mpr henum]
          simp [EnumLookup.orLater]
      | none =>
          rw [← ih]
          cases hverdict : c.verdict w with
          | found m' =>
              rw [Match.verdict_eq_found_iff, henum] at hverdict
              cases hverdict
          | missing => rfl
          | notEnum f => cases outcome w cs <;> simp [EnumLookup.orLater]

/-- Among schemas that resolve, only no schema at all is missing. -/
theorem outcome_eq_missing_iff {cs : List Match} (h : ∀ c ∈ cs, c.Resolves w) :
    outcome w cs = .missing ↔ cs = [] := by
  cases cs with
  | nil => simp [outcome]
  | cons c cs =>
      have hc := Match.verdict_ne_missing (h c List.mem_cons_self)
      change (c.verdict w).orLater (outcome w cs) = .missing ↔ _
      cases hverdict : c.verdict w with
      | missing => exact absurd hverdict hc
      | found m => simp [EnumLookup.orLater]
      | notEnum f => cases outcome w cs <;> simp [EnumLookup.orLater]

/-- A type is no enum when it is neither missing nor found. -/
theorem exists_notEnum_iff {lookup : EnumLookup} :
    (∃ fault, lookup = .notEnum fault) ↔ lookup ≠ .missing ∧ ¬ ∃ m, lookup = .found m := by
  cases lookup <;> simp

/-! ## Work that looks at schemas -/

/-- Work that looks at schemas in this order, and comes to what that comes to. -/
def Tries (w : World) (cs : List Match) (x : Loading EnumLookup) : Prop :=
  (∀ c ∈ cs, c.Resolves w) → Answers w x (.ok (outcome w cs))

theorem tries_nil (w : World) : Tries w [] (pure .missing) :=
  fun _ => answers_pure w _

/-- Going on with a search answers the better of what was found first and later. -/
theorem answers_continueWith {later : EnumLookup} (h : Answers w next (.ok later))
    (first : EnumLookup) : Answers w (first.continueWith next) (.ok (first.orLater later)) := by
  cases first with
  | found m => exact answers_pure w _
  | notEnum fault => exact h.bind (answers_pure w _)
  | missing => exact h.bind (answers_pure w _)

/-- Work that goes on with a search looks at its schemas first, and then at those of the search. -/
theorem Tries.continueWith {cs cs' : List Match} (hx : Tries w cs x) (hnext : Tries w cs' next) :
    Tries w (cs ++ cs') (x >>= fun first => first.continueWith next) := by
  intro hresolve
  rw [List.forall_mem_append] at hresolve
  rw [outcome_append]
  exact (hx hresolve.1).bind (answers_continueWith (hnext hresolve.2) _)

/-- **Trying things in order looks at all their schemas, in this order.** -/
theorem Tries.search {f : α → List Match} {try_ : α → Loading EnumLookup}
    (h : ∀ a, Tries w (f a) (try_ a)) (xs : List α) :
    Tries w (xs.flatMap f) (ClientRegen.search try_ xs) := by
  induction xs with
  | nil => exact tries_nil w
  | cons a xs ih => exact (h a).continueWith ih

/-- Work on a document that is read first. -/
theorem Tries.fetch {p : Path} {v : Value} {cs : List Match} {f : Value → Loading EnumLookup}
    (hread : readDocument w p = .ok v) (h : Tries w cs (f v)) :
    Tries w cs (ClientRegen.fetch w p >>= f) := by
  intro hresolve
  have hfetch := answers_fetch w p
  rw [hread] at hfetch
  exact hfetch.bind (h hresolve)

/-- Looking at a schema looks at no other. -/
theorem tries_lookAt (w : World) (p : Path) (entry : String × Value) :
    Tries w [⟨p, entry⟩] (lookAt w p entry) := by
  intro hresolve
  obtain ⟨schema, hschema⟩ := hresolve _ List.mem_cons_self
  have hanswer := (hasAnswer_resolve w p entry.2).answers
  rw [hschema] at hanswer
  have hverdict : outcome w [⟨p, entry⟩] = Match.verdict w ⟨p, entry⟩ := by
    change (Match.verdict w ⟨p, entry⟩).orLater .missing = _
    cases Match.verdict w ⟨p, entry⟩ <;> rfl
  rw [hverdict]
  refine hanswer.bind ?_
  unfold Match.verdict
  rw [hschema]
  cases henum : Schema.enum entry.1 schema with
  | ok m =>
      simp only [henum]
      exact answers_pure w _
  | error f =>
      simp only [henum]
      exact answers_pure w _

/-! ## The schemas of a document -/

/-- A step of a pointer that is no index leads into an object. -/
theorem step?_eq_field? {step : List Char} (h : Value.index? step = none) (v : Value) :
    Value.step? step v = v.field? (String.ofList step) := by
  cases v with
  | object fields => rfl
  | array items =>
      rw [Value.step?, h]
      rfl
  | null | bool | number | string => rfl

/-- A pointer that starts with a slash is followed step by step. -/
theorem at?_eq_steps {pointer : String} {cs : List Char} (h : pointer.toList = '/' :: cs)
    (v : Value) : v.at? pointer =
      (Text.splitAt '/' cs).foldlM (fun v s => Value.step? (Value.unescapeStep s) v) v := by
  rw [Value.at?, h]
  rfl

/-- A pointer without escapes and indices leads along the keys that it spells. -/
theorem at?_eq_foldlM {pointer : String} {cs : List Char} {keys : List (List Char)}
    (hpointer : pointer.toList = '/' :: cs) (hkeys : Text.splitAt '/' cs = keys)
    (hplain : ∀ key ∈ keys, Value.unescapeStep key = key ∧ Value.index? key = none) (v : Value) :
    v.at? pointer = keys.foldlM (fun v key => v.field? (String.ofList key)) v := by
  rw [at?_eq_steps hpointer, hkeys]
  clear hkeys
  induction keys generalizing v with
  | nil => rfl
  | cons key keys ih =>
      rw [List.forall_mem_cons] at hplain
      obtain ⟨⟨hunescape, hindex⟩, hkeys⟩ := hplain
      rw [List.foldlM_cons, List.foldlM_cons, hunescape, step?_eq_field? hindex]
      cases v.field? (String.ofList key) with
      | none => rfl
      | some u => exact ih hkeys u

/-- **The schemas of a document** stand under `schemas` in its components, and
after these under its definitions. -/
theorem schemasOf_eq (v : Value) : schemasOf v =
    (((v.field? "components").bind (Value.field? "schemas")).bind Value.fields?).getD [] ++
      ((v.field? "definitions").bind Value.fields?).getD [] := by
  have hcomponents : v.at? "/components/schemas" =
      (v.field? "components").bind (Value.field? "schemas") := by
    have hkeys : Text.splitAt '/' "components/schemas".toList =
        ["components".toList, "schemas".toList] := by
      decide
    rw [at?_eq_foldlM (by decide) hkeys (by decide +kernel)]
    simp
  have hdefinitions : v.at? "/definitions" = v.field? "definitions" := by
    have hkeys : Text.splitAt '/' "definitions".toList = ["definitions".toList] := by
      decide
    rw [at?_eq_foldlM (by decide) hkeys (by decide +kernel)]
    simp
  rw [schemasOf, List.flatMap_cons, List.flatMap_cons, List.flatMap_nil, List.append_nil,
    hcomponents, hdefinitions]

/-- The schemas of a name among the keys of a document. -/
def matchesAmong (p : Path) (keys : List (String × Value)) (name : String) : List Match :=
  (keys.filter (isSchemaNamed name)).map fun entry => ⟨p, entry⟩

/-- Looking for a name among keys looks at the schemas that go by it. -/
theorem tries_searchKeys (w : World) (p : Path) (keys : List (String × Value)) (name : String) :
    Tries w (matchesAmong p keys name) (searchKeys w p keys name) := by
  rw [matchesAmong, ← List.flatMap_singleton' (List.map _ _), List.flatMap_map]
  exact Tries.search (tries_lookAt w p) _

/-- The schemas of a name in a document. -/
def matchesIn (w : World) (name : String) (p : Path) : List Match :=
  match readDocument w p with
  | .ok v => matchesAmong p (namedValues v) name
  | .error _ => []

/-- The schemas of names among those of the root document, by the order of the
names first. -/
def rootMatches (w : World) (root : Path) (names : List String) : List Match :=
  match readDocument w root with
  | .ok v => names.flatMap (matchesAmong root (schemasOf v))
  | .error _ => []

/-- The search in the root looks at its schemas, by the order of the names and then of the
schemas. -/
theorem tries_searchRoot {v : Value} (hread : readDocument w root = .ok v) (names : List String) :
    Tries w (rootMatches w root names) (search (searchRoot w root) names) := by
  rw [rootMatches, hread]
  exact Tries.search (fun name => Tries.fetch hread (tries_searchKeys w root _ name)) names

end ClientRegen
