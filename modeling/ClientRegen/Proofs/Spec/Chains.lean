import ClientRegen.Proofs.Spec.Searching

/-!
# Chains of references

From a value in a document, a reference leads to a value in the same document or
in another one, and from there the next reference starts (`RefStep`).  Some of
these steps one after the other are a chain (`RefChain`); it comes to an end at
a value that is no reference, at a step that fails (`RefFault`), or never.

Following a chain comes to what following it from a later place comes to, with
fewer steps left (`answers_resolveWithin_of_chain`).  The value that a chain
leads to is asked for a further reference only if a step is left: one of less
than `referenceLimit` steps is followed to its end, and any other is refused
(`resolve_along_chain`).
-/

namespace ClientRegen

variable {w : World} {start : Path} {steps m n : Nat} {x y z : Path × Value} {f : Failure}
  {a : Except Failure Value}

/-! ## Steps -/

/-- A reference in a document leads to a value, with the document in which the
value stands. -/
inductive RefStep (w : World) : Path × Value → Path × Value → Prop where
  | follow {p : Path} {v root u : Value} {text : String} (htext : referenceIn? v = some text)
      (hread : readDocument w ((Reference.ofText text).document p) = .ok root)
      (hat : root.at? (Reference.ofText text).pointer = some u) :
      RefStep w (p, v) ((Reference.ofText text).document p, u)

/-- A reference in a document leads nowhere. -/
inductive RefFault (w : World) : Path × Value → Failure → Prop where
  /-- The document that it names is not read. -/
  | unread {p : Path} {v : Value} {text : String} {fault : Failure}
      (htext : referenceIn? v = some text)
      (hread : readDocument w ((Reference.ofText text).document p) = .error fault) :
      RefFault w (p, v) fault
  /-- There is nothing at its pointer. -/
  | unresolved {p : Path} {v root : Value} {text : String} (htext : referenceIn? v = some text)
      (hread : readDocument w ((Reference.ofText text).document p) = .ok root)
      (hat : root.at? (Reference.ofText text).pointer = none) :
      RefFault w (p, v)
        (.specification ((Reference.ofText text).document p) (.unresolved text))

/-- A value is no reference, or its reference leads somewhere, or nowhere. -/
theorem refStep_cases (w : World) (x : Path × Value) :
    referenceIn? x.2 = none ∨ (∃ y, RefStep w x y) ∨ ∃ f, RefFault w x f := by
  obtain ⟨p, v⟩ := x
  cases htext : referenceIn? v with
  | none => exact Or.inl rfl
  | some text =>
      refine Or.inr ?_
      cases hread : readDocument w ((Reference.ofText text).document p) with
      | error f => exact Or.inr ⟨f, .unread htext hread⟩
      | ok root =>
          cases hat : root.at? (Reference.ofText text).pointer with
          | none => exact Or.inr ⟨_, .unresolved htext hread hat⟩
          | some u => exact Or.inl ⟨_, .follow htext hread hat⟩

/-- A step that is followed leaves one step less. -/
theorem answers_resolveWithin_of_step (h : RefStep w x y)
    (hy : Answers w (resolveWithin w start steps y.1 y.2) a) :
    Answers w (resolveWithin w start (steps + 1) x.1 x.2) a := by
  cases h with
  | @follow p v root u text htext hread hat =>
      have hfollow : Answers w (follow w p text)
          (.ok ((Reference.ofText text).document p, u)) := by
        have hfetch := answers_fetch w ((Reference.ofText text).document p)
        rw [hread] at hfetch
        unfold follow
        refine hfetch.bind ?_
        rw [hat]
        exact answers_pure w _
      rw [resolveWithin, htext]
      exact hfollow.bind hy

/-- A step that fails is followed no further. -/
theorem answers_resolveWithin_of_fault (h : RefFault w x f) :
    Answers w (resolveWithin w start (steps + 1) x.1 x.2) (.error f) := by
  cases h with
  | @unread p v text fault htext hread =>
      have hfetch := answers_fetch w ((Reference.ofText text).document p)
      rw [hread] at hfetch
      rw [resolveWithin, htext]
      exact (Answers.bind_error hfetch).bind_error
  | @unresolved p v root text htext hread hat =>
      have hfollow : Answers w (follow w p text)
          (.error (.specification ((Reference.ofText text).document p) (.unresolved text))) := by
        have hfetch := answers_fetch w ((Reference.ofText text).document p)
        rw [hread] at hfetch
        unfold follow
        refine hfetch.bind ?_
        rw [hat]
        exact answers_throw w _
      rw [resolveWithin, htext]
      exact hfollow.bind_error

/-! ## Chains -/

/-- So many steps lead from one value to another. -/
inductive RefChain (w : World) : Nat → Path × Value → Path × Value → Prop where
  | nil (x : Path × Value) : RefChain w 0 x x
  | cons {n : Nat} {x y z : Path × Value} (hstep : RefStep w x y) (hrest : RefChain w n y z) :
      RefChain w (n + 1) x z

namespace RefChain

/-- A chain goes on where another one ends. -/
theorem append (h : RefChain w m x y) (h' : RefChain w n y z) : RefChain w (m + n) x z := by
  induction h with
  | nil => rwa [Nat.zero_add]
  | @cons k _ _ _ hstep _ ih =>
      rw [Nat.add_right_comm]
      exact .cons hstep (ih h')

/-- A chain passes through places at every distance up to its length. -/
theorem take (h : RefChain w n x z) (hm : m ≤ n) : ∃ y, RefChain w m x y := by
  induction h generalizing m with
  | nil x => exact ⟨x, Nat.le_zero.mp hm ▸ .nil x⟩
  | @cons n x y z hstep _ ih =>
      cases m with
      | zero => exact ⟨x, .nil x⟩
      | succ m =>
          obtain ⟨y', hy'⟩ := ih (Nat.le_of_succ_le_succ hm)
          exact ⟨y', .cons hstep hy'⟩

/-- A chain that comes back goes on for as long as one likes. -/
theorem exists_of_cycle (h : RefChain w (m + 1) x x) (n : Nat) :
    ∃ k, n ≤ k ∧ RefChain w k x x := by
  induction n with
  | zero => exact ⟨0, Nat.le_refl 0, .nil x⟩
  | succ n ih =>
      obtain ⟨k, hk, hchain⟩ := ih
      exact ⟨k + (m + 1), by omega, hchain.append h⟩

end RefChain

/-- Within a number of steps, a chain comes to its end, to a step that fails, or
further. -/
theorem exists_chain_end (w : World) (x : Path × Value) (limit : Nat) :
    (∃ n y, n < limit ∧ RefChain w n x y ∧ (referenceIn? y.2 = none ∨ ∃ f, RefFault w y f)) ∨
      ∃ y, RefChain w limit x y := by
  induction limit generalizing x with
  | zero => exact Or.inr ⟨x, .nil x⟩
  | succ limit ih =>
      rcases refStep_cases w x with hend | ⟨y, hstep⟩ | hfault
      · exact Or.inl ⟨0, x, Nat.succ_pos limit, .nil x, Or.inl hend⟩
      · rcases ih y with ⟨n, z, hn, hchain, hz⟩ | ⟨z, hchain⟩
        · exact Or.inl ⟨n + 1, z, Nat.succ_lt_succ hn, .cons hstep hchain, hz⟩
        · exact Or.inr ⟨z, .cons hstep hchain⟩
      · exact Or.inl ⟨0, x, Nat.succ_pos limit, .nil x, Or.inr hfault⟩

/-- **Following a chain comes to what following it from its end comes to.** -/
theorem answers_resolveWithin_of_chain (h : RefChain w n x y)
    (hy : Answers w (resolveWithin w start steps y.1 y.2) a) :
    Answers w (resolveWithin w start (n + steps) x.1 x.2) a := by
  induction h with
  | nil => rwa [Nat.zero_add]
  | cons hstep _ ih =>
      rw [Nat.add_right_comm]
      exact answers_resolveWithin_of_step hstep (ih hy)

variable {p : Path} {v : Value}

/-- Behind a chain of less steps than the limit, there is a step left. -/
theorem answers_resolve_of_chain (h : RefChain w n (p, v) y) (hn : n < referenceLimit)
    (hy : ∀ steps, Answers w (resolveWithin w p (steps + 1) y.1 y.2) a) :
    Answers w (resolve w p v) a := by
  obtain ⟨steps, hsteps⟩ : ∃ steps, referenceLimit = n + (steps + 1) :=
    ⟨referenceLimit - n - 1, by omega⟩
  rw [resolve, hsteps]
  exact answers_resolveWithin_of_chain h (hy steps)

/-- A chain that ends before the limit is followed to its end. -/
theorem answers_resolve_of_end (h : RefChain w n (p, v) y) (hn : n < referenceLimit)
    (hy : referenceIn? y.2 = none) : Answers w (resolve w p v) (.ok y.2) := by
  refine answers_resolve_of_chain h hn fun steps => ?_
  rw [resolveWithin, hy]
  exact answers_pure w y.2

/-- A step before the limit that fails is what following the chain fails with. -/
theorem answers_resolve_of_fault (h : RefChain w n (p, v) y) (hn : n < referenceLimit)
    (hy : RefFault w y f) : Answers w (resolve w p v) (.error f) :=
  answers_resolve_of_chain h hn fun _ => answers_resolveWithin_of_fault hy

/-- A chain that reaches the limit is refused, wherever it leads. -/
theorem answers_resolve_of_limit (h : RefChain w n (p, v) y) (hn : referenceLimit ≤ n) :
    Answers w (resolve w p v) (.error (.specification p .tooDeep)) := by
  obtain ⟨z, hz⟩ := h.take hn
  have hend : Answers w (resolveWithin w p 0 z.1 z.2) (.error (.specification p .tooDeep)) :=
    answers_throw w _
  exact answers_resolveWithin_of_chain hz hend

/-- **A chain is followed to its end if it has less than 32 steps.**  It answers
the value that it ends in, or what the first step fails with that fails.  A
chain of 32 steps or more is refused, also if it ends in a value with the last
of 32 steps, and so is one that comes back to a place.  One of these is always
the case. -/
theorem resolve_along_chain (w : World) (p : Path) (v : Value) :
    (∀ n y, RefChain w n (p, v) y → referenceIn? y.2 = none → n < 32 →
      Answers w (resolve w p v) (.ok y.2)) ∧
    (∀ n y f, RefChain w n (p, v) y → RefFault w y f → n < 32 →
      Answers w (resolve w p v) (.error f)) ∧
    (∀ n y, RefChain w n (p, v) y → 32 ≤ n →
      Answers w (resolve w p v) (.error (.specification p .tooDeep))) ∧
    (∀ m n y, RefChain w m (p, v) y → RefChain w (n + 1) y y →
      Answers w (resolve w p v) (.error (.specification p .tooDeep))) ∧
    ((∃ n y, n < 32 ∧ RefChain w n (p, v) y ∧ (referenceIn? y.2 = none ∨ ∃ f, RefFault w y f)) ∨
      ∃ y, RefChain w 32 (p, v) y) ∧
    SpecFault.tooDeep.message = "reference chain deeper than 32" := by
  refine ⟨?_, ?_, ?_, ?_, exists_chain_end w (p, v) 32, by decide +kernel⟩
  · intro n y hchain hend hn
    exact answers_resolve_of_end hchain hn hend
  · intro n y f hchain hfault hn
    exact answers_resolve_of_fault hchain hn hfault
  · intro n y hchain hn
    exact answers_resolve_of_limit hchain hn
  · intro m n y hchain hcycle
    obtain ⟨k, hk, hround⟩ := hcycle.exists_of_cycle referenceLimit
    exact answers_resolve_of_limit (hchain.append hround) (by omega)

/-! ## A document with a chain of as many references -/

/-- A value that is a reference. -/
def refValue (text : String) : Value :=
  .object [("$ref", .string text)]

/-- The characters of a reference, with those that follow it. -/
def refChars (text rest : List Char) : List Char :=
  '\x7b' :: '"' :: ("$ref".toList ++ '"' :: ':' :: '"' :: (text ++ '"' :: '\x7d' :: rest))

/-- The characters of a reference are read as the reference. -/
theorem readValue_refChars {depth : Nat} {text : List Char} (h : Json.isPlain text = true)
    (rest : List Char) :
    Json.outcome (Json.readValue (depth + 1) (refChars text rest)) =
      some (refValue (String.ofList text), rest) :=
  Specification.readValue_textField (by decide) h rest

/-- References before a last item are read one after the other. -/
theorem readItems_refChars {depth : Nat} {texts : List (List Char)} {cs rest : List Char}
    {last : Value} (h : ∀ text ∈ texts, Json.isPlain text = true)
    (hlast : Json.outcome (Json.readValue (depth + 1) cs) = some (last, ']' :: rest)) :
    Json.outcome (Json.readItems (depth + 1)
      (texts.foldr (fun text more => refChars text (',' :: more)) cs)) =
        some (texts.map (fun text => refValue (String.ofList text)) ++ [last], rest) := by
  induction texts with
  | nil => exact Json.outcome_readItems_last hlast rfl
  | cons text texts ih =>
      obtain ⟨htext, htexts⟩ := List.forall_mem_cons.mp h
      exact Json.outcome_readItems_cons (readValue_refChars htext _) rfl (ih htexts)

/-- The reference to an item. -/
def itemReference (k : Nat) : String :=
  "#/c/" ++ toString k

/-- A list of items each of which refers to the next, up to the last. -/
def linkedItem (k : Nat) : Value :=
  if k < 31 then refValue (itemReference (k + 1)) else Specification.oneValue "x"

/-- A document with the items, and with a reference to the first. -/
def linkedDocument : Value :=
  .object [("A", refValue (itemReference 0)), ("c", .array ((List.range 32).map linkedItem))]

/-- The text of the document. -/
def linkedSpec : String :=
  String.ofList ('\x7b' :: '"' :: ("A".toList ++ '"' :: ':' ::
    refChars (itemReference 0).toList (',' :: '"' :: ("c".toList ++ '"' :: ':' :: '[' ::
      ((List.range 31).map fun k => (itemReference (k + 1)).toList).foldr
        (fun text more => refChars text (',' :: more))
        ('\x7b' :: '"' :: ("enum".toList ++ '"' :: ':' :: '[' :: '"' :: 'x' :: '"' ::
          ']' :: '\x7d' :: ']' :: ['\x7d']))))))

/-- A world with the document. -/
def linkedWorld : World :=
  ⟨.dir [("s.json", .file linkedSpec.toUTF8 false)], [], []⟩

/-- The text is read as the document. -/
theorem parse?_linkedSpec : Json.parse? linkedSpec = some linkedDocument := by
  have hplain : ∀ text ∈ (List.range 31).map fun k => (itemReference (k + 1)).toList,
      Json.isPlain text = true := by
    decide
  have hlast : Json.outcome (Json.readValue 125 ('\x7b' :: '"' :: ("enum".toList ++
      '"' :: ':' :: '[' :: '"' :: 'x' :: '"' :: ']' :: '\x7d' :: ']' :: ['\x7d']))) =
        some (Specification.oneValue "x", ']' :: ['\x7d']) :=
    Specification.readValue_oneValue rfl
  have hread : Json.outcome (Json.readValue Json.depthLimit linkedSpec.toList) =
      some (linkedDocument, []) := by
    rw [linkedSpec, String.toList_ofList]
    refine Json.outcome_readValue_object (by decide) (Json.outcome_readFields_cons
      (Json.readString_plain (by decide)) (readValue_refChars (by decide) _) rfl ?_)
    exact Json.outcome_readFields_last (Json.readString_plain (by decide))
      (Json.outcome_readValue_array (by decide) (readItems_refChars hplain hlast)) rfl
  exact Json.parse?_eq_some hread rfl

/-- The document is found in its file. -/
theorem readDocument_linkedWorld : readDocument linkedWorld ⟨"s.json"⟩ = .ok linkedDocument :=
  readDocument_specFile Entry.at?_nil rfl parse?_linkedSpec

/-- The reference to an item points to the item. -/
theorem at?_linkedDocument {k : Nat} (hk : k < 32) :
    linkedDocument.at? (Reference.ofText (itemReference k)).pointer = some (linkedItem k) := by
  have hindex : ∀ k < 32, (Reference.ofText (itemReference k)).pointer.toList =
        '/' :: 'c' :: '/' :: (toString k).toList ∧
      Text.splitAt '/' ('c' :: '/' :: (toString k).toList) = [['c'], (toString k).toList] ∧
      Value.index? (Value.unescapeStep (toString k).toList) = some k := by
    decide +kernel
  obtain ⟨hpointer, hsplit, hstep⟩ := hindex k hk
  have hkey : String.ofList (Value.unescapeStep ['c']) = "c" := by decide +kernel
  have hlist : Value.step? (Value.unescapeStep ['c']) linkedDocument =
      some (.array ((List.range 32).map linkedItem)) := by
    rw [linkedDocument, Value.step?, hkey]
    rfl
  have hitem : Value.step? (Value.unescapeStep (toString k).toList)
      (.array ((List.range 32).map linkedItem)) = some (linkedItem k) := by
    rw [Value.step?, hstep]
    simp [hk]
  rw [at?_eq_steps hpointer, hsplit, List.foldlM_cons, hlist]
  exact Option.bind_eq_some_iff.mpr ⟨_, rfl, Option.bind_eq_some_iff.mpr ⟨_, hitem, rfl⟩⟩

/-- A reference to an item is a step to this item. -/
theorem refStep_linkedWorld {k : Nat} (hk : k < 32) :
    RefStep linkedWorld (⟨"s.json"⟩, refValue (itemReference k)) (⟨"s.json"⟩, linkedItem k) := by
  have hfile : ∀ k < 32, (Reference.ofText (itemReference k)).document ⟨"s.json"⟩ = ⟨"s.json"⟩ := by
    decide
  have hread : readDocument linkedWorld
      ((Reference.ofText (itemReference k)).document ⟨"s.json"⟩) = .ok linkedDocument := by
    rw [hfile k hk]
    exact readDocument_linkedWorld
  have hstep : RefStep linkedWorld (⟨"s.json"⟩, refValue (itemReference k))
      ((Reference.ofText (itemReference k)).document ⟨"s.json"⟩, linkedItem k) :=
    .follow rfl hread (at?_linkedDocument hk)
  rwa [hfile k hk] at hstep

/-- From every item, the references lead on to the last. -/
theorem refChain_linkedItem {j k : Nat} (h : j + k = 31) :
    RefChain linkedWorld j (⟨"s.json"⟩, linkedItem k)
      (⟨"s.json"⟩, Specification.oneValue "x") := by
  induction j generalizing k with
  | zero =>
      have hlast : linkedItem k = Specification.oneValue "x" := if_neg (by omega)
      rw [hlast]
      exact .nil _
  | succ j ih =>
      have hnext : linkedItem k = refValue (itemReference (k + 1)) := if_pos (by omega)
      rw [hnext]
      exact .cons (refStep_linkedWorld (by omega)) (ih (by omega))

/-- The last item is no reference. -/
theorem referenceIn?_oneValue (text : String) :
    referenceIn? (Specification.oneValue text) = none := by
  rfl

/-- A chain of 32 references is refused as deeper than 32, although the value
that it leads to is no reference. -/
theorem resolve_refuses_limit :
    RefChain linkedWorld 32 (⟨"s.json"⟩, refValue (itemReference 0))
        (⟨"s.json"⟩, Specification.oneValue "x") ∧
      referenceIn? (Specification.oneValue "x") = none ∧
      answer (resolve linkedWorld ⟨"s.json"⟩ (refValue (itemReference 0))) =
        .error (.specification ⟨"s.json"⟩ .tooDeep) ∧
      Failure.message (.specification ⟨"s.json"⟩ .tooDeep) =
        "invalid specification document s.json: reference chain deeper than 32" := by
  have hchain : RefChain linkedWorld 32 (⟨"s.json"⟩, refValue (itemReference 0))
      (⟨"s.json"⟩, Specification.oneValue "x") :=
    .cons (refStep_linkedWorld (by decide)) (refChain_linkedItem rfl)
  exact ⟨hchain, referenceIn?_oneValue "x",
    (answers_resolve_of_limit hchain (Nat.le_refl _)).answer_eq, by decide +kernel⟩

/-- A chain of 31 steps settles, and one step more is refused. -/
theorem resolve_along_chain_linked :
    answer (resolve linkedWorld ⟨"s.json"⟩ (linkedItem 0)) = .ok (Specification.oneValue "x") ∧
      answer (resolve linkedWorld ⟨"s.json"⟩ (refValue (itemReference 0))) =
        .error (.specification ⟨"s.json"⟩ .tooDeep) := by
  have hchain : RefChain linkedWorld 31 (⟨"s.json"⟩, linkedItem 0)
      (⟨"s.json"⟩, Specification.oneValue "x") :=
    refChain_linkedItem rfl
  obtain ⟨hend, -⟩ := resolve_along_chain linkedWorld ⟨"s.json"⟩ (linkedItem 0)
  obtain ⟨-, -, hlimit, -⟩ :=
    resolve_along_chain linkedWorld ⟨"s.json"⟩ (refValue (itemReference 0))
  exact ⟨(hend 31 _ hchain (referenceIn?_oneValue "x") (by decide)).answer_eq,
    (hlimit 32 _ (.cons (refStep_linkedWorld (by decide)) hchain) (by decide)).answer_eq⟩

end ClientRegen
