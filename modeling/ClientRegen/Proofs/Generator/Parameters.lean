import ClientRegen.Generator.Arguments
import ClientRegen.Proofs.Text.Pieces
import Mathlib.Data.List.Basic

/-!
# What the argument of parameters keeps

Parameters stand in one argument with commas between them, and a value may hold
commas, too.  Read again, a comma parts two parameters exactly where a name and
an equals sign follow (`readPieces`), so the argument tells the parameters apart
unless such a comma stands in a value (`paramsArgument_eq_iff`): the format has
no other way to write a comma.

The backslashes are no obstacle.  Doubling them can be undone
(`escapeChars_injective`), and it moves no comma and no equals sign.
-/

namespace ClientRegen.Generator

variable {c : Char} {cs ds name value piece : List Char} {ps qs : List (String × String)}
  {pieces pieces' : List (List Char)} {p : String × String}

/-! ## Escaped values -/

/-- A character of a value, a backslash twice. -/
def escapeChar (c : Char) : List Char :=
  if c = '\\' then ['\\', '\\'] else [c]

/-- The characters of a value with its backslashes doubled. -/
def escapeChars (cs : List Char) : List Char :=
  cs.flatMap escapeChar

/-- An escaped value has the characters of the value with its backslashes doubled. -/
theorem toList_escapeParam (value : String) :
    (escapeParam value).toList = escapeChars value.toList :=
  String.toList_ofList

@[simp] theorem escapeChars_nil : escapeChars [] = [] := rfl

/-- Characters are escaped one by one. -/
theorem escapeChars_cons (c : Char) (cs : List Char) :
    escapeChars (c :: cs) = escapeChar c ++ escapeChars cs :=
  List.flatMap_cons

/-- The first character written for a character is the character. -/
theorem head?_escapeChar_append (c : Char) (cs : List Char) :
    (escapeChar c ++ cs).head? = some c := by
  unfold escapeChar
  split
  · rename_i hc
    rw [hc]
    rfl
  · rfl

/-- Doubling backslashes brings and takes no other character. -/
theorem mem_escapeChars_iff (hc : c ≠ '\\') : c ∈ escapeChars cs ↔ c ∈ cs := by
  induction cs with
  | nil => simp
  | cons d cs ih =>
      rw [escapeChars_cons, List.mem_append, List.mem_cons, ih, escapeChar]
      split
      · rename_i hd
        simp [hc, hd]
      · simp

/-- **Doubling backslashes loses nothing.** -/
theorem escapeChars_injective (h : escapeChars cs = escapeChars ds) : cs = ds := by
  induction cs generalizing ds with
  | nil =>
      cases ds with
      | nil => rfl
      | cons d ds =>
          have hhead := congrArg List.head? h
          rw [escapeChars_cons, head?_escapeChar_append] at hhead
          cases hhead
  | cons c cs ih =>
      have hhead := congrArg List.head? h
      rw [escapeChars_cons, head?_escapeChar_append] at hhead
      cases ds with
      | nil => cases hhead
      | cons d ds =>
          rw [escapeChars_cons, head?_escapeChar_append, Option.some.injEq] at hhead
          subst hhead
          rw [escapeChars_cons, escapeChars_cons] at h
          rw [ih (List.append_cancel_left h)]

/-- Doubling backslashes leaves the commas where they are. -/
theorem splitAt_escapeChars (cs : List Char) :
    Text.splitAt ',' (escapeChars cs) = (Text.splitAt ',' cs).map escapeChars := by
  have hcomma : ∀ d, d ≠ ',' → ∀ ds, Text.splitAt ',' (escapeChar d ++ ds) =
      (Text.splitAt ',' ds).modifyHead (escapeChar d ++ ·) := by
    intro d hd ds
    obtain ⟨first, others, hds⟩ := List.exists_cons_of_ne_nil (splitAt_ne_nil ',' ds)
    rw [hds, escapeChar]
    split
    · simp [Text.splitAt, hds]
    · simp [Text.splitAt, hds, hd]
  induction cs with
  | nil => rfl
  | cons c cs ih =>
      obtain ⟨first, others, hcs⟩ := List.exists_cons_of_ne_nil (splitAt_ne_nil ',' cs)
      rw [escapeChars_cons]
      by_cases hc : c = ','
      · subst hc
        simp [Text.splitAt, escapeChar, ih]
      · rw [hcomma c hc, ih, hcs, Text.splitAt, if_neg hc, hcs]
        simp [escapeChars_cons]

/-! ## Parameters as they are read -/

/-- A text that can be the name of a parameter: there is something of it, and no
comma and no equals sign in it. -/
def IsParamName (name : String) : Prop :=
  name ≠ "" ∧ ',' ∉ name.toList ∧ '=' ∉ name.toList

instance (name : String) : Decidable (IsParamName name) :=
  inferInstanceAs (Decidable (_ ∧ _))

/-- Whether a text between commas begins a parameter: a name and an equals
sign. -/
def beginsParam (piece : List Char) : Bool :=
  piece.contains '=' && piece.head? != some '='

/-- The texts between the commas of an argument as they are read: what goes on
with a value from before them, and the parameters that begin among them, each as
its name and its escaped value. -/
def readPieces : List (List Char) → List Char × List (List Char × List Char)
  | [] => ([], [])
  | piece :: pieces =>
    let (more, params) := readPieces pieces
    if beginsParam piece then
      ([], (piece.takeWhile (· ≠ '='), (piece.dropWhile (· ≠ '=')).tail ++ more) :: params)
    else (',' :: piece ++ more, params)

/-- The parameters that an argument reads as. -/
def readParams (argument : List Char) : List (List Char × List Char) :=
  (readPieces (Text.splitAt ',' argument)).2

/-- A parameter as it stands behind a comma. -/
def behindComma (param : List Char × List Char) : List Char :=
  ',' :: (param.1 ++ '=' :: param.2)

/-- A text that begins a parameter ends what goes on with a value before it. -/
theorem readPieces_cons_of_begins (h : beginsParam piece = true) (pieces : List (List Char)) :
    readPieces (piece :: pieces) =
      ([], (piece.takeWhile (· ≠ '='), (piece.dropWhile (· ≠ '=')).tail ++
        (readPieces pieces).1) :: (readPieces pieces).2) := by
  simp only [readPieces, h, if_true]

/-- A text that begins no parameter goes on with a value, behind its comma. -/
theorem readPieces_cons_of_not_begins (h : beginsParam piece = false)
    (pieces : List (List Char)) :
    readPieces (piece :: pieces) = (',' :: piece ++ (readPieces pieces).1,
      (readPieces pieces).2) := by
  simp only [readPieces, h, if_false, Bool.false_eq_true]

/-- A name and an equals sign begin a parameter, and are read as its name. -/
theorem beginsParam_name (hne : name ≠ []) (hequals : '=' ∉ name) (value : List Char) :
    beginsParam (name ++ '=' :: value) = true ∧
      (name ++ '=' :: value).takeWhile (· ≠ '=') = name ∧
      (name ++ '=' :: value).dropWhile (· ≠ '=') = '=' :: value := by
  obtain ⟨d, name, rfl⟩ := List.exists_cons_of_ne_nil hne
  have hd : d ≠ '=' := fun h => hequals (h ▸ List.mem_cons_self)
  have hall : ∀ e ∈ d :: name, decide (e ≠ '=') = true := by
    intro e he
    exact decide_eq_true fun h => hequals (h ▸ he)
  refine ⟨by simp [beginsParam, hd], ?_, ?_⟩
  · rw [List.takeWhile_append_of_pos hall]
    simp
  · rw [List.dropWhile_append_of_pos hall]
    simp

/-- A text that begins a parameter is its name, an equals sign and the beginning
of its value. -/
theorem eq_of_beginsParam (h : beginsParam piece = true) :
    piece = piece.takeWhile (· ≠ '=') ++ '=' :: (piece.dropWhile (· ≠ '=')).tail := by
  rw [beginsParam, Bool.and_eq_true, List.contains_iff_mem] at h
  obtain ⟨name, value, rfl, hname⟩ := List.eq_append_cons_of_mem h.1
  have hne : name ≠ [] := by
    rintro rfl
    simp at h
  obtain ⟨-, htake, hdrop⟩ := beginsParam_name hne hname value
  rw [htake, hdrop, List.tail_cons]

/-- **Reading loses nothing of an argument.** -/
theorem readPieces_append_eq (pieces : List (List Char)) :
    (readPieces pieces).1 ++ (readPieces pieces).2.flatMap behindComma =
      pieces.flatMap (',' :: ·) := by
  induction pieces with
  | nil => rfl
  | cons piece pieces ih =>
      rw [List.flatMap_cons, ← ih]
      cases hbegins : beginsParam piece with
      | true =>
          have hpiece := eq_of_beginsParam hbegins
          rw [readPieces_cons_of_begins hbegins, List.flatMap_cons, behindComma]
          generalize piece.takeWhile (· ≠ '=') = name at hpiece ⊢
          generalize (piece.dropWhile (· ≠ '=')).tail = value at hpiece ⊢
          rw [hpiece]
          simp
      | false =>
          rw [readPieces_cons_of_not_begins hbegins]
          simp

/-- Where a parameter begins, what comes before it is read for itself. -/
theorem readPieces_append (h : (readPieces pieces').1 = []) (pieces : List (List Char)) :
    readPieces (pieces ++ pieces') =
      ((readPieces pieces).1, (readPieces pieces).2 ++ (readPieces pieces').2) := by
  induction pieces with
  | nil => exact Prod.ext h rfl
  | cons piece pieces ih =>
      rw [List.cons_append]
      cases hbegins : beginsParam piece with
      | true =>
          rw [readPieces_cons_of_begins hbegins, readPieces_cons_of_begins hbegins, ih]
          rfl
      | false =>
          rw [readPieces_cons_of_not_begins hbegins, readPieces_cons_of_not_begins hbegins, ih]

/-- Texts that begin no parameter all go on with the value before them. -/
theorem readPieces_of_not_begins (h : ∀ piece ∈ pieces, beginsParam piece = false) :
    readPieces pieces = (pieces.flatMap (',' :: ·), []) := by
  induction pieces with
  | nil => rfl
  | cons piece pieces ih =>
      rw [List.forall_mem_cons] at h
      rw [readPieces_cons_of_not_begins h.1, ih h.2, List.flatMap_cons]

/-- The texts between commas, each behind a comma, are the argument behind a comma. -/
theorem flatMap_splitAt_comma (cs : List Char) :
    (Text.splitAt ',' cs).flatMap (',' :: ·) = ',' :: cs := by
  induction cs with
  | nil => rfl
  | cons c cs ih =>
      rw [Text.splitAt]
      split
      · rename_i hc
        rw [List.flatMap_cons, ih, hc]
        rfl
      · obtain ⟨first, others, hcs⟩ := List.exists_cons_of_ne_nil (splitAt_ne_nil ',' cs)
        rw [hcs, List.flatMap_cons] at ih
        rw [hcs]
        simpa using ih

/-! ## One parameter -/

/-- The characters of a parameter in an argument. -/
def paramChars (p : String × String) : List Char :=
  p.1.toList ++ '=' :: escapeChars p.2.toList

/-- The parameters that one parameter reads as. -/
def partsOf (p : String × String) : List (List Char × List Char) :=
  readParams (paramChars p)

/-- A value in which no comma is followed by what begins a parameter. -/
def IsWhole (value : String) : Prop :=
  ∀ piece ∈ (Text.splitAt ',' value.toList).tail, beginsParam piece = false

instance (value : String) : Decidable (IsWhole value) :=
  inferInstanceAs (Decidable (∀ _ ∈ _, _))

/-- The texts between the commas of a parameter: its name and the beginning of
its value, and the rest of its value. -/
theorem splitAt_paramChars (hp : IsParamName p.1) :
    ∃ first others, Text.splitAt ',' (escapeChars p.2.toList) = first :: others ∧
      Text.splitAt ',' (paramChars p) = (p.1.toList ++ '=' :: first) :: others := by
  obtain ⟨first, others, hvalue⟩ :=
    List.exists_cons_of_ne_nil (splitAt_ne_nil ',' (escapeChars p.2.toList))
  refine ⟨first, others, hvalue, ?_⟩
  have hsplit : ∀ name : List Char, ',' ∉ name →
      Text.splitAt ',' (name ++ '=' :: escapeChars p.2.toList) =
        (name ++ '=' :: first) :: others := by
    intro name hname
    induction name with
    | nil => simp [Text.splitAt, hvalue]
    | cons d name ih =>
        rw [List.mem_cons, not_or] at hname
        rw [List.cons_append, Text.splitAt, if_neg (Ne.symm hname.1), ih hname.2]
        rfl
  exact hsplit _ hp.2.1

/-- A parameter begins with its name. -/
theorem readPieces_paramChars (hp : IsParamName p.1) :
    readPieces (Text.splitAt ',' (paramChars p)) = ([], partsOf p) := by
  obtain ⟨first, others, -, hsplit⟩ := splitAt_paramChars hp
  have hne : p.1.toList ≠ [] := fun h => hp.1 (String.toList_eq_nil_iff.mp h)
  have hbegins := (beginsParam_name hne hp.2.2 first).1
  rw [partsOf, readParams, hsplit, readPieces_cons_of_begins hbegins]

/-- The parts of a parameter make up the text that is written for it. -/
theorem flatMap_partsOf (hp : IsParamName p.1) :
    (partsOf p).flatMap behindComma = ',' :: paramChars p := by
  have hread := readPieces_append_eq (Text.splitAt ',' (paramChars p))
  rwa [readPieces_paramChars hp, flatMap_splitAt_comma] at hread

/-- Doubling backslashes makes no parameter begin. -/
theorem beginsParam_escapeChars (piece : List Char) :
    beginsParam (escapeChars piece) = beginsParam piece := by
  have hhead : ((escapeChars piece).head? != some '=') = (piece.head? != some '=') := by
    cases piece with
    | nil => rfl
    | cons c piece =>
        rw [escapeChars_cons, head?_escapeChar_append]
        rfl
  have hmem : (escapeChars piece).contains '=' = piece.contains '=' := by
    rw [Bool.eq_iff_iff, List.contains_iff_mem, List.contains_iff_mem,
      mem_escapeChars_iff (by decide)]
  rw [beginsParam, beginsParam, hhead, hmem]

/-- **A parameter with a whole value reads as itself.** -/
theorem partsOf_of_isWhole (hp : IsParamName p.1) (hwhole : IsWhole p.2) :
    partsOf p = [(p.1.toList, escapeChars p.2.toList)] := by
  obtain ⟨first, others, hvalue, hsplit⟩ := splitAt_paramChars hp
  have hne : p.1.toList ≠ [] := fun h => hp.1 (String.toList_eq_nil_iff.mp h)
  obtain ⟨hbegins, htake, hdrop⟩ := beginsParam_name hne hp.2.2 first
  have hothers : ∀ piece ∈ others, beginsParam piece = false := by
    intro piece hpiece
    have htail : others = ((Text.splitAt ',' p.2.toList).tail).map escapeChars := by
      rw [List.map_tail, ← splitAt_escapeChars, hvalue, List.tail_cons]
    rw [htail] at hpiece
    obtain ⟨own, hown, rfl⟩ := List.mem_map.mp hpiece
    rw [beginsParam_escapeChars]
    exact hwhole own hown
  have hjoin := flatMap_splitAt_comma (escapeChars p.2.toList)
  rw [hvalue, List.flatMap_cons, List.cons_append, List.cons.injEq] at hjoin
  rw [partsOf, readParams, hsplit, readPieces_cons_of_begins hbegins,
    readPieces_of_not_begins hothers, htake, hdrop, List.tail_cons, hjoin.2]

/-! ## All parameters -/

/-- An argument is its parameters without the first comma. -/
theorem toList_paramsArgument (ps : List (String × String)) :
    (paramsArgument ps).toList = (ps.flatMap fun p => ',' :: paramChars p).tail := by
  have hparam : ∀ p : String × String,
      (p.1 ++ "=" ++ escapeParam p.2).toList = paramChars p := by
    intro p
    rw [String.toList_append, String.toList_append, toList_escapeParam, paramChars,
      List.append_assoc]
    rfl
  induction ps with
  | nil => rfl
  | cons p ps ih =>
      cases ps with
      | nil => simp [paramsArgument, ← hparam]
      | cons q ps =>
          rw [List.flatMap_cons, List.cons_append, List.tail_cons]
          have hcons : (paramsArgument (p :: q :: ps)).toList =
              paramChars p ++ ',' :: (paramsArgument (q :: ps)).toList := by
            simp [paramsArgument, String.intercalate_cons_cons, ← hparam]
          rw [hcons, ih, List.flatMap_cons, List.cons_append, List.tail_cons]

/-- **An argument reads as its parameters do,** one after the other. -/
theorem readParams_paramsArgument (hps : ∀ p ∈ ps, IsParamName p.1) :
    readParams (paramsArgument ps).toList = ps.flatMap partsOf := by
  have hread : ∀ p ps, (∀ q ∈ p :: ps, IsParamName q.1) →
      readPieces (Text.splitAt ',' (paramsArgument (p :: ps)).toList) =
        ([], (p :: ps).flatMap partsOf) := by
    intro p ps
    induction ps generalizing p with
    | nil =>
        intro hp
        have hone : (paramsArgument [p]).toList = paramChars p := by
          simp [toList_paramsArgument]
        rw [hone, readPieces_paramChars (hp p List.mem_cons_self)]
        simp
    | cons q ps ih =>
        intro hall
        rw [List.forall_mem_cons] at hall
        have hcons : (paramsArgument (p :: q :: ps)).toList =
            paramChars p ++ ',' :: (paramsArgument (q :: ps)).toList := by
          simp [toList_paramsArgument]
        have hrest := ih q hall.2
        rw [hcons, splitAt_append_sep, readPieces_append (by rw [hrest]),
          readPieces_paramChars hall.1, hrest]
        rfl
  cases ps with
  | nil => rfl
  | cons p ps => rw [readParams, hread p ps hps]

/-- **What an argument of parameters keeps.**  Two lists of parameters have one
argument exactly if they read as the same parameters in the same order, each
value being parted at its commas before what begins a parameter.  So where no
value holds such a comma, parameters with one argument are the same. -/
theorem paramsArgument_eq_iff (hps : ∀ p ∈ ps, IsParamName p.1)
    (hqs : ∀ q ∈ qs, IsParamName q.1) :
    (paramsArgument ps = paramsArgument qs ↔ ps.flatMap partsOf = qs.flatMap partsOf) ∧
      ((∀ p ∈ ps, IsWhole p.2) → (∀ q ∈ qs, IsWhole q.2) →
        paramsArgument ps = paramsArgument qs → ps = qs) := by
  have hiff : paramsArgument ps = paramsArgument qs ↔
      ps.flatMap partsOf = qs.flatMap partsOf := by
    have hjoin : ∀ rs : List (String × String), (∀ r ∈ rs, IsParamName r.1) →
        (paramsArgument rs).toList = ((rs.flatMap partsOf).flatMap behindComma).tail := by
      intro rs hrs
      rw [toList_paramsArgument, List.flatMap_assoc]
      congr 1
      exact List.flatMap_congr fun r hr => (flatMap_partsOf (hrs r hr)).symm
    constructor
    · intro h
      rw [← readParams_paramsArgument hps, h, readParams_paramsArgument hqs]
    · intro h
      rw [← String.toList_inj, hjoin ps hps, hjoin qs hqs, h]
  refine ⟨hiff, fun hpwhole hqwhole h => ?_⟩
  have hwritten : ∀ rs : List (String × String), (∀ r ∈ rs, IsParamName r.1) →
      (∀ r ∈ rs, IsWhole r.2) →
      rs.flatMap partsOf = rs.map fun r => (r.1.toList, escapeChars r.2.toList) := by
    intro rs hrs hwhole
    rw [List.map_eq_flatMap]
    exact List.flatMap_congr fun r hr => partsOf_of_isWhole (hrs r hr) (hwhole r hr)
  have hsame := hiff.mp h
  rw [hwritten ps hps hpwhole, hwritten qs hqs hqwhole] at hsame
  refine List.map_injective_iff.mpr ?_ hsame
  intro p q hpq
  obtain ⟨hname, hvalue⟩ := Prod.mk.inj hpq
  exact Prod.ext (String.toList_inj.mp hname) (String.toList_inj.mp (escapeChars_injective hvalue))

/-- A value that holds a comma, a name and an equals sign. -/
def joinedParams : List (String × String) :=
  [("a", "1,b=2\\")]

/-- Two parameters in place of the one. -/
def partedParams : List (String × String) :=
  [("a", "1"), ("b", "2\\")]

/-- A value with a comma and two parameters are told apart just when their parts are. -/
theorem paramsArgument_eq_iff_joined :
    (∀ p ∈ joinedParams, IsParamName p.1) ∧ (∀ q ∈ partedParams, IsParamName q.1) ∧
      (∀ q ∈ partedParams, IsWhole q.2) ∧
      (paramsArgument joinedParams = paramsArgument partedParams ↔
        joinedParams.flatMap partsOf = partedParams.flatMap partsOf) := by
  have hjoined : ∀ p ∈ joinedParams, IsParamName p.1 := by decide
  have hparted : ∀ q ∈ partedParams, IsParamName q.1 := by decide
  exact ⟨hjoined, hparted, by decide, (paramsArgument_eq_iff hjoined hparted).1⟩

/-- A comma in a value can be taken for one between parameters. -/
theorem paramsArgument_confuses :
    ¬ ∀ ps qs : List (String × String), (ps.map (·.1)).Nodup → (qs.map (·.1)).Nodup →
      (∀ p ∈ ps, IsParamName p.1) → (∀ q ∈ qs, IsParamName q.1) →
      paramsArgument ps = paramsArgument qs → ps = qs := by
  intro h
  have hsame : joinedParams = partedParams :=
    h joinedParams partedParams (by decide) (by decide) (by decide) (by decide) (by decide)
  exact absurd hsame (by decide)

end ClientRegen.Generator
