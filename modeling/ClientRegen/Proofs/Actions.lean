import ClientRegen.FileTree.Action

/-!
# What chains of actions come to

A chain of two actions succeeds when both do, the second in the world that the
first one leaves, and it fails when one of them does, in the world as it is
then.  An action that only looks leaves the world as it is.
-/

namespace ClientRegen

namespace Action

variable {α β : Type} {x : Action α} {f : α → Action β} {w w' : World} {b : β} {fault : Failure}

/-- Two actions succeed one after the other, with a world between them. -/
theorem bind_eq_ok_iff :
    (x >>= f) w = .ok b w' ↔ ∃ a between, x w = .ok a between ∧ f a between = .ok b w' := by
  change EStateM.bind x f w = _ ↔ _
  rw [EStateM.bind]
  cases x w <;> simp [and_assoc]

/-- One after the other they fail where the first fails, or where the second does after it. -/
theorem bind_eq_error_iff :
    (x >>= f) w = .error fault w' ↔ x w = .error fault w' ∨
      ∃ a between, x w = .ok a between ∧ f a between = .error fault w' := by
  change EStateM.bind x f w = _ ↔ _
  rw [EStateM.bind]
  cases x w <;> simp [and_assoc]

theorem pure_eq_ok_iff {a : β} : (pure a : Action β) w = .ok b w' ↔ a = b ∧ w = w' := by
  change EStateM.Result.ok a w = _ ↔ _
  simp

theorem mapM_nil_eq_ok_iff {g : α → Action β} {bs : List β} :
    ([] : List α).mapM g w = .ok bs w' ↔ bs = [] ∧ w = w' := by
  rw [List.mapM_nil, pure_eq_ok_iff, eq_comm]

/-- A list of actions is done one action after the other. -/
theorem mapM_cons_eq_ok_iff {g : α → Action β} {a : α} {as : List α} {bs : List β} :
    (a :: as).mapM g w = .ok bs w' ↔ ∃ b between bs', g a w = .ok b between ∧
      as.mapM g between = .ok bs' w' ∧ bs = b :: bs' := by
  simp only [List.mapM_cons, bind_eq_ok_iff, pure_eq_ok_iff]
  constructor
  · rintro ⟨b, between, hfirst, bs', end', hrest, rfl, rfl⟩
    exact ⟨b, between, bs', hfirst, hrest, rfl⟩
  · rintro ⟨b, between, bs', hfirst, hrest, rfl⟩
    exact ⟨b, between, hfirst, bs', w', hrest, rfl, rfl⟩

/-- **A list of actions fails at one of them,** when those before it are done. -/
theorem exists_of_mapM_eq_error {g : α → Action β} {as : List α}
    (h : as.mapM g w = .error fault w') : ∃ front a back bs between,
      as = front ++ a :: back ∧ front.mapM g w = .ok bs between ∧
        g a between = .error fault w' := by
  induction as generalizing w with
  | nil => cases h
  | cons a as ih =>
      rw [List.mapM_cons] at h
      rcases bind_eq_error_iff.mp h with hfirst | ⟨b, between, hfirst, hrest⟩
      · exact ⟨[], a, as, [], w, rfl, mapM_nil_eq_ok_iff.mpr ⟨rfl, rfl⟩, hfirst⟩
      · rcases bind_eq_error_iff.mp hrest with hrest | ⟨bs, after, -, hpure⟩
        · obtain ⟨front, a', back, bs, last, rfl, hfront, hfault⟩ := ih hrest
          exact ⟨a :: front, a', back, b :: bs, last, rfl,
            mapM_cons_eq_ok_iff.mpr ⟨b, between, bs, hfirst, hfront, rfl⟩, hfault⟩
        · cases hpure

/-- A question leaves the world as it is. -/
theorem look_eq_ok_iff {question : World → Except Failure β} :
    look question w = .ok b w' ↔ question w = .ok b ∧ w = w' := by
  rw [look]
  cases question w <;> simp

/-- So does one that fails. -/
theorem look_eq_error_iff {question : World → Except Failure β} :
    look question w = .error fault w' ↔ question w = .error fault ∧ w = w' := by
  rw [look]
  cases question w <;> simp

/-- A change leaves the world that it makes. -/
theorem change_eq_ok_iff {work : World → Except Failure (β × World)} :
    change work w = .ok b w' ↔ work w = .ok (b, w') := by
  rw [change]
  cases work w <;> simp [Prod.ext_iff]

/-- One that fails leaves the world as it was. -/
theorem change_eq_error_iff {work : World → Except Failure (β × World)} :
    change work w = .error fault w' ↔ work w = .error fault ∧ w = w' := by
  rw [change]
  cases work w <;> simp

/-- An operation on a path leaves the world that it makes. -/
theorem onPath_eq_ok_iff {p : Path} {operation : World → Except FileFault World} {u : Unit} :
    onPath p operation w = .ok u w' ↔ operation w = .ok w' := by
  rw [onPath, change_eq_ok_iff]
  cases operation w <;> simp

/-- Where it fails, the fault is reported with the path and the world stays. -/
theorem onPath_eq_error_iff {p : Path} {operation : World → Except FileFault World} :
    onPath p operation w = .error fault w' ↔
      (∃ cause, operation w = .error cause ∧ .file p cause = fault) ∧ w = w' := by
  rw [onPath, change_eq_error_iff]
  cases operation w <;> simp

end Action

end ClientRegen
