import Mathlib.Data.List.Forall2

/-!
# Outcomes of chains of steps

A chain of steps that may fail succeeds exactly when each step does
(`bind_eq_ok_iff`), and a list of steps succeeds item by item
(`mapM_eq_ok_iff`).  Lists that are related item by item are taken apart
together.
-/

namespace ClientRegen

variable {α β γ ε : Type}

/-- What is left of an outcome is its result. -/
theorem eq_ok_of_toOption {x : Except ε α} {a : α} (h : x.toOption = some a) :
    x = .ok a := by
  cases x with
  | error e => simp [Except.toOption] at h
  | ok b => rw [Option.some.inj h]

/-- Two steps succeed when both do, one after the other. -/
theorem bind_eq_ok_iff {x : Except ε α} {f : α → Except ε β} {b : β} :
    x >>= f = .ok b ↔ ∃ a, x = .ok a ∧ f a = .ok b := by
  cases x <;> simp [bind, Except.bind]

/-- A result is changed just when there is one. -/
theorem map_eq_ok_iff {x : Except ε α} {f : α → β} {b : β} :
    x.map f = .ok b ↔ ∃ a, x = .ok a ∧ f a = b := by
  cases x <;> simp [Except.map]

/-- A list of steps succeeds item by item. -/
theorem mapM_eq_ok_iff {f : α → Except ε β} {xs : List α} {ys : List β} :
    xs.mapM f = .ok ys ↔ List.Forall₂ (fun x y => f x = .ok y) xs ys := by
  induction xs generalizing ys with
  | nil => cases ys <;> simp [pure, Except.pure]
  | cons x xs ih =>
      rw [List.mapM_cons, bind_eq_ok_iff]
      constructor
      · rintro ⟨y, hy, h⟩
        obtain ⟨ys', hys', h⟩ := bind_eq_ok_iff.mp h
        cases h
        exact .cons hy (ih.mp hys')
      · rintro (_ | ⟨hy, hys⟩)
        exact ⟨_, hy, bind_eq_ok_iff.mpr ⟨_, ih.mpr hys, rfl⟩⟩

/-- Steps that succeed one by one succeed as a list. -/
theorem exists_mapM_eq_ok {f : α → Except ε β} {xs : List α} (h : ∀ x ∈ xs, ∃ y, f x = .ok y) :
    ∃ ys, xs.mapM f = .ok ys := by
  induction xs with
  | nil => exact ⟨[], rfl⟩
  | cons x xs ih =>
      rw [List.forall_mem_cons] at h
      obtain ⟨y, hy⟩ := h.1
      obtain ⟨ys, hys⟩ := ih h.2
      exact ⟨y :: ys, mapM_eq_ok_iff.mpr (.cons hy (mapM_eq_ok_iff.mp hys))⟩

/-- Items that are read in two parts are read one part after the other. -/
theorem forall₂_append_left {R : α → β → Prop} {xs xs' : List α} {ys : List β}
    (h : List.Forall₂ R (xs ++ xs') ys) :
    ∃ zs zs', ys = zs ++ zs' ∧ List.Forall₂ R xs zs ∧ List.Forall₂ R xs' zs' := by
  induction xs generalizing ys with
  | nil => exact ⟨[], ys, rfl, .nil, h⟩
  | cons x xs ih =>
      cases h with
      | cons hxy htail =>
          obtain ⟨zs, zs', rfl, hzs, hzs'⟩ := ih htail
          exact ⟨_ :: zs, zs', rfl, .cons hxy hzs, hzs'⟩

/-- Lists that are related to one in the middle are related. -/
theorem forall₂_trans {R : α → β → Prop} {S : β → γ → Prop} {T : α → γ → Prop} {xs : List α}
    {ys : List β} {zs : List γ} (h : List.Forall₂ R xs ys) (h' : List.Forall₂ S ys zs)
    (htrans : ∀ x y z, R x y → S y z → T x z) : List.Forall₂ T xs zs := by
  induction h generalizing zs with
  | nil =>
      cases h'
      exact .nil
  | cons hxy _ ih =>
      cases h' with
      | cons hyz hyzs => exact .cons (htrans _ _ _ hxy hyz) (ih hyzs)

/-- An item on the left has one on the right. -/
theorem exists_of_mem_left {R : α → β → Prop} {xs : List α} {ys : List β} {x : α}
    (h : List.Forall₂ R xs ys) (hx : x ∈ xs) : ∃ y ∈ ys, R x y := by
  induction h with
  | nil => cases hx
  | @cons x' y xs ys hxy _ ih =>
      rcases List.mem_cons.mp hx with rfl | hx
      · exact ⟨y, List.mem_cons_self, hxy⟩
      · obtain ⟨z, hz, hR⟩ := ih hx
        exact ⟨z, List.mem_cons_of_mem _ hz, hR⟩

/-- An item on the right has one on the left. -/
theorem exists_of_mem_right {R : α → β → Prop} {xs : List α} {ys : List β} {y : β}
    (h : List.Forall₂ R xs ys) (hy : y ∈ ys) : ∃ x ∈ xs, R x y :=
  exists_of_mem_left h.flip hy

/-- Items that are related are kept or left out together. -/
theorem map_filter_eq_of_forall₂ {R : α → β → Prop} {xs : List α} {ys : List β}
    {p : α → Bool} {q : β → Bool} {f : α → γ} {g : β → γ} (h : List.Forall₂ R xs ys)
    (hpq : ∀ x ∈ xs, ∀ y ∈ ys, R x y → p x = q y) (hfg : ∀ x y, R x y → f x = g y) :
    (xs.filter p).map f = (ys.filter q).map g := by
  induction h with
  | nil => rfl
  | @cons x y xs ys hxy _ ih =>
      have hrest := ih fun x' hx' y' hy' =>
        hpq x' (List.mem_cons_of_mem _ hx') y' (List.mem_cons_of_mem _ hy')
      rw [List.filter_cons, List.filter_cons,
        hpq x List.mem_cons_self y List.mem_cons_self hxy]
      cases q y with
      | false => exact hrest
      | true => rw [if_pos rfl, if_pos rfl, List.map_cons, List.map_cons, hfg x y hxy, hrest]

/-- Items that are related are told apart together, so the first ones of each
kind are related. -/
theorem forall₂_eraseDupsBy {R : α → β → Prop} {r : α → α → Bool} {s : β → β → Bool}
    {xs : List α} {ys : List β} (h : List.Forall₂ R xs ys)
    (hsame : ∀ x y x' y', R x y → R x' y' → r x x' = s y y') :
    List.Forall₂ R (xs.eraseDupsBy r) (ys.eraseDupsBy s) := by
  have hloop : ∀ {xs ys seen seen'}, List.Forall₂ R xs ys → List.Forall₂ R seen seen' →
      List.Forall₂ R (List.eraseDupsBy.loop r xs seen) (List.eraseDupsBy.loop s ys seen') := by
    intro xs ys seen seen' h hseen
    induction h generalizing seen seen' with
    | nil => exact List.forall₂_reverse_iff.mpr hseen
    | @cons x y xs ys hxy _ ih =>
        have hany : seen.any (r x) = seen'.any (s y) := by
          clear ih
          induction hseen with
          | nil => rfl
          | cons hxy' _ ih => rw [List.any_cons, List.any_cons, hsame _ _ _ _ hxy hxy', ih]
        rw [List.eraseDupsBy.loop, List.eraseDupsBy.loop, hany]
        cases seen'.any (s y) with
        | true => exact ih hseen
        | false => exact ih (.cons hxy hseen)
  exact hloop h .nil

end ClientRegen
