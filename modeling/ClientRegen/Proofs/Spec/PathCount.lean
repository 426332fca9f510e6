import ClientRegen.Proofs.FileTree.Locating
import ClientRegen.Spec.Search
import Mathlib.Data.List.Nodup
import Mathlib.Data.Nat.Digits.Lemmas

/-!
# How many documents there can be

A path under which a document can be read is short, so its bytes are the digits
of a number below `pathCount`, and different paths give different numbers.  So
there are no more documents than the search allows for (`length_le_pathCount`),
and a search never stops because it has looked into too many of them.
-/

namespace ClientRegen

variable {w : World} {p q : Path} {v : Value}

namespace Path

/-- The bytes of a path, with a mark that ends them. -/
def digits (p : Path) : List ℕ :=
  p.text.toByteArray.data.toList.map UInt8.toNat ++ [1]

/-- Bytes are digits in base 256. -/
theorem lt_of_mem_digits {d : ℕ} (h : d ∈ p.digits) : d < 256 := by
  rcases List.mem_append.mp h with h | h
  · obtain ⟨b, -, rfl⟩ := List.mem_map.mp h
    exact b.toNat_lt
  · have hd : d = 1 := List.mem_singleton.mp h
    omega

/-- The mark is one digit more. -/
theorem length_digits (p : Path) : p.digits.length = p.text.utf8ByteSize + 1 := by
  rw [digits, List.length_append, List.length_map, Array.length_toList]
  rfl

/-- Different paths have different bytes. -/
theorem digits_injective : Function.Injective digits := by
  intro p q h
  have hbytes := List.append_cancel_right h
  have hlist := List.map_injective_iff.mpr (fun _ _ => UInt8.toNat_inj.mp) hbytes
  have htext := String.toByteArray_inj.mp (ByteArray.ext (Array.toList_inj.mp hlist))
  cases p
  cases q
  exact congrArg _ htext

/-- The number that the bytes of a path are the digits of. -/
def number (p : Path) : ℕ :=
  Nat.ofDigits 256 p.digits

/-- The mark keeps zeros at the end from being lost. -/
theorem digits_number (p : Path) : Nat.digits 256 p.number = p.digits := by
  refine Nat.digits_ofDigits 256 (by norm_num) _ (fun d => lt_of_mem_digits) fun h => ?_
  simp [digits]

/-- Different paths have different numbers. -/
theorem number_injective : Function.Injective number := by
  intro p q h
  have hdigits := congrArg (Nat.digits 256) h
  rw [digits_number, digits_number] at hdigits
  exact digits_injective hdigits

/-- A short path has a small number. -/
theorem number_lt {limit : ℕ} (h : p.text.utf8ByteSize ≤ limit) :
    p.number < Nat.pow 256 (limit + 1) := by
  have hlt := Nat.ofDigits_lt_base_pow_length (b := 256) (by norm_num)
    fun d (hd : d ∈ p.digits) => lt_of_mem_digits hd
  rw [length_digits] at hlt
  exact lt_of_lt_of_le hlt (Nat.pow_le_pow_right (by norm_num) (Nat.succ_le_succ h))

end Path

/-- Different naturals below a bound are no more than the bound. -/
theorem length_le_of_forall_lt {ns : List ℕ} {bound : ℕ} (hdistinct : ns.Nodup)
    (h : ∀ n ∈ ns, n < bound) : ns.length ≤ bound := by
  have hsub : ns ⊆ List.range bound := fun n hn => List.mem_range.mpr (h n hn)
  have hlength := (hdistinct.subperm hsub).length_le
  rwa [List.length_range] at hlength

/-- A document that is read is a file. -/
theorem exists_locate_of_readDocument (h : readDocument w p = .ok v) :
    ∃ l content executable, w.locate p true = .ok (.present l (.file content executable)) := by
  unfold readDocument at h
  split at h
  · cases h
  · rename_i text htext
    obtain ⟨l, executable, hlocate⟩ := readText_eq_ok_iff.mp htext
    exact ⟨l, _, executable, hlocate⟩

/-- **There are no more documents than the search allows for.** -/
theorem length_le_pathCount {ps : List Path} (hdistinct : ps.Nodup)
    (h : ∀ p ∈ ps, p.text.utf8ByteSize ≤ pathLimit) : ps.length ≤ pathCount := by
  have hlt : ∀ n ∈ ps.map Path.number, n < pathCount := by
    intro n hn
    obtain ⟨p, hp, rfl⟩ := List.mem_map.mp hn
    unfold pathCount
    exact Path.number_lt (h p hp)
  have hlength := length_le_of_forall_lt (hdistinct.map Path.number_injective) hlt
  rwa [List.length_map] at hlength

end ClientRegen
