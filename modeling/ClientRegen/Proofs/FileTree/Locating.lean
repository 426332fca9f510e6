import ClientRegen.FileTree.World
import ClientRegen.Proofs.Path.Moves

/-!
# Where paths lead

Whatever links are followed on the way, a path that leads to an entry leads to
the location where the entry stands (`at?_of_locate`), and a text that is read
stands in the file that the path leads to (`readText_eq_ok_iff`).  A name is a
path of one step, and leads to what stands under it in the working directory
(`locate_name`).
-/

namespace ClientRegen

variable {root e : Entry} {follow : Bool} {links : Nat} {here l : Location} {steps : List String}
  {w : World} {p : Path} {es : List (String × Entry)} {n : String}

theorem at?_concat (h : root.at? here = some (.dir es)) {step : String}
    (hstep : es.lookup step = some e) : root.at? (here ++ [step]) = some e := by
  rw [Entry.at?_append, h, Option.bind_some, Entry.at?_cons, Entry.entries, hstep]
  exact Entry.at?_nil

/-- A walk that arrives at an entry tells where it stands. -/
theorem at?_of_walk (h : walk root follow links here steps = .ok (.present l e)) :
    root.at? l = some e := by
  fun_induction walk root follow links here steps with
  | case1 links here e' hhere =>
      cases h
      exact hhere
  | case6 links here rest es hhere ih => exact ih h
  | case7 links here rest es hhere hdot ih => exact ih h
  | case11 links here step es hhere hdot hdots hlimit content executable hstep =>
      cases h
      exact at?_concat hhere hstep
  | case13 links here step rest es hhere hdot hdots hlimit es' hstep ih => exact ih h
  | case14 links here step rest es hhere hdot hdots hlimit target hstep hend =>
      cases h
      exact at?_concat hhere hstep
  | case16 here step rest es hhere hdot hdots hlimit target hstep hend links ih => exact ih h
  | _ => cases h

/-- What the operating system asks of the text of a path before it walks. -/
theorem locate_eq_ok_iff {place : Place} : w.locate p follow = .ok place ↔
    (p.text.toList.any fun c => c.toNat == 0) = false ∧ p.text ≠ "" ∧
      p.text.utf8ByteSize ≤ pathLimit ∧
      walk w.root follow linkLimit (if p.isAbsolute then [] else w.cwd) (stepsOf p.text) =
        .ok place := by
  unfold World.locate
  split
  · rename_i hnul
    simp [hnul]
  · rename_i hnul
    rw [Bool.not_eq_true] at hnul
    split
    · rename_i hempty
      simp [hempty]
    · rename_i hempty
      split
      · rename_i hlong
        simp [Nat.not_le.mpr hlong]
      · rename_i hlong
        simp only [hnul, true_and, ne_eq, hempty, not_false_eq_true, Nat.not_lt.mp hlong]

/-- A path that leads to an entry leads to where it stands. -/
theorem at?_of_locate (h : w.locate p follow = .ok (.present l e)) : w.root.at? l = some e :=
  at?_of_walk (locate_eq_ok_iff.mp h).2.2.2

/-- A path leads to an entry somewhere. -/
theorem entry?_eq_ok_iff : w.entry? p = .ok e ↔ ∃ l, w.locate p true = .ok (.present l e) := by
  rw [World.entry?, World.find]
  cases w.locate p true with
  | error fault => simp
  | ok place => cases place <;> simp

theorem directory?_eq_some_iff :
    w.directory? p = some (l, es) ↔ w.locate p true = .ok (.present l (.dir es)) := by
  unfold World.directory?
  split
  · rename_i hlocate
    simp [hlocate]
  · rename_i hother
    exact iff_of_false (by simp) (hother l es)

theorem isDir_iff : w.isDir p = true ↔ ∃ l es, w.directory? p = some (l, es) := by
  have hdir : w.isDir p = true ↔ ∃ es, w.entry? p = .ok (.dir es) := by
    rw [World.isDir]
    cases w.entry? p with
    | error fault => simp
    | ok e => cases e <;> simp [Entry.isDir]
  simp only [hdir, entry?_eq_ok_iff, directory?_eq_some_iff]
  exact exists_comm

theorem at?_of_directory? (h : w.directory? p = some (l, es)) : w.root.at? l = some (.dir es) :=
  at?_of_locate (directory?_eq_some_iff.mp h)

/-- A path that leads to a file leads to where it stands. -/
theorem exists_locate_of_isFile (h : w.isFile p = true) :
    ∃ l content executable, w.locate p true = .ok (.present l (.file content executable)) := by
  rw [World.isFile] at h
  cases hentry : w.entry? p with
  | error fault => simp [hentry] at h
  | ok e =>
      rw [hentry] at h
      obtain ⟨l, hlocate⟩ := entry?_eq_ok_iff.mp hentry
      cases e with
      | file content executable => exact ⟨l, content, executable, hlocate⟩
      | link target => simp [Entry.isFile] at h
      | dir es => simp [Entry.isFile] at h

/-- What a path leads to is a file when a file stands there. -/
theorem isFile_of_locate {l : Location} {content : ByteArray} {executable : Bool}
    (h : w.locate p true = .ok (.present l (.file content executable))) : w.isFile p = true := by
  rw [World.isFile, World.entry?, World.find, h]
  rfl

/-! ## Texts and bytes -/

/-- Bytes that were made of a text hold this text. -/
theorem textOf_toUTF8 (text : String) : World.textOf text.toUTF8 = .ok text := by
  have hvalid : text.toUTF8.IsValidUTF8 := text.isValidUTF8
  rw [World.textOf, String.fromUTF8?, dif_pos hvalid]
  rfl

/-- A text that was read is the text of the bytes. -/
theorem toUTF8_of_textOf {bytes : ByteArray} {text : String} (h : World.textOf bytes = .ok text) :
    text.toUTF8 = bytes := by
  unfold World.textOf at h
  split at h
  · rename_i s hs
    cases h
    unfold String.fromUTF8? at hs
    split at hs
    · cases hs
      rfl
    · cases hs
  · cases h

/-- **A text that was read stands in a file.** -/
theorem readText_eq_ok_iff {text : String} : w.readText p = .ok text ↔
    ∃ l executable, w.locate p true = .ok (.present l (.file text.toUTF8 executable)) := by
  rw [World.readText, World.readBytes, World.entry?, World.find]
  constructor
  · intro h
    cases hlocate : w.locate p true with
    | error fault => simp [hlocate] at h
    | ok place =>
        rw [hlocate] at h
        cases place with
        | vacant l n => cases h
        | present l e =>
            cases e with
            | file content executable => exact ⟨l, executable, by rw [toUTF8_of_textOf h]⟩
            | link target => cases h
            | dir es => cases h
  · rintro ⟨l, executable, hlocate⟩
    rw [hlocate]
    exact textOf_toUTF8 text

/-! ## Paths of one step -/

theorem stepsOf_name (hn : IsEntryName n) : stepsOf n = [n] := by
  have hne : n.toList ≠ [] := fun h => hn.ne_empty (String.toList_eq_nil_iff.mp h)
  have hopen : n.toList.getLast? ≠ some '/' := fun h =>
    hn.slash_notMem (List.mem_of_getLast? h)
  simp [stepsOf, splitAt_of_notMem hn.slash_notMem, hopen, hne]

/-- A name leads to what stands under it, unless that is a link. -/
theorem locate_name (hn : IsEntryName n) (hnul : (n.toList.any fun c => c.toNat == 0) = false)
    (hlimit : n.utf8ByteSize ≤ nameLimit) (hcwd : w.root.at? w.cwd = some (.dir es))
    (he : es.lookup n = some e) (hlink : ∀ target, e ≠ .link target) (follow : Bool) :
    w.locate ⟨n⟩ follow = .ok (.present (w.cwd ++ [n]) e) := by
  have hpath : ¬ n.utf8ByteSize > pathLimit := by
    have : nameLimit ≤ pathLimit := by decide
    omega
  rw [World.locate, hnul, if_neg Bool.false_ne_true, if_neg hn.ne_empty, if_neg hpath,
    isAbsolute_name hn.slash_notMem, if_neg Bool.false_ne_true, stepsOf_name hn, walk, hcwd]
  simp only [hn.ne_dot, hn.ne_dots, Nat.not_lt.mpr hlimit, he, if_false]
  cases e with
  | file content executable => rfl
  | link target => exact absurd rfl (hlink target)
  | dir es' =>
      dsimp only
      rw [walk, at?_concat hcwd he]

/-- A text in a file of the working directory is read. -/
theorem readText_name {text : String} {executable : Bool} (hn : IsEntryName n)
    (hnul : (n.toList.any fun c => c.toNat == 0) = false) (hlimit : n.utf8ByteSize ≤ nameLimit)
    (hcwd : w.root.at? w.cwd = some (.dir es))
    (he : es.lookup n = some (.file text.toUTF8 executable)) : w.readText ⟨n⟩ = .ok text := by
  exact readText_eq_ok_iff.mpr ⟨_, _, locate_name hn hnul hlimit hcwd he (by simp) true⟩

end ClientRegen
