import ClientRegen.Proofs.ClearingSteps
import ClientRegen.Proofs.Text.ByteOrder

/-!
# What the report says

The report counts the entries that have vanished: clearing removes one entry
after another, each of them once (`clear_trace`).

It lists the entries that clearing did not look into: those on the list in no
directory that is on the list itself.  The recursion meets the locations of the
tree depth first (`Entry.locations`), and what it lists is what a filter finds
among them (`kept_clearEntry`).  So the list holds each of these entries once,
and stands in the order of their locations (`kept_clear`).
-/

namespace ClientRegen

variable {ignored : List String} {e : Entry} {es : List (String × Entry)} {n relative : String}
  {d l r s : Location} {w w' : World} {p : Path} {report : ClearReport}

/-! ## The locations of a tree -/

mutual

/-- The locations of a tree, depth first and by the order of names. -/
def Entry.locations : Entry → List Location
  | .file _ _ => [[]]
  | .link _ => [[]]
  | .dir es => [] :: locationsIn es

/-- The locations of what is in a directory. -/
def locationsIn : List (String × Entry) → List Location
  | [] => []
  | (n, e) :: es => e.locations.map (n :: ·) ++ locationsIn es

end

/-- Whether one location is before another depth first and by the byte order of
names. -/
def Precedes (k l : Location) : Prop :=
  List.Lex ByteBefore k l

/-- No two texts stand before each other. -/
theorem ByteBefore.asymm {s t : String} (h : ByteBefore s t) : ¬ ByteBefore t s :=
  List.lex_asymm (fun hlt hlt' => absurd hlt' (UInt8.lt_asymm hlt)) h

/-- Nor do two locations. -/
theorem Precedes.asymm (h : Precedes r s) : ¬ Precedes s r :=
  List.lex_asymm (fun hlt => ByteBefore.asymm hlt) h

instance : Std.Irrefl Precedes :=
  ⟨fun _ h => h.asymm h⟩

instance : Std.Antisymm Precedes :=
  ⟨fun _ _ h h' => absurd h' h.asymm⟩

/-- What is in a directory is what is at and below each of its entries. -/
theorem locationsIn_eq (es : List (String × Entry)) :
    locationsIn es = es.flatMap fun q => q.2.locations.map (q.1 :: ·) := by
  induction es with
  | nil => rw [locationsIn, List.flatMap_nil]
  | cons q es ih => rw [locationsIn, ih, List.flatMap_cons]

/-- It is not the directory itself. -/
theorem ne_nil_of_mem_locationsIn (h : r ∈ locationsIn es) : r ≠ [] := by
  rw [locationsIn_eq, List.mem_flatMap] at h
  obtain ⟨q, -, hr⟩ := h
  obtain ⟨s, -, rfl⟩ := List.mem_map.mp hr
  exact List.cons_ne_nil _ _

/-- A tree is met before what is in it. -/
theorem locations_eq (e : Entry) : e.locations = [] :: locationsIn e.entries := by
  cases e <;> rfl

/-- **The locations of a tree are those at which something stands.** -/
theorem mem_locations (h : e.WellFormed) : r ∈ e.locations ↔ (e.at? r).isSome := by
  induction h generalizing r with
  | file | link =>
      cases r with
      | nil => simp [Entry.locations]
      | cons n r => simp [Entry.locations, Entry.at?_cons, Entry.entries]
  | @dir es hordered hname hentry ih =>
      cases r with
      | nil => simp [Entry.locations]
      | cons n r =>
          rw [locations_eq, List.mem_cons, or_iff_right (List.cons_ne_nil n r), Entry.at?_cons,
            locationsIn_eq, List.mem_flatMap]
          constructor
          · rintro ⟨⟨m, x⟩, hmem, hr⟩
            obtain ⟨s, hs, heq⟩ := List.mem_map.mp hr
            obtain ⟨rfl, rfl⟩ := List.cons.inj heq
            rw [Entry.entries, hordered.lookup_eq hmem]
            exact (ih _ hmem).mp hs
          · intro hr
            cases hx : es.lookup n with
            | none => simp [Entry.entries, hx] at hr
            | some x =>
                rw [Entry.entries, hx, Option.bind_some] at hr
                have hmem := mem_of_lookup hx
                exact ⟨(n, x), hmem, List.mem_map.mpr ⟨r, (ih _ hmem).mpr hr, rfl⟩⟩

/-- **The locations of a tree come in their order.** -/
theorem pairwise_locations (h : e.WellFormed) : e.locations.Pairwise Precedes := by
  induction h with
  | file | link =>
      rw [Entry.locations]
      exact List.pairwise_singleton _ _
  | @dir es hordered hname hentry ih =>
      rw [Entry.locations, List.pairwise_cons]
      constructor
      · intro r hr
        obtain ⟨n, r, rfl⟩ := List.exists_cons_of_ne_nil (ne_nil_of_mem_locationsIn hr)
        exact .nil
      · rw [locationsIn_eq, List.pairwise_flatMap]
        refine ⟨fun q hq => ?_, hordered.imp fun {q q'} hlt r hr s hs => ?_⟩
        · exact (ih q hq).map _ fun _ _ hlex => .cons hlex
        · obtain ⟨r, -, rfl⟩ := List.mem_map.mp hr
          obtain ⟨s, -, rfl⟩ := List.mem_map.mp hs
          exact .rel (byteBefore_of_lt hlt)

/-! ## What is listed -/

/-- Whether the entry at `r` below an entry that stands at `d` is on the list,
and no directory around it is, up to the entry itself. -/
def FirstListed (ignored : List String) (d r : Location) : Prop :=
  pathBelow (d ++ r) ∈ ignored ∧
    ∀ a, d ++ a ≠ [] → a <+: r → a ≠ r → pathBelow (d ++ a) ∉ ignored

instance (ignored : List String) (d r : Location) : Decidable (FirstListed ignored d r) :=
  decidable_of_iff (pathBelow (d ++ r) ∈ ignored ∧
      ∀ a ∈ r.inits, d ++ a ≠ [] → a ≠ r → pathBelow (d ++ a) ∉ ignored) <| by
    unfold FirstListed
    simp only [List.mem_inits]
    exact and_congr_right fun _ =>
      ⟨fun h a hne hprefix => h a hprefix hne, fun h a hprefix hne => h a hne hprefix⟩

/-- In a directory that is not on the list, an entry is told from its own
directory. -/
theorem firstListed_cons (hd : d ≠ [] → pathBelow d ∉ ignored) :
    FirstListed ignored d (n :: r) ↔ FirstListed ignored (d ++ [n]) r := by
  have hmove : ∀ a, d ++ n :: a = d ++ [n] ++ a := by simp
  unfold FirstListed
  rw [hmove]
  refine and_congr_right fun _ => ⟨fun h a _ hprefix hne => ?_, fun h a hda hprefix hne => ?_⟩
  · rw [← hmove]
    exact h (n :: a) (by simp) (List.cons_prefix_cons.mpr ⟨rfl, hprefix⟩) (by simpa using hne)
  · cases a with
    | nil =>
        rw [List.append_nil] at hda ⊢
        exact hd hda
    | cons m a =>
        obtain ⟨rfl, htail⟩ := List.cons_prefix_cons.mp hprefix
        rw [hmove]
        exact h a (by simp) htail (by simpa using hne)

/-- The paths that are listed among some locations below an entry at `d`. -/
def listedAmong (ignored : List String) (d : Location) (rs : List Location) : List String :=
  (rs.filter fun r => FirstListed ignored d r).map fun r => pathBelow (d ++ r)

/-- What is listed in a directory is what is listed in its entries. -/
theorem kept_clearEntries (hd : pathBelow d = "" → d = [])
    (hlisted : d ≠ [] → pathBelow d ∉ ignored)
    (hentries : ∀ q ∈ es, (clearEntry ignored (pathBelow (d ++ [q.1])) q.2).2.kept =
      listedAmong ignored (d ++ [q.1]) q.2.locations) :
    (clearEntries ignored (pathBelow d) es).2.kept = listedAmong ignored d (locationsIn es) := by
  induction es with
  | nil => rfl
  | cons q es ih =>
      obtain ⟨n, x⟩ := q
      rw [List.forall_mem_cons] at hentries
      have hkept : (clearEntries ignored (pathBelow d) ((n, x) :: es)).2.kept =
          (clearEntry ignored (relativePath (pathBelow d) n) x).2.kept ++
            (clearEntries ignored (pathBelow d) es).2.kept := by
        rw [clearEntries]
        rfl
      have hfilter : (x.locations.map (n :: ·)).filter (fun r => FirstListed ignored d r) =
          (x.locations.filter fun r => FirstListed ignored (d ++ [n]) r).map (n :: ·) := by
        rw [List.filter_map]
        simp only [Function.comp_def, firstListed_cons hlisted]
      rw [hkept, relativePath_pathBelow hd, hentries.1, ih hentries.2, locationsIn, listedAmong,
        listedAmong, listedAmong, List.filter_append, List.map_append, hfilter, List.map_map]
      simp [Function.comp_def]

theorem firstListed_nil : FirstListed ignored d [] ↔ pathBelow d ∈ ignored := by
  unfold FirstListed
  rw [List.append_nil]
  exact and_iff_left fun a _ hprefix hne => absurd (List.prefix_nil.mp hprefix) hne

/-- Of an entry on the list nothing is listed but the entry. -/
theorem listedAmong_of_mem (hd : d ≠ []) (hmem : pathBelow d ∈ ignored) (e : Entry) :
    listedAmong ignored d e.locations = [pathBelow d] := by
  have hnone : (locationsIn e.entries).filter (fun r => FirstListed ignored d r) = [] := by
    refine List.filter_eq_nil_iff.mpr fun r hr => ?_
    rw [decide_eq_true_eq]
    intro hfirst
    have hempty := hfirst.2 [] (by simpa using hd) List.nil_prefix
      (ne_nil_of_mem_locationsIn hr).symm
    rw [List.append_nil] at hempty
    exact hempty hmem
  have hself : decide (FirstListed ignored d []) = true :=
    decide_eq_true (firstListed_nil.mpr hmem)
  rw [locations_eq, listedAmong, List.filter_cons, if_pos hself, hnone]
  simp

/-- An entry that is not on the list itself is passed over. -/
theorem listedAmong_of_notMem (hmem : pathBelow d ∉ ignored) (e : Entry) :
    listedAmong ignored d e.locations = listedAmong ignored d (locationsIn e.entries) := by
  have hself : ¬ decide (FirstListed ignored d []) = true := by
    rw [decide_eq_true_eq, firstListed_nil]
    exact hmem
  rw [locations_eq, listedAmong, listedAmong, List.filter_cons, if_neg hself]

/-- A directory that is looked into is reported by what is kept in it. -/
theorem kept_clearEntry_dir (h : isIgnored relative ignored = false) :
    (clearEntry ignored relative (.dir es)).2.kept = (clearEntries ignored relative es).2.kept := by
  rw [clearEntry, h, if_neg Bool.false_ne_true]
  split <;> rename_i hclear <;> rw [hclear]

/-- **What is listed in a tree** are the first entries on the list. -/
theorem kept_clearEntry (h : e.WellFormed) (hd : pathBelow d ≠ "") :
    (clearEntry ignored (pathBelow d) e).2.kept = listedAmong ignored d e.locations := by
  have hne : ∀ {d : Location}, pathBelow d ≠ "" → d ≠ [] := by
    rintro _ hd rfl
    exact hd String.intercalate_nil
  have hon : ∀ d, isIgnored (pathBelow d) ignored = true ↔ pathBelow d ∈ ignored := by
    simp [isIgnored]
  have hoff : ∀ {d}, pathBelow d ∉ ignored → isIgnored (pathBelow d) ignored = false := by
    intro d hmem
    exact Bool.eq_false_iff.mpr fun h => hmem ((hon d).mp h)
  induction h generalizing d with
  | file | link =>
      by_cases hmem : pathBelow d ∈ ignored
      · rw [clearEntry_of_ignored ((hon d).mpr hmem), listedAmong_of_mem (hne hd) hmem]
      · rw [clearEntry, hoff hmem, if_neg Bool.false_ne_true, listedAmong_of_notMem hmem]
        rfl
  | @dir es hordered hname hentry ih =>
      by_cases hmem : pathBelow d ∈ ignored
      · rw [clearEntry_of_ignored ((hon d).mpr hmem), listedAmong_of_mem (hne hd) hmem]
      · rw [kept_clearEntry_dir (hoff hmem), listedAmong_of_notMem hmem]
        exact kept_clearEntries (fun hempty => absurd hempty hd) (fun _ => hmem) fun q hq =>
          ih q hq (pathBelow_concat_ne (hname q hq).ne_empty d)

/-- Whether the entry at `r` below the directory that a path leads to is on the
list, and no directory around it is. -/
def TopListed (ignored : List String) (w : World) (p : Path) (r : Location) : Prop :=
  ∃ l es, w.directory? p = some (l, es) ∧ r ≠ [] ∧ (w.root.at? (l ++ r)).isSome ∧
    pathBelow r ∈ ignored ∧ ∀ a, a ≠ [] → a <+: r → a ≠ r → pathBelow a ∉ ignored

/-- What is listed in a directory is told by its entries. -/
theorem topListed_iff_of_directory? (hdir : w.directory? p = some (l, es)) :
    TopListed ignored w p r ↔ r ≠ [] ∧ (w.root.at? (l ++ r)).isSome ∧ pathBelow r ∈ ignored ∧
      ∀ a, a ≠ [] → a <+: r → a ≠ r → pathBelow a ∉ ignored := by
  rw [TopListed, hdir]
  constructor
  · rintro ⟨l', es', hdir', hlisted⟩
    obtain ⟨rfl, rfl⟩ := Prod.mk.inj (Option.some.inj hdir')
    exact hlisted
  · intro hlisted
    exact ⟨l, es, rfl, hlisted⟩

/-- **The list in the report** holds the paths of the entries on the list in no
directory on the list, in the order of their locations. -/
theorem kept_clear (hw : w.root.WellFormed) (h : clear w p ignored = .ok (report, w')) :
    ∃ kept : List Location, report.kept = kept.map pathBelow ∧ kept.Pairwise Precedes ∧
      ∀ r, r ∈ kept ↔ TopListed ignored w p r := by
  rcases clear_cases h with ⟨l, es, hdir, rfl, -⟩ | ⟨hdir, rfl, -⟩
  · have hl := at?_of_directory? hdir
    have hwf : (Entry.dir es).WellFormed := hw.of_at? hl
    have hsorted := pairwise_locations hwf
    rw [Entry.locations, List.pairwise_cons] at hsorted
    refine ⟨(locationsIn es).filter fun r => FirstListed ignored [] r, ?_,
      hsorted.2.filter _, fun r => ?_⟩
    · have hkept : (clearEntries ignored (pathBelow []) es).2.kept =
          listedAmong ignored [] (locationsIn es) := by
        refine kept_clearEntries (fun _ => rfl) (fun hne => absurd rfl hne) fun q hq => ?_
        cases hwf with
        | dir _ hname hentry =>
            exact kept_clearEntry (hentry q hq) (pathBelow_concat_ne (hname q hq).ne_empty [])
      have hempty : pathBelow [] = "" := String.intercalate_nil
      rw [hempty] at hkept
      rw [hkept, listedAmong]
      simp
    · have hmem : r ∈ locationsIn es ↔ r ≠ [] ∧ (w.root.at? (l ++ r)).isSome := by
        rw [Entry.at?_append, hl, Option.bind_some, ← mem_locations hwf, Entry.locations,
          List.mem_cons]
        constructor
        · intro hr
          exact ⟨ne_nil_of_mem_locationsIn hr, Or.inr hr⟩
        · rintro ⟨hne, hr⟩
          exact hr.resolve_left hne
      rw [List.mem_filter, decide_eq_true_eq, hmem, topListed_iff_of_directory? hdir, and_assoc]
      rfl
  · refine ⟨[], rfl, .nil, fun r => iff_of_false List.not_mem_nil ?_⟩
    rintro ⟨l, es, hdir', -⟩
    rw [hdir] at hdir'
    cases hdir'

/-! ## The report -/

/-- Slashes tell the names on a path apart. -/
theorem splitOn_pathBelow (hr : r ≠ []) (hnames : ∀ n ∈ r, IsEntryName n) :
    (pathBelow r).toList.splitOn '/' = r.map String.toList := by
  rw [pathBelow, String.toList_intercalate]
  refine List.splitOn_intercalate '/' (fun cs hcs => ?_) (by simpa using hr)
  obtain ⟨n, hn, rfl⟩ := List.mem_map.mp hcs
  exact (hnames n hn).slash_notMem

/-- Different entries have different paths. -/
theorem eq_of_pathBelow_eq (hr : r ≠ []) (hs : s ≠ []) (hr' : ∀ n ∈ r, IsEntryName n)
    (hs' : ∀ n ∈ s, IsEntryName n) (h : pathBelow r = pathBelow s) : r = s := by
  have hnames : r.map String.toList = s.map String.toList := by
    rw [← splitOn_pathBelow hr hr', ← splitOn_pathBelow hs hs', h]
  exact List.map_injective_iff.mpr (fun _ _ h => String.toList_injective h) hnames

/-- The entry that is listed has a name, as those around it have. -/
theorem TopListed.isEntryName (h : TopListed ignored w p r) (hw : w.root.WellFormed) :
    r ≠ [] ∧ ∀ n ∈ r, IsEntryName n := by
  obtain ⟨l, es, -, hne, hsome, -⟩ := h
  obtain ⟨x, hx⟩ := Option.isSome_iff_exists.mp hsome
  exact ⟨hne, fun n hn => hw.isEntryName hx n (List.mem_append_right l hn)⟩

/-- **The report accounts for the whole change.**  It counts the files and links
that have vanished, and the directories; and it lists the paths of the entries
that are on the list in no directory on the list, each once, depth first and by
the byte order of names. -/
theorem clear_accounts (hw : w.root.WellFormed) (h : clear w p ignored = .ok (report, w')) :
    (vanished (· ≠ .dir) w.root w'.root).encard = report.filesRemoved ∧
      (vanished (· = .dir) w.root w'.root).encard = report.dirsRemoved ∧
      report.kept.Nodup ∧
      ∃ kept : List Location, report.kept = kept.map pathBelow ∧ kept.Pairwise Precedes ∧
        ∀ r, r ∈ kept ↔ TopListed ignored w p r := by
  have htrace := clear_trace hw h
  obtain ⟨hfiles, hdirs⟩ := counts_clear h
  obtain ⟨kept, hkept, hsorted, hmem⟩ := kept_clear hw h
  refine ⟨?_, ?_, ?_, kept, hkept, hsorted, hmem⟩
  · rw [hfiles]
    exact htrace.encard_vanished hw fun l x => by
      cases x <;> simp [removal, Entry.node, Change.removesLeaf]
  · rw [hdirs]
    exact htrace.encard_vanished hw fun l x => by
      cases x <;> simp [removal, Entry.node, Change.removesDir]
  · have hnames : ∀ r ∈ kept, r ≠ [] ∧ ∀ n ∈ r, IsEntryName n := fun r hr =>
      ((hmem r).mp hr).isEntryName hw
    rw [hkept]
    refine List.Nodup.map_on (fun r hr s hs heq => ?_) hsorted.nodup
    obtain ⟨hne, hr⟩ := hnames r hr
    obtain ⟨hne', hs⟩ := hnames s hs
    exact eq_of_pathBelow_eq hne hne' hr hs heq

/-- The path leads to the directory. -/
theorem directory?_outputWorld :
    outputWorld.directory? ⟨"out"⟩ = some (["out"], outputEntries) := by
  rw [World.directory?, locate_name (by decide) (by decide) (by decide) Entry.at?_nil
    List.lookup_cons_self (by simp)]
  rfl

theorem clear_accounts_link :
    outputWorld.root.WellFormed ∧
      ∃ w', clear outputWorld ⟨"out"⟩ ["a/k"] = .ok (⟨1, 1, ["a/k"]⟩, w') ∧
        (vanished (· ≠ .dir) outputWorld.root w'.root).encard = (1 : ℕ) ∧
        (vanished (· = .dir) outputWorld.root w'.root).encard = (1 : ℕ) ∧
        ["a/k"].Nodup ∧
        ∃ kept : List Location, ["a/k"] = kept.map pathBelow ∧ kept.Pairwise Precedes ∧
          ∀ r, r ∈ kept ↔ TopListed ["a/k"] outputWorld ⟨"out"⟩ r := by
  have hw : outputWorld.root.WellFormed := by decide
  have h : ∃ w', clear outputWorld ⟨"out"⟩ ["a/k"] = .ok (⟨1, 1, ["a/k"]⟩, w') := by
    rw [clear, directory?_outputWorld]
    exact ⟨_, rfl⟩
  obtain ⟨w', h⟩ := h
  exact ⟨hw, w', h, clear_accounts hw h⟩

end ClientRegen
