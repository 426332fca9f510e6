import ClientRegen.Proofs.FileTree.Removing
import ClientRegen.Proofs.Config.Settings
import ClientRegen.Proofs.Preparing

/-!
# Paths that are kept

The list of what is kept is compared with paths that clearing makes itself by
joining names, so a text on the list has to come to the same path however it is
spelled.  It does: steps that meet no link and never go back up lead where they
spell (`location_of_walk`), and what is compared is exactly these steps with
slashes between them (`pathBelow_steps`).

A text that goes back up is compared as it is, and no path of an entry has a
double dot in it: such a text keeps nothing (`dotted_path_is_lost`).
-/

namespace ClientRegen

variable {root e : Entry} {follow : Bool} {links : Nat} {here l r : Location}
  {steps : List String} {es : List (String × Entry)} {w before : World} {base p : Path}
  {client : Client} {given : Overrides} {s : Settings} {file : ConfigFile}
  {ignored ignored' : List String} {text : String}

/-! ## Steps that spell a location -/

/-- **Steps that meet no link and do not go back up lead where they spell.** -/
theorem location_of_walk (h : walk root follow 0 here steps = .ok (.present l e))
    (hup : ".." ∉ steps) : l = here ++ steps.filter (· ≠ ".") := by
  generalize hlinks : 0 = links at h
  fun_induction walk root follow links here steps with
  | case1 links here x hhere =>
      cases h
      simp
  | case6 links here steps es hhere ih =>
      rw [ih (fun hmem => hup (List.mem_cons_of_mem _ hmem)) hlinks h]
      simp
  | case7 => simp at hup
  | case11 links here step es hhere hdot hdots hlimit content executable hstep =>
      cases h
      simp [hdot]
  | case13 links here step steps es hhere hdot hdots hlimit es' hstep ih =>
      rw [ih (fun hmem => hup (List.mem_cons_of_mem _ hmem)) hlinks h]
      simp [hdot]
  | case14 links here step steps es hhere hdot hdots hlimit target hstep hend =>
      cases h
      simp [hdot, hend.1]
  | case16 => cases hlinks
  | _ => cases h

/-- The pieces of a text as it is compared, once its backslashes are turned. -/
def plainPieces (text : String) : List (List Char) :=
  Path.movePieces (text.toList.map fun c => if c = '\\' then '/' else c)

theorem plainPieces_spec {piece : List Char} (h : piece ∈ plainPieces text) :
    '/' ∉ piece ∧ Path.isMove piece = true := by
  obtain ⟨hmem, hmove⟩ := List.mem_filter.mp h
  exact ⟨sep_notMem_of_mem_splitAt hmem, hmove⟩

/-- The steps of a text as it is compared are its pieces. -/
theorem filter_stepsOf_plainRelative (text : String) :
    (stepsOf (plainRelative text)).filter (· ≠ ".") = (plainPieces text).map String.ofList := by
  have htext : (plainRelative text).toList = Path.slashed (plainPieces text) :=
    toList_plainRelative text
  have hpieces : ∀ piece ∈ plainPieces text, piece ≠ [] ∧ String.ofList piece ≠ "." := by
    intro piece hpiece
    obtain ⟨hne, hdot⟩ := (Path.isMove_iff).mp (plainPieces_spec hpiece).2
    refine ⟨hne, fun heq => hdot ?_⟩
    rw [← String.toList_inj, String.toList_ofList] at heq
    exact heq
  have hsplit : ((Text.splitAt '/' (plainRelative text).toList).filter (· != [])).map
      String.ofList = (plainPieces text).map String.ofList := by
    rw [htext]
    rcases List.eq_nil_or_concat (plainPieces text) with hnil | ⟨front, last, hconcat⟩
    · rw [hnil]
      rfl
    · rw [splitAt_slashed (fun piece hpiece => (plainPieces_spec hpiece).1) (by simp [hconcat]),
        List.filter_eq_self.mpr]
      intro piece hpiece
      simpa using (hpieces piece hpiece).1
  have hkeep : ((plainPieces text).map String.ofList).filter (· ≠ ".") =
      (plainPieces text).map String.ofList := by
    refine List.filter_eq_self.mpr fun step hstep => ?_
    obtain ⟨piece, hpiece, rfl⟩ := List.mem_map.mp hstep
    simpa using (hpieces piece hpiece).2
  unfold stepsOf
  dsimp only
  rw [hsplit]
  split
  · rw [List.filter_append, hkeep]
    simp
  · exact hkeep

/-- **What is compared is the path of the steps.** -/
theorem pathBelow_steps (text : String) :
    pathBelow ((stepsOf (plainRelative text)).filter (· ≠ ".")) = plainRelative text := by
  rw [filter_stepsOf_plainRelative, ← String.toList_inj, toList_plainRelative, pathBelow,
    String.toList_intercalate, List.map_map]
  have hid : (plainPieces text).map (String.toList ∘ String.ofList) = plainPieces text := by
    simp
  rw [hid]
  rfl

/-- A text names the entry at `r` below the directory at `l`: its steps lead
there from the directory, and meet no link on the way. -/
def Names (root : Entry) (l : Location) (text : String) (r : Location) : Prop :=
  r ≠ [] ∧ ∃ e, walk root false 0 l (stepsOf text) = .ok (.present (l ++ r) e)

/-- A text without double dots that names an entry is compared as the path of
the entry. -/
theorem Names.pathBelow_eq (h : Names root l (plainRelative text) r)
    (hup : ".." ∉ stepsOf (plainRelative text)) : pathBelow r = plainRelative text := by
  obtain ⟨-, e, hwalk⟩ := h
  rw [List.append_cancel_left (location_of_walk hwalk hup), pathBelow_steps]

/-! ## What is on the list -/

/-- The list of what is kept holds each text as it is compared. -/
theorem mem_ignoredPaths_iff {files : List String} :
    text ∈ Config.ignoredPaths files ↔ text ∈ files.map plainRelative ∧ text ≠ "" := by
  rw [Config.ignoredPaths, Config.mem_textSet, List.mem_filter, decide_eq_true_iff]

/-- Settings that are resolved keep the list of their section. -/
theorem ignored_of_resolve (h : file.resolve before base client given = .ok s) :
    s.ignored = Config.ignoredPaths (file.sectionOf client).filesForIgnore := by
  obtain ⟨-, outputDir, outputRoot, params, -, -, -, -, rfl⟩ := ConfigFile.resolve_eq_ok_iff.mp h
  rfl

mutual

/-- What clearing leaves of an entry depends on which paths are on the list, and
not on how they are listed. -/
theorem clearEntry_congr (h : ∀ t, isIgnored t ignored = isIgnored t ignored')
    (relative : String) : ∀ e : Entry,
      clearEntry ignored relative e = clearEntry ignored' relative e
  | .file content executable => by rw [clearEntry, clearEntry, h]
  | .link target => by rw [clearEntry, clearEntry, h]
  | .dir es => by rw [clearEntry, clearEntry, h, clearEntries_congr h relative es]

/-- Lists that hold the same paths clear alike. -/
theorem clearEntries_congr (h : ∀ t, isIgnored t ignored = isIgnored t ignored')
    (directory : String) : ∀ es : List (String × Entry),
      clearEntries ignored directory es = clearEntries ignored' directory es
  | [] => by rw [clearEntries, clearEntries]
  | (n, e) :: es => by
      rw [clearEntries, clearEntries, clearEntry_congr h (relativePath directory n) e,
        clearEntries_congr h directory es]

end

/-- Lists of the same paths are cleared alike. -/
theorem clear_congr (h : ∀ t, t ∈ ignored ↔ t ∈ ignored') (w : World) (p : Path) :
    clear w p ignored = clear w p ignored' := by
  have hignored : ∀ t, isIgnored t ignored = isIgnored t ignored' := by
    intro t
    rw [Bool.eq_iff_iff, isIgnored, isIgnored, List.contains_iff_mem, List.contains_iff_mem, h]
  unfold clear
  simp only [clearEntries_congr hignored]

/-! ## What stays of the output directory -/

/-- An entry whose path is on the list stays, with everything in it. -/
theorem Cleared.at?_of_mem {root' : Entry} (h : Cleared ignored root l root')
    (hroot : root.WellFormed) (hr : r ≠ []) (hat : root.at? (l ++ r) = some e)
    (hmem : pathBelow r ∈ ignored) : root'.at? (l ++ r) = some e := by
  have hnode : ∀ k, root'.nodeAt? (l ++ r ++ k) = root.nodeAt? (l ++ r ++ k) := by
    intro k
    rw [List.append_assoc]
    exact h.nodeAt?_of_survives (by simp [hr])
      (Or.inl ⟨r, hr, List.prefix_append r k, hmem⟩)
  have hself := hnode []
  rw [List.append_nil, Entry.nodeAt?, Entry.nodeAt?, hat, Option.map_some] at hself
  obtain ⟨e', he', -⟩ := Option.map_eq_some_iff.mp hself
  rw [he', Option.some.injEq]
  refine Entry.WellFormed.ext (h.wellFormed.of_at? he') (hroot.of_at? hat) fun k => ?_
  rw [← Entry.nodeAt?_append he', hnode, Entry.nodeAt?_append hat]

/-- **What a file asks to keep is kept.**  Once settings are resolved, clearing
the output directory leaves each entry that a text of the file's list names,
with everything in it, however the text is spelled, as long as it does not go
back up.  Lists that are compared alike are cleared alike, and what is compared
is compared as itself. -/
theorem kept_paths_stay (hresolve : file.resolve before base client given = .ok s)
    (hw : w.root.WellFormed) (hdir : w.directory? s.outputDir = some (l, es)) :
    (∃ report w', clear w s.outputDir s.ignored = .ok (report, w') ∧
      ∀ text ∈ (file.sectionOf client).filesForIgnore, ".." ∉ stepsOf (plainRelative text) →
        ∀ r, Names w.root l (plainRelative text) r →
          (w.root.at? (l ++ r)).isSome ∧ w'.root.at? (l ++ r) = w.root.at? (l ++ r)) ∧
      (∀ files files' : List String,
        (∀ t, t ∈ files.map plainRelative ↔ t ∈ files'.map plainRelative) →
        ∀ w p, clear w p (Config.ignoredPaths files) = clear w p (Config.ignoredPaths files')) ∧
      ∀ text, plainRelative (plainRelative text) = plainRelative text := by
  refine ⟨?_, fun files files' h w p => ?_, plainRelative_plainRelative⟩
  · have hclear : clear w s.outputDir s.ignored = .ok ((clearEntries s.ignored "" es).2,
        w.withRoot (w.root.put l (.dir (clearEntries s.ignored "" es).1))) := by
      rw [clear, hdir]
    refine ⟨_, _, hclear, fun text htext hup r hnames => ?_⟩
    obtain ⟨hr, e, hwalk⟩ := id hnames
    have hat := at?_of_walk hwalk
    have hpath := hnames.pathBelow_eq hup
    have hne : plainRelative text ≠ "" := by
      intro hempty
      rw [hempty, show stepsOf "" = [] by decide] at hwalk
      exact hr (by simpa using location_of_walk hwalk (by simp))
    have hmem : pathBelow r ∈ s.ignored := by
      rw [hpath, ignored_of_resolve hresolve, mem_ignoredPaths_iff]
      exact ⟨List.mem_map_of_mem htext, hne⟩
    obtain ⟨hcleared, -, -⟩ := clear_leaves hw hdir hclear
    rw [hcleared.at?_of_mem hw hr hat hmem, hat]
    exact ⟨rfl, rfl⟩
  · refine clear_congr (fun t => ?_) w p
    rw [mem_ignoredPaths_iff, mem_ignoredPaths_iff, h]

/-! ## A list with two spellings -/

/-- A file that asks to keep two entries, one of them by a way that goes back
up. -/
def listingFile : ConfigFile :=
  { ConfigFile.empty with phpArgs := ⟨none, [], none, [".\\a//k/", "a/../m"], []⟩ }

/-- What stands in the output directory. -/
def listedEntries : List (String × Entry) :=
  [("a", .dir [("k", .dir [("x", .file ⟨#[3]⟩ false)])]), ("m", .file ⟨#[4]⟩ false)]

/-- The project with these entries in its output directory. -/
def listedWorld : World :=
  Settings.projectWorld.withRoot
    (Settings.projectWorld.root.put ["openapi-client-php"] (.dir listedEntries))

/-- The settings that the file leads to. -/
def listedSettings : Settings :=
  { Settings.projectSettings Settings.projectOutput with ignored := ["a/../m", "a/k"] }

theorem resolve_listingFile :
    listingFile.resolve listedWorld ⟨"/w"⟩ .php ⟨none, none, none⟩ = .ok listedSettings := by
  have hspec : (⟨"/w/api-docs/index.yaml"⟩ : Path).Spells ["w", "api-docs", "index.yaml"] := by
    decide
  have hpath : listingFile.specPath ⟨"/w"⟩ none = ⟨"/w/api-docs/index.yaml"⟩ := by
    decide
  have hfile : listedWorld.isFile ⟨"/w/api-docs/index.yaml"⟩ = true := by
    rw [World.isFile, World.entry?, World.find,
      locate_of_spells (e := .file ⟨#[2]⟩ false) hspec rfl (by simp)]
    rfl
  have houtput : listingFile.outputDir listedWorld.cwdPath ⟨"/w"⟩ .php none =
      .ok Settings.projectOutput := by
    decide +kernel
  have hroot : listingFile.rootDir ⟨"/w"⟩ = .ok ⟨"/"⟩ := by decide
  have hignored : Config.ignoredPaths [".\\a//k/", "a/../m"] = ["a/../m", "a/k"] := by
    decide
  have hsettings : listingFile.settings ⟨"/w"⟩ .php ⟨none, none, none⟩ Settings.projectOutput
      ⟨"/"⟩ [] = listedSettings := by
    rw [ConfigFile.settings, hpath]
    change { Settings.projectSettings Settings.projectOutput with
      ignored := Config.ignoredPaths [".\\a//k/", "a/../m"] } = listedSettings
    rw [hignored]
    rfl
  have hvalid : listedSettings.validate.toOption = some () := by decide
  refine ConfigFile.resolve_eq_ok_iff.mpr ⟨hpath ▸ hfile, Settings.projectOutput, ⟨"/"⟩, [],
    houtput, hroot, rfl, ?_, hsettings⟩
  rw [hsettings]
  exact eq_ok_of_toOption hvalid

theorem directory?_listedWorld :
    listedWorld.directory? listedSettings.outputDir =
      some (["openapi-client-php"], listedEntries) := by
  have hspells : listedSettings.outputDir.Spells ["openapi-client-php"] := by decide
  rw [World.directory?, locate_of_spells (e := .dir listedEntries) hspells rfl (by simp)]

/-- A path that is listed in another spelling stays. -/
theorem kept_paths_stay_listed :
    listingFile.resolve listedWorld ⟨"/w"⟩ .php ⟨none, none, none⟩ = .ok listedSettings ∧
      ∃ report w', clear listedWorld listedSettings.outputDir listedSettings.ignored =
          .ok (report, w') ∧
        w'.root.at? ["openapi-client-php", "a", "k"] =
          listedWorld.root.at? ["openapi-client-php", "a", "k"] := by
  have hw : listedWorld.root.WellFormed := by decide
  obtain ⟨⟨report, w', hclear, hstay⟩, -, -⟩ :=
    kept_paths_stay resolve_listingFile hw directory?_listedWorld
  have hplain : plainRelative ".\\a//k/" = "a/k" := by decide
  have hnames : Names listedWorld.root ["openapi-client-php"] "a/k" ["a", "k"] := by
    refine ⟨by simp, .dir [("x", .file ⟨#[3]⟩ false)], ?_⟩
    have hsteps : stepsOf "a/k" = ["a", "k"] := by decide
    have hstep : ∀ n ∈ ["a", "k"], IsStep n := by decide
    have hat : listedWorld.root.at? (["openapi-client-php"] ++ ["a", "k"]) =
        some (.dir [("x", .file ⟨#[3]⟩ false)]) := rfl
    have hwalk := walk_append_of_dir hat hstep false 0 []
    rw [hsteps, ← List.append_nil ["a", "k"], hwalk, walk]
    rfl
  exact ⟨resolve_listingFile, report, w', hclear,
    (hstay _ List.mem_cons_self (by rw [hplain]; decide) ["a", "k"] (hplain ▸ hnames)).2⟩

/-- A text that goes back up names an entry, is on the list, and does not keep
it. -/
theorem dotted_path_is_lost :
    listingFile.resolve listedWorld ⟨"/w"⟩ .php ⟨none, none, none⟩ = .ok listedSettings ∧
      "a/../m" ∈ (listingFile.sectionOf .php).filesForIgnore ∧
      Names listedWorld.root ["openapi-client-php"] (plainRelative "a/../m") ["m"] ∧
      listedWorld.root.at? ["openapi-client-php", "m"] = some (.file ⟨#[4]⟩ false) ∧
      ∃ report w', clear listedWorld listedSettings.outputDir listedSettings.ignored =
          .ok (report, w') ∧
        w'.root.at? ["openapi-client-php", "m"] = none := by
  have hclear : clear listedWorld listedSettings.outputDir listedSettings.ignored =
      .ok ((clearEntries listedSettings.ignored "" listedEntries).2,
        listedWorld.withRoot (listedWorld.root.put ["openapi-client-php"]
          (.dir (clearEntries listedSettings.ignored "" listedEntries).1))) := by
    rw [clear, directory?_listedWorld]
  refine ⟨resolve_listingFile, by decide, ⟨by simp, .file ⟨#[4]⟩ false, ?_⟩, rfl, _, _, hclear, ?_⟩
  · have hsteps : stepsOf (plainRelative "a/../m") = ["a", "..", "m"] := by decide
    have hstep : ∀ n ∈ ["a"], IsStep n := by decide
    have hat : listedWorld.root.at? (["openapi-client-php"] ++ ["a"]) =
        some (.dir [("k", .dir [("x", .file ⟨#[3]⟩ false)])]) := rfl
    have hdown := walk_append_of_dir hat hstep false 0 ["..", "m"]
    have hback : (["openapi-client-php"] ++ ["a"]).dropLast = ["openapi-client-php"] := rfl
    rw [hsteps, show ["a", "..", "m"] = ["a"] ++ ["..", "m"] from rfl, hdown, walk, hat]
    dsimp only
    rw [if_neg (by decide), if_pos rfl, hback]
    have houtput : listedWorld.root.at? ["openapi-client-php"] = some (.dir listedEntries) := rfl
    exact walk_last houtput (by decide) rfl (by simp)
  · decide +kernel

end ClientRegen
