import ThrowCatch.CommandLine
import ThrowCatch.Proofs.DiscoveryFilter
import ThrowCatch.Proofs.ShownPaths

/-!
A whole run over a project. The search, the naming of files, their languages
and the analysis each look at a path in their own way; on a project of readable
files they agree, so that every file found has one report, under its path from
the root, and is skipped only for its size or its syntax errors.
-/

namespace ThrowCatch

/-- A directory without links below it, resolved to the place where it is, all
of whose files can be read by their resolved paths. -/
structure Project (d : Disk) (root : Path) (tree : Entry) : Prop where
  leads : d.stat root = .ok tree
  place : ∃ real, d.resolve root = .ok ⟨.root, real⟩ ∧ d.top.at? real = some tree
  directory : tree.isDirectory = true
  plain : tree.Plain
  named : ∀ {names bytes}, tree.at? names = some (.file bytes) →
    Disk.Ordinary names ∧ (names.any fun n => n.toList.contains (Char.ofNat 0)) = false
  readable : ∀ {names bytes}, tree.at? names = some (.file bytes) →
    ∃ k content, d.resolve (root.append ⟨.relative, names⟩) = .ok k ∧ d.read k = .ok content
  working : Disk.Ordinary d.working

/-! ### One file of a project -/

namespace Project

variable {d : Disk} {root : Path} {tree : Entry} {real names : List String} {bytes : ByteArray}

theorem at?_file (hreal : d.top.at? real = some tree)
    (hfile : tree.at? names = some (.file bytes)) :
    d.top.at? (real ++ names) = some (.file bytes) := by
  rw [Entry.at?_append, hreal]
  exact hfile

variable (h : Project d root tree) (hresolve : d.resolve root = .ok ⟨.root, real⟩)
  (hreal : d.top.at? real = some tree) (hfile : tree.at? names = some (.file bytes))

include h hfile

theorem names_ne_nil : names ≠ [] := by
  rintro rfl
  cases hfile
  cases h.directory

include hresolve hreal

theorem resolve_file : d.resolve (root.append ⟨.relative, names⟩) = .ok ⟨.root, real ++ names⟩ := by
  obtain ⟨hordinary, hnull⟩ := h.named hfile
  exact Disk.resolve_below h.working hresolve (at?_file hreal hfile) rfl hordinary hnull

theorem stat_file : d.stat ⟨.root, real ++ names⟩ = .ok (.file bytes) := by
  have hall : Disk.Ordinary (real ++ names) :=
    List.forall_mem_append.mpr ⟨Disk.ordinary_of_resolve hresolve, (h.named hfile).1⟩
  obtain hstat | ⟨hlong, -⟩ := Disk.stat_real (at?_file hreal hfile) rfl hall
  · exact hstat
  · -- a path that is too long could not be read either
    obtain ⟨k, content, hk, hread⟩ := h.readable hfile
    obtain rfl := Except.ok.inj ((h.resolve_file hresolve hreal hfile).symm.trans hk)
    rw [Disk.read, hlong] at hread
    cases hread

/-- A file of a project is shown by its names from the root on. -/
theorem displayPath_file :
    Engine.displayPath d (some root) (root.append ⟨.relative, names⟩) =
      (⟨.relative, names⟩ : Path).text := by
  have hid := Engine.identity_of_key
    (Index.key_eq_ok_iff.mpr (h.resolve_file hresolve hreal hfile))
  have hroot := Engine.identity_of_key (Index.key_eq_ok_iff.mpr hresolve)
  have hinside : Engine.inside? d (some root) (root.append ⟨.relative, names⟩) =
      some ⟨.relative, names⟩ :=
    Engine.inside?_eq_some.mpr ⟨root, _, rfl, hroot, rfl, hid⟩
  rw [Engine.displayPath_eq, hinside]
  rfl

end Project

/-- The language of a file is told by its last name. -/
theorem Language.ofPath?_append {names : List String} (hne : names ≠ []) (anchor : Anchor)
    (above : List String) : ofPath? ⟨anchor, above ++ names⟩ = ofPath? ⟨.relative, names⟩ := by
  have hname : (⟨anchor, above ++ names⟩ : Path).name = (⟨.relative, names⟩ : Path).name := by
    rw [Path.name, Path.name, List.getLast?_append_of_ne_nil _ hne]
  rw [ofPath?, ofPath?, Path.suffix, Path.suffix, hname]

/-- A suffix of a known extension, in any case, tells a language. -/
theorem Language.exists_of_suffix {p : Path} (h : Text.lower p.suffix ∈ extensions.map (·.1)) :
    ∃ language, ofPath? p = some language := by
  obtain ⟨entry, hentry, heq⟩ := List.mem_map.mp h
  have hfind : (extensions.find? fun x => x.1 == Text.lower p.suffix).isSome = true :=
    List.find?_isSome.mpr ⟨entry, hentry, by simpa using heq⟩
  obtain ⟨found, hfound⟩ := Option.isSome_iff_exists.mp hfind
  exact ⟨found.2, by simp only [ofPath?, hfound, Option.map_some]⟩

/-- Why a file of source is skipped, when it is. -/
def sourceFailure? (limit : Int) (strict : Bool) (bytes : ByteArray) (parse : Parse) :
    Option String :=
  if limit < bytes.size then
    some ("file is " ++ toString bytes.size ++ " bytes, limit is " ++ toString limit)
  else if parse.hasErrors && strict then some "syntax errors in file"
  else none

theorem isSome_sourceFailure? {limit : Int} {strict : Bool} {bytes : ByteArray} {parse : Parse} :
    (sourceFailure? limit strict bytes parse).isSome = true ↔
      limit < bytes.size ∨ strict = true ∧ parse.hasErrors = true := by
  unfold sourceFailure?
  by_cases hsize : limit < bytes.size
  · simp [hsize]
  · cases strict <;> cases parse.hasErrors <;> simp [hsize]

namespace Engine

variable {e : Engine} {d : Disk} {root : Path} {tree : Entry} {names : List String}
  {bytes : ByteArray}

/-- A file of a project is reported on under its path from the root, and
skipped for its size or its syntax errors only. -/
theorem exists_report (htexts : e.matcher.Textual) (h : Project d root tree)
    (hfile : tree.at? names = some (.file bytes))
    (hsuffix : Text.lower (Path.suffix ⟨.relative, names⟩) ∈ Language.extensions.map (·.1))
    {limit : Int} (hlimit : e.settings.maxFileSizeBytes = .ok limit) :
    ∃ report, (e.analyzeFile d .empty (some root) (root.append ⟨.relative, names⟩)).1 =
        .ok report ∧
      report.path = (⟨.relative, names⟩ : Path).text ∧
      ∃ language, Language.ofPath? ⟨.relative, names⟩ = some language ∧
        report.failure = sourceFailure? limit e.settings.strictParse.truthy bytes
          (e.grammar language bytes) := by
  obtain ⟨real, hresolve, hreal⟩ := h.place
  obtain ⟨language, hlanguage⟩ := Language.exists_of_suffix hsuffix
  have hknown : Language.ofPath? ⟨.root, real ++ names⟩ = some language := by
    rw [Language.ofPath?_append (h.names_ne_nil hfile), hlanguage]
  rw [analyzeFile_of_source (h.resolve_file hresolve hreal hfile) hknown
    (h.stat_file hresolve hreal hfile) hlimit _, h.displayPath_file hresolve hreal hfile]
  unfold sourceFailure?
  split
  case isTrue => exact ⟨_, rfl, rfl, language, hlanguage, rfl⟩
  case isFalse =>
    split
    case isTrue herrors => exact ⟨_, rfl, rfl, language, hlanguage, (if_pos herrors).symm⟩
    case isFalse herrors =>
      obtain ⟨report, hreport⟩ := exists_reportOn _ _ htexts
      obtain ⟨defined, -, rfl⟩ := reportOn_eq_ok_iff.mp hreport
      exact ⟨_, hreport, rfl, language, hlanguage, (if_neg herrors).symm⟩

/-- Paths that stand for different files are all kept. -/
theorem uniquePaths_map {α : Type} {path key : α → Path} {items : List α} (seen : List Path)
    (hid : ∀ x ∈ items, identity d (path x) = .ok (key x)) (hnodup : (items.map key).Nodup)
    (hnew : ∀ x ∈ items, key x ∉ seen) :
    uniquePaths d seen (items.map path) = .ok (items.map path) := by
  induction items generalizing seen with
  | nil => rfl
  | cons x items ih =>
      obtain ⟨hx, hitems⟩ := List.nodup_cons.mp hnodup
      have hfresh : ¬ seen.contains (key x) = true := by
        simpa using hnew x List.mem_cons_self
      have hnext : ∀ y ∈ items, key y ∉ key x :: seen := by
        rintro y hy hmem
        obtain heq | hseen := List.mem_cons.mp hmem
        · exact hx (heq ▸ List.mem_map_of_mem hy)
        · exact hnew y (List.mem_cons_of_mem x hy) hseen
      have hrest := ih (key x :: seen) (fun y hy => hid y (List.mem_cons_of_mem x hy)) hitems hnext
      rw [List.map_cons, uniquePaths, hid x List.mem_cons_self]
      simp only [if_neg hfresh, hrest]
      rfl

theorem mapM_map_ok {α : Type} {path : α → Path} {f : Path → Except Fault FileReport}
    {report : α → FileReport} {items : List α} (h : ∀ x ∈ items, f (path x) = .ok (report x)) :
    (items.map path).mapM f = .ok (items.map report) := by
  induction items with
  | nil => rfl
  | cons x items ih =>
      rw [List.map_cons, mapM_cons_of_ok (h x List.mem_cons_self),
        ih fun y hy => h y (List.mem_cons_of_mem x hy)]
      rfl

/-- Different files of a project are each analysed once, in their order. -/
theorem analyze_files (h : Project d root tree) {files : List (List String)}
    (hnodup : files.Nodup) (hfiles : ∀ names ∈ files, ∃ bytes, tree.at? names = some (.file bytes))
    {report : List String → FileReport}
    (hreport : ∀ names ∈ files,
      (e.analyzeFile d .empty (some root) (root.append ⟨.relative, names⟩)).1 =
        .ok (report names)) :
    (e.analyze d (some root) .empty (files.map fun names => root.append ⟨.relative, names⟩)).1 =
      .ok ⟨files.map report⟩ := by
  obtain ⟨real, hresolve, hreal⟩ := h.place
  have hid : ∀ names ∈ files,
      identity d (root.append ⟨.relative, names⟩) = .ok ⟨.root, real ++ names⟩ := by
    intro names hnames
    obtain ⟨bytes, hbytes⟩ := hfiles names hnames
    exact identity_of_key (Index.key_eq_ok_iff.mpr (h.resolve_file hresolve hreal hbytes))
  have hkeys : (files.map fun names => (⟨.root, real ++ names⟩ : Path)).Nodup :=
    hnodup.map fun names names' heq => List.append_cancel_left (congrArg Path.names heq)
  have hunique := uniquePaths_map [] hid hkeys fun _ _ => List.not_mem_nil
  rw [(analyze_eq e _ _ hunique).1, mapM_map_ok hreport]
  rfl

end Engine

namespace Discovery

/-- Members that are all of one form are the images of a list. -/
theorem exists_map_of_forall_mem {α β : Type} {f : α → β} {kind : α → Prop} {l : List β}
    (h : ∀ y ∈ l, ∃ x, y = f x ∧ kind x) :
    ∃ xs : List α, l = xs.map f ∧ ∀ x ∈ xs, kind x := by
  induction l with
  | nil => exact ⟨[], rfl, fun x hx => absurd hx List.not_mem_nil⟩
  | cons y l ih =>
      obtain ⟨x, rfl, hx⟩ := h y List.mem_cons_self
      obtain ⟨xs, rfl, hxs⟩ := ih fun y hy => h y (List.mem_cons_of_mem _ hy)
      exact ⟨x :: xs, rfl, List.forall_mem_cons.mpr ⟨hx, hxs⟩⟩

/-- The files a search finds in a project, by their names from the root on. -/
theorem discover_project {d : Disk} {s : Settings} {root : Path} {tree : Entry}
    {endings own extra : List String} (h : Project d root tree)
    (hendings : s.extensions = Settings.texts endings)
    (hown : s.excludePatterns = Settings.texts own) (hcount : ∃ n, s.maxFiles = .int n)
    (hparted : ∀ pattern ∈ own ++ extra, (Path.ofString pattern).parts ≠ []) :
    ∃ (found : Found) (files : List (List String)),
      discover d s root (extra.map .str) = .ok found ∧
      found.files = files.map (fun names => root.append ⟨.relative, names⟩) ∧ files.Nodup ∧
      ∀ names ∈ files, (∃ bytes, tree.at? names = some (.file bytes)) ∧
        ∃ ending ∈ endings, Text.lower (Path.suffix ⟨.relative, names⟩) = Text.lower ending := by
  have hall : Exclusion.AllParted (own.map .str ++ extra.map .str) := by
    intro v hv
    rw [← List.map_append] at hv
    obtain ⟨pattern, hpattern, rfl⟩ := List.mem_map.mp hv
    exact ⟨pattern, rfl, hparted pattern hpattern⟩
  have howns : Settings.membersOf s.excludePatterns = .ok (own.map .str) := hown ▸ rfl
  have hending : Settings.membersOf s.extensions = .ok (endings.map .str) := hendings ▸ rfl
  obtain ⟨all, hresult, hsorted, hkind, -⟩ :=
    discover_finds h.leads h.directory h.plain howns hending hall
  obtain ⟨n, hn⟩ := hcount
  have hnumber : s.maxFiles.number? = some (.int n) := by
    rw [hn]
    rfl
  have htaken := limited_int hnumber all
  rw [← hresult] at htaken
  obtain ⟨found, hfound, hfiles⟩ := map_eq_ok htaken
  obtain ⟨files, hmap, hselected⟩ := exists_map_of_forall_mem
    fun path hpath => hkind path (List.take_subset n.toNat all hpath)
  refine ⟨found, files, hfound, hfiles.trans hmap, ?_, fun names hnames => ?_⟩
  · have hdistinct : all.Nodup := by
      refine hsorted.imp fun {p q} hlt heq => ?_
      rw [heq] at hlt
      exact List.lt_irrefl _ hlt
    have htake := hdistinct.sublist (List.take_sublist n.toNat all)
    rw [hmap] at htake
    exact htake.of_map _
  · obtain ⟨hfile, -, hending, -⟩ := hselected names hnames
    exact ⟨hfile, hending⟩

end Discovery

namespace CommandLine

/-- A run over a project of readable files, with extensions of known languages
and a limit on the sizes: there is one report for each file the search finds,
in the order of the files and under the file's path from the root. A file is
skipped exactly when it is larger than the limit or, with strict parsing, when
its tree has an error. -/
theorem run_accounts_for_files (g : Grammar) (d : Disk) (s : Settings) (r : Request)
    (tree : Entry) (endings own : List String) (limit : Int)
    (hproject : Project d (Path.ofString r.path) tree) (htyped : s.Typed)
    (hendings : s.extensions = Settings.texts endings)
    (hown : s.excludePatterns = Settings.texts own)
    (hknown : ∀ ending ∈ endings, Text.lower ending ∈ Language.extensions.map (·.1))
    (hparted : ∀ pattern ∈ own ++ r.exclude, (Path.ofString pattern).parts ≠ [])
    (hlimit : s.maxFileSizeBytes = .ok limit) :
    ∃ (found : Discovery.Found) (files : List (List String)) (a : Analysis)
      (report : List String → FileReport),
      Discovery.discover d s (Path.ofString r.path) (r.exclude.map .str) = .ok found ∧
      found.files = files.map (fun names => (Path.ofString r.path).append ⟨.relative, names⟩) ∧
      files.Nodup ∧
      analysis g d s r = .ok a ∧ a.files = files.map report ∧
      ∀ names ∈ files, (report names).path = (⟨.relative, names⟩ : Path).text ∧
        ∃ language bytes, Language.ofPath? ⟨.relative, names⟩ = some language ∧
          tree.at? names = some (.file bytes) ∧
          (report names).failure =
            sourceFailure? limit s.strictParse.truthy bytes (g language bytes) ∧
          (report names ∈ a.skipped ↔ limit < bytes.size ∨
            s.strictParse.truthy = true ∧ (g language bytes).hasErrors = true) := by
  obtain ⟨found, files, hdiscover, hfound, hnodup, hfiles⟩ :=
    Discovery.discover_project hproject hendings hown htyped.maxFiles hparted
  obtain ⟨e, he, hgrammar, hsettings, htexts⟩ := Engine.ofSettings_of_typed htyped g
  subst hgrammar hsettings
  have hreports : ∀ names ∈ files, ∃ report,
      (e.analyzeFile d .empty (some (Path.ofString r.path))
        ((Path.ofString r.path).append ⟨.relative, names⟩)).1 = .ok report ∧
      report.path = (⟨.relative, names⟩ : Path).text ∧
      ∃ language bytes, Language.ofPath? ⟨.relative, names⟩ = some language ∧
        tree.at? names = some (.file bytes) ∧
        report.failure = sourceFailure? limit e.settings.strictParse.truthy bytes
          (e.grammar language bytes) := by
    intro names hnames
    obtain ⟨⟨bytes, hbytes⟩, ending, hmem, heq⟩ := hfiles names hnames
    have hsuffix : Text.lower (Path.suffix ⟨.relative, names⟩) ∈
        Language.extensions.map (·.1) := by
      rw [heq]
      exact hknown ending hmem
    obtain ⟨report, hreport, hpath, language, hlanguage, hfailure⟩ :=
      Engine.exists_report htexts hproject hbytes hsuffix hlimit
    exact ⟨report, hreport, hpath, language, bytes, hlanguage, hbytes, hfailure⟩
  have : Nonempty FileReport := ⟨.unavailable "" ""⟩
  choose! report hreport hpath hkind using hreports
  have hanalysis : analysis e.grammar d e.settings r = .ok ⟨files.map report⟩ := by
    simp only [analysis, hdiscover, he, hfound, bind, Except.bind]
    exact Engine.analyze_files hproject hnodup (fun names hnames => (hfiles names hnames).1) hreport
  refine ⟨found, files, _, report, hdiscover, hfound, hnodup, hanalysis, rfl,
    fun names hnames => ⟨hpath names hnames, ?_⟩⟩
  obtain ⟨language, bytes, hlanguage, hbytes, hfailure⟩ := hkind names hnames
  refine ⟨language, bytes, hlanguage, hbytes, hfailure, ?_⟩
  rw [← isSome_sourceFailure?, ← hfailure, Analysis.skipped, List.mem_filter]
  simp [FileReport.ok, List.mem_map_of_mem hnames]

/-- A project with a file of each fate: one that is analysed, one with a syntax
error, one over the limit and one that is excluded. -/
def fates : Entry :=
  .directory
    [("a.ts", .file "throw e;".toUTF8), ("b.JS", .file "throw (".toUTF8),
      ("c.ts", .file "throw new Error(1);".toUTF8), ("lib", .directory [("d.ts", .file .empty)])]

/-- Settings for strict parsing of files of up to sixteen bytes. -/
def strictAndSmall : Settings :=
  { Settings.defaults with
    excludePatterns := Settings.texts ["lib/*"]
    maxFileSizeMb := .float (.finite false (2 ^ 52) (-68))
    strictParse := .bool true }

def scanHere : Request :=
  ⟨.scan, "", ".", .json, ["/tmp/*"], none, none, none, false, false⟩

theorem file_of_fates {names : List String} {bytes : ByteArray}
    (h : fates.at? names = some (.file bytes)) :
    names ∈ [["a.ts"], ["b.JS"], ["c.ts"], ["lib", "d.ts"]] := by
  cases names with
  | nil => cases h
  | cons name names =>
      obtain ⟨e, hmem, hat⟩ := (Entry.at?_cons_eq_some (by decide)).mp h
      simp only [List.mem_cons, Prod.mk.injEq, List.not_mem_nil, or_false] at hmem
      obtain ⟨rfl, rfl⟩ | ⟨rfl, rfl⟩ | ⟨rfl, rfl⟩ | ⟨rfl, rfl⟩ := hmem
      · simp [Entry.at?_file_eq_some.mp hat]
      · simp [Entry.at?_file_eq_some.mp hat]
      · simp [Entry.at?_file_eq_some.mp hat]
      · cases names with
        | nil => cases hat
        | cons name names =>
            obtain ⟨e, hmem, hat⟩ := (Entry.at?_cons_eq_some (by decide)).mp hat
            obtain ⟨rfl, rfl⟩ := Prod.mk.inj (List.mem_singleton.mp hmem)
            simp [Entry.at?_file_eq_some.mp hat]

theorem takable_of_fates {names : List String} {bytes : ByteArray}
    (h : fates.at? names = some (.file bytes)) :
    Disk.Ordinary names ∧ (names.any fun n => n.toList.contains (Char.ofNat 0)) = false ∧
      ¬ Disk.TooLong names := by
  have hall : ∀ names ∈ [["a.ts"], ["b.JS"], ["c.ts"], ["lib", "d.ts"]],
      Disk.Ordinary names ∧ (names.any fun n => n.toList.contains (Char.ofNat 0)) = false ∧
        ¬ Disk.TooLong names := by
    decide +kernel
  exact hall names (file_of_fates h)

theorem stat_fates : (Disk.mk fates [] []).stat .current = .ok fates := by
  rw [Disk.stat, Discovery.locate_current]
  rfl

theorem project_fates : Project ⟨fates, [], []⟩ .current fates where
  leads := stat_fates
  place := Disk.exists_real_of_stat rfl (fun _ hn => absurd hn List.not_mem_nil) rfl stat_fates
  directory := rfl
  plain := by
    refine .directory _ (by decide) fun name e hmem => ?_
    simp only [List.mem_cons, Prod.mk.injEq, List.not_mem_nil, or_false] at hmem
    obtain ⟨-, rfl⟩ | ⟨-, rfl⟩ | ⟨-, rfl⟩ | ⟨-, rfl⟩ := hmem
    · exact .file _
    · exact .file _
    · exact .file _
    · refine .directory _ (by decide) fun name e hmem => ?_
      obtain ⟨-, rfl⟩ := Prod.mk.inj (List.mem_singleton.mp hmem)
      exact .file _
  named := fun h => ⟨(takable_of_fates h).1, (takable_of_fates h).2.1⟩
  readable := by
    intro names bytes h
    obtain ⟨hordinary, hnull, hshort⟩ := takable_of_fates h
    refine ⟨⟨.root, names⟩, bytes, Disk.resolve_at_root rfl rfl hordinary hnull, ?_⟩
    rw [Disk.read, Disk.stat_short h rfl hordinary hshort]
    rfl
  working := fun _ hn => absurd hn List.not_mem_nil

theorem discover_fates :
    Discovery.discover ⟨fates, [], []⟩ strictAndSmall .current [.str "/tmp/*"] =
      .ok ⟨[⟨.relative, ["a.ts"]⟩, ⟨.relative, ["b.JS"]⟩, ⟨.relative, ["c.ts"]⟩], []⟩ := by
  have hwalk : Discovery.walkLinks ⟨fates, [], []⟩
      (Discovery.rulesFor strictAndSmall Settings.defaultExtensions [.str "lib/*", .str "/tmp/*"])
      (Disk.maxLinks + 1) ⟨[], Disk.maxLinks, .current⟩ fates =
        .ok [⟨.relative, ["a.ts"]⟩, ⟨.relative, ["b.JS"]⟩, ⟨.relative, ["c.ts"]⟩] := rfl
  rw [Discovery.discover_of_walk (Discovery.locate_current fates) rfl rfl hwalk,
    List.mergeSort_of_pairwise (by decide +kernel)]
  rfl

theorem fates_accounted :
    strictAndSmall.check = .ok () ∧
    ∃ a, analysis Source.grammar ⟨fates, [], []⟩ strictAndSmall scanHere = .ok a ∧
      a.files.map (fun report => (report.path, report.failure)) =
        [("a.ts", none), ("b.JS", some "syntax errors in file"),
          ("c.ts", some "file is 19 bytes, limit is 16")] := by
  have htyped : strictAndSmall.Typed :=
    { Engine.typed_defaults with
      excludePatterns := ⟨_, rfl⟩
      maxFileSizeMb := .inr ⟨_, rfl, by decide, by decide, by decide⟩
      strictParse := ⟨_, rfl⟩ }
  have hroot : Path.ofString scanHere.path = .current := by decide
  obtain ⟨found, files, a, report, hdiscover, hfound, -, hanalysis, hfiles, hreport⟩ :=
    run_accounts_for_files Source.grammar ⟨fates, [], []⟩ strictAndSmall scanHere fates
      Settings.defaultExtensions ["lib/*"] 16 (hroot ▸ project_fates) htyped rfl rfl
      (by decide +kernel) (by decide +kernel) rfl
  refine ⟨rfl, a, hanalysis, ?_⟩
  have hnames : files = [["a.ts"], ["b.JS"], ["c.ts"]] := by
    rw [hroot] at hdiscover hfound
    obtain rfl := Except.ok.inj (hdiscover.symm.trans discover_fates)
    have hinside := congrArg (List.map Path.names) hfound
    rw [List.map_map] at hinside
    exact ((List.map_id files).symm.trans hinside.symm : files = _)
  subst hnames
  have hfate : ∀ names ∈ [["a.ts"], ["b.JS"], ["c.ts"]], ∀ language bytes,
      Language.ofPath? ⟨.relative, names⟩ = some language →
      fates.at? names = some (.file bytes) →
      ((report names).path, (report names).failure) =
        ((⟨.relative, names⟩ : Path).text,
          sourceFailure? 16 true bytes (Source.grammar language bytes)) := by
    intro names hnames language bytes hlanguage hbytes
    obtain ⟨hpath, language', bytes', hlanguage', hbytes', hfailure, -⟩ := hreport names hnames
    obtain rfl := Option.some.inj (hlanguage'.symm.trans hlanguage)
    obtain rfl := Entry.file.inj (Option.some.inj (hbytes'.symm.trans hbytes))
    exact Prod.ext hpath hfailure
  rw [hfiles, List.map_map]
  simp only [List.map_cons, List.map_nil, Function.comp_apply]
  rw [hfate ["a.ts"] (by decide) .typescript _ (by decide +kernel) rfl,
    hfate ["b.JS"] (by decide) .javascript _ (by decide +kernel) rfl,
    hfate ["c.ts"] (by decide) .typescript _ (by decide +kernel) rfl]
  decide +kernel

end CommandLine

end ThrowCatch
