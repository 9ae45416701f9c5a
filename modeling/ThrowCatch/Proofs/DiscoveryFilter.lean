import ThrowCatch.Proofs.Outcomes
import ThrowCatch.Proofs.PlainWalk

/-!
The search for files against a plain filter. In a tree without links, and with
regular exclusion patterns, the files found are those the settings ask for, in
order and once each; only then is their number limited.
-/

namespace ThrowCatch

/-! ### The order of the files -/

namespace Path

/-- The order of the parts is the order by the first part that differs. -/
theorem compare_eq_lt (l m : List String) : compare l m = .lt ↔ l < m := by
  induction l generalizing m with
  | nil => cases m <;> simp [List.compare_nil_cons]
  | cons a l ih =>
      cases m with
      | nil => simp [List.compare_cons_nil]
      | cons b m =>
          have hhead : compare a b = .lt ↔ a < b := compareOfLessAndEq_eq_lt
          rw [List.compare_cons_cons, Ordering.then_eq_lt, hhead, ih, List.cons_lt_cons_iff,
            Std.LawfulEqOrd.compare_eq_iff_eq]

theorem parts_inj {p q : Path} (hanchor : p.anchor = q.anchor) (h : p.parts = q.parts) :
    p = q := by
  obtain ⟨a, names⟩ := p
  obtain ⟨b, others⟩ := q
  subst hanchor
  cases a <;> simpa [parts, isAbsolute] using h

theorem parts_lt_of_le {p q : Path} (hle : le p q = true) (hanchor : p.anchor = q.anchor)
    (hne : p ≠ q) : p.parts < q.parts := by
  rw [← compare_eq_lt]
  cases hcompare : compare p.parts q.parts with
  | lt => rfl
  | eq => exact absurd (parts_inj hanchor (Std.LawfulEqOrd.eq_of_compare hcompare)) hne
  | gt => simp [le, hcompare] at hle

theorem le_trans (p q r : Path) (hpq : le p q = true) (hqr : le q r = true) : le p r = true := by
  simp only [le, bne_iff_ne, ne_eq, ← Ordering.isLE_iff_ne_gt] at hpq hqr ⊢
  exact Std.TransCmp.isLE_trans hpq hqr

theorem le_total (p q : Path) : (le p q || le q p) = true := by
  rw [Bool.or_eq_true]
  simp only [le, bne_iff_ne, ne_eq]
  have hswap : compare q.parts p.parts = (compare p.parts q.parts).swap :=
    Std.OrientedCmp.eq_swap
  rw [hswap]
  cases compare p.parts q.parts <;> decide

/-- Different paths with the same beginning are sorted strictly. -/
theorem sorted_mergeSort {files : List Path} (hnodup : files.Nodup) (anchor : Anchor)
    (hanchor : ∀ p ∈ files, p.anchor = anchor) :
    (files.mergeSort le).Pairwise fun p q => p.parts < q.parts := by
  have hperm := List.mergeSort_perm files le
  have hsorted := List.pairwise_mergeSort le_trans le_total files
  have hdistinct : (files.mergeSort le).Pairwise (· ≠ ·) := hperm.nodup_iff.mpr hnodup
  refine (hsorted.and hdistinct).imp_of_mem ?_
  rintro p q hp hq ⟨hle, hne⟩
  refine parts_lt_of_le hle ?_ hne
  rw [hanchor p (hperm.mem_iff.mp hp), hanchor q (hperm.mem_iff.mp hq)]

end Path

/-! ### Accepted settings -/

theorem Number.int_lt_int (a b : Int) : (Number.int a).lt (.int b) = decide (a < b) := by
  rw [Bool.eq_iff_iff]
  simp [Number.lt, Number.compare?, Int.compare_eq_lt]

namespace Settings

theorem eq_texts_of_checkExtension {items : List Value}
    (h : items.forM checkExtension = .ok ()) :
    ∃ endings : List String, items = endings.map .str := by
  induction items with
  | nil => exact ⟨[], rfl⟩
  | cons v items ih =>
      obtain ⟨_, hv, hitems⟩ := bind_eq_ok (h : checkExtension v >>= _ = _)
      obtain ⟨endings, rfl⟩ := ih hitems
      cases v with
      | str s => exact ⟨s :: endings, rfl⟩
      | _ => cases hv

/-- What accepted settings say about the limit and the extensions. -/
theorem limits_of_check {s : Settings} (h : s.check = .ok ()) :
    (∃ limit, s.maxFiles.number? = some limit ∧ limit.lt (.int 1) = false) ∧
      ∃ endings : List String, membersOf s.extensions = .ok (endings.map .str) := by
  -- the checks run one after the other; the third and the fourth are of use here
  unfold check at h
  obtain ⟨-, -, h⟩ := bind_eq_ok h
  obtain ⟨-, -, h⟩ := bind_eq_ok h
  obtain ⟨_, hlimit, h⟩ := bind_eq_ok h
  obtain ⟨items, hitems, h⟩ := bind_eq_ok h
  obtain ⟨_, hendings, -⟩ := bind_eq_ok h
  constructor
  · obtain ⟨limit, hnumber, hlimit⟩ := bind_eq_ok hlimit
    unfold comparable at hnumber
    split at hnumber
    case h_1 n hn =>
      cases hnumber
      refine ⟨limit, hn, ?_⟩
      split at hlimit
      case isTrue => cases hlimit
      case isFalse hlt => simpa using hlt
    case h_2 => cases hnumber
  · obtain ⟨endings, rfl⟩ := eq_texts_of_checkExtension hendings
    exact ⟨endings, hitems⟩

end Settings

/-! ### The whole search -/

namespace Discovery

/-- A file below a directory that the settings ask for, given by its names
from the directory on. -/
def Selected (s : Settings) (endings : List String) (patterns : List Value) (tree : Entry)
    (names : List String) : Prop :=
  (∃ bytes, tree.at? names = some (.file bytes)) ∧
    (s.allowHiddenFiles.truthy = true ∨ ∀ name ∈ names, Text.startsWith "." name = false) ∧
    (∃ ending ∈ endings, Text.lower (Path.suffix ⟨.relative, names⟩) = Text.lower ending) ∧
    Exclusion.excluded ⟨.relative, names⟩ patterns = .ok false

/-- The rules that follow from settings. -/
def rulesFor (s : Settings) (endings : List String) (patterns : List Value) : Rules where
  exclude := patterns
  extensions := endings.map Text.lower
  hidden := s.allowHiddenFiles.truthy
  follow := s.followSymlinks.truthy

theorem rulesOf_eq {s : Settings} {own extra : List Value} {endings : List String}
    (hown : Settings.membersOf s.excludePatterns = .ok own)
    (hendings : Settings.membersOf s.extensions = .ok (endings.map .str)) :
    rulesOf s extra = .ok (rulesFor s endings (own ++ extra)) := by
  rw [rulesOf, hown, hendings]
  simp [rulesFor, Bind.bind, Except.bind, pure, Except.pure, Function.comp_def, Value.text]

theorem wanted_rulesFor {s : Settings} {endings : List String} {patterns : List Value}
    {tree : Entry} {path : Path} :
    Wanted (rulesFor s endings patterns) [] tree path ↔
      ∃ names, path = ⟨.relative, names⟩ ∧ Selected s endings patterns tree names := by
  constructor
  · rintro ⟨names, bytes, rfl, hat, hvisible, hsuffix, hexcluded⟩
    refine ⟨names, rfl, ⟨bytes, hat⟩, ?_, ?_, hexcluded⟩
    · by_cases hhidden : s.allowHiddenFiles.truthy = true
      · exact .inl hhidden
      · exact .inr fun name hname => (hvisible name hname).resolve_left hhidden
    · obtain ⟨ending, hending, hlower⟩ := List.mem_map.mp hsuffix
      exact ⟨ending, hending, hlower.symm⟩
  · rintro ⟨names, rfl, ⟨bytes, hat⟩, hvisible, ⟨ending, hending, hlower⟩, hexcluded⟩
    refine ⟨names, bytes, rfl, hat, fun name hname => ?_, ?_, hexcluded⟩
    · exact hvisible.imp_right fun h => h name hname
    · exact List.mem_map.mpr ⟨ending, hending, hlower.symm⟩

theorem limited_int {limit : Value} {n : Int} (hlimit : limit.number? = some (.int n))
    (files : List Path) : (limited limit files).map (·.files) = .ok (files.take n.toNat) := by
  simp only [limited, hlimit, Number.int_lt_int, decide_eq_true_eq]
  split
  · rfl
  · rename_i hmany
    rw [List.take_of_length_le (by omega)]
    rfl

theorem limited_float {limit : Value} {x : Double} (hlimit : limit.number? = some (.float x))
    (files : List Path) :
    (limited limit files).map (·.files) =
      if (Number.float x).lt (.int files.length) then .error .badSlice else .ok files := by
  simp only [limited, hlimit]
  split <;> rfl

theorem locate_of_stat {d : Disk} {p : Path} {e : Entry} (h : d.stat p = .ok e) :
    ∃ place, d.locate true p = .ok place ∧ d.top.at? place.names = some e := by
  unfold Disk.stat at h
  obtain ⟨place, hplace, hat⟩ := bind_eq_ok (h : d.locate true p >>= _ = _)
  split at hat
  case h_1 e hsome =>
    cases hat
    exact ⟨place, hplace, hsome⟩
  case h_2 => cases hat

theorem discover_of_walk {d : Disk} {s : Settings} {root : Path} {extra : List Value}
    {place : Place} {es : List (String × Entry)} {rules : Rules} {files : List Path}
    (hplace : d.locate true root = .ok place)
    (hat : d.top.at? place.names = some (.directory es)) (hrules : rulesOf s extra = .ok rules)
    (hfiles : walkLinks d rules (Disk.maxLinks + 1) ⟨place.names, place.links, .current⟩
      (.directory es) = .ok files) :
    discover d s root extra = limited s.maxFiles ((files.map root.append).mergeSort Path.le) := by
  simp only [discover, hplace, hat, hrules, hfiles, bind, Except.bind]

/-- The search gives, within the limit, files the settings ask for, and with
regular patterns all of them. -/
theorem discover_finds {d : Disk} {s : Settings} {root : Path} {own extra : List Value}
    {tree : Entry} {endings : List String} (hroot : d.stat root = .ok tree)
    (hdirectory : tree.isDirectory = true) (hplain : tree.Plain)
    (hown : Settings.membersOf s.excludePatterns = .ok own)
    (hendings : Settings.membersOf s.extensions = .ok (endings.map .str))
    (hparted : Exclusion.AllParted (own ++ extra)) :
    ∃ all : List Path, discover d s root extra = limited s.maxFiles all ∧
      all.Pairwise (fun p q => p.parts < q.parts) ∧
      (∀ path ∈ all, ∃ names, path = root.append ⟨.relative, names⟩ ∧
        Selected s endings (own ++ extra) tree names) ∧
      (Exclusion.AllRegular (own ++ extra) → ∀ names,
        Selected s endings (own ++ extra) tree names → root.append ⟨.relative, names⟩ ∈ all) := by
  obtain ⟨place, hplace, hat⟩ := locate_of_stat hroot
  obtain ⟨es, rfl⟩ : ∃ es, tree = .directory es := by
    cases tree with
    | directory es => exact ⟨es, rfl⟩
    | _ => cases hdirectory
  have hlists : Lists (Exclusion.AllRegular (own ++ extra))
      (walkLinks d (rulesFor s endings (own ++ extra)) (Disk.maxLinks + 1)
        ⟨place.names, place.links, .current⟩ (.directory es))
      (Wanted (rulesFor s endings (own ++ extra)) [] (.directory es)) :=
    walkLinks_lists hparted hplain hdirectory rfl
  obtain ⟨files, hfiles, hnodup, hkind, hall⟩ := hlists
  have hfound : ∀ path ∈ files.map root.append,
      ∃ names, path = root.append ⟨.relative, names⟩ ∧
        Selected s endings (own ++ extra) (.directory es) names := by
    intro path hpath
    obtain ⟨q, hq, rfl⟩ := List.mem_map.mp hpath
    obtain ⟨names, rfl, hselected⟩ := wanted_rulesFor.mp (hkind q hq)
    exact ⟨names, rfl, hselected⟩
  refine ⟨(files.map root.append).mergeSort Path.le, ?_, ?_, ?_, ?_⟩
  · exact discover_of_walk hplace hat (rulesOf_eq hown hendings) hfiles
  · refine Path.sorted_mergeSort ?_ root.anchor fun path hpath => ?_
    · rw [List.Nodup, List.pairwise_map]
      refine hnodup.imp_of_mem fun {p q} hp hq hne heq => hne ?_
      obtain ⟨names, rfl, -⟩ := wanted_rulesFor.mp (hkind p hp)
      obtain ⟨others, rfl, -⟩ := wanted_rulesFor.mp (hkind q hq)
      simpa [Path.append, Path.isAbsolute] using heq
    · obtain ⟨names, rfl, -⟩ := hfound path hpath
      rfl
  · exact fun path hpath => hfound path (List.mem_mergeSort.mp hpath)
  · intro hregular names hselected
    have hwanted := hall hregular _ (wanted_rulesFor.mpr ⟨names, rfl, hselected⟩)
    exact List.mem_mergeSort.mpr (List.mem_map_of_mem hwanted)

/-- With regular patterns the search gives, within the limit, the files the
settings ask for. -/
theorem discover_of_plain {d : Disk} {s : Settings} {root : Path} {own extra : List Value}
    {tree : Entry} {endings : List String} (hroot : d.stat root = .ok tree)
    (hdirectory : tree.isDirectory = true) (hplain : tree.Plain)
    (hown : Settings.membersOf s.excludePatterns = .ok own)
    (hendings : Settings.membersOf s.extensions = .ok (endings.map .str))
    (hregular : Exclusion.AllRegular (own ++ extra)) :
    ∃ all : List Path, discover d s root extra = limited s.maxFiles all ∧
      all.Pairwise (fun p q => p.parts < q.parts) ∧
      ∀ path, path ∈ all ↔ ∃ names, path = root.append ⟨.relative, names⟩ ∧
        Selected s endings (own ++ extra) tree names := by
  obtain ⟨all, hresult, hsorted, hkind, hall⟩ :=
    discover_finds hroot hdirectory hplain hown hendings hregular.allParted
  refine ⟨all, hresult, hsorted, fun path => ⟨hkind path, ?_⟩⟩
  rintro ⟨names, rfl, hselected⟩
  exact hall hregular names hselected

/-- The search equals its filter: in a tree without links and with regular
patterns, as the default ones are, the files found are those the settings ask
for, sorted by their parts, as many of them as the limit says. A limit that is
not a whole number is refused when there are more files than it allows. The
limits of the system on the length of a path, and of the interpreter on its
depth, are outside of the model. -/
theorem discover_eq_filter (d : Disk) (s : Settings) (root : Path) (own extra : List Value)
    (tree : Entry) (hroot : d.stat root = .ok tree) (hdirectory : tree.isDirectory = true)
    (hplain : tree.Plain) (hs : s.check = .ok ())
    (hown : Settings.membersOf s.excludePatterns = .ok own)
    (hregular : Exclusion.AllRegular (own ++ extra)) :
    Exclusion.AllRegular (Settings.defaultExclusions.map .str) ∧
    ∃ (endings : List String) (all : List Path),
      Settings.membersOf s.extensions = .ok (endings.map .str) ∧
      all.Pairwise (fun p q => p.parts < q.parts) ∧
      (∀ path, path ∈ all ↔ ∃ names, path = root.append ⟨.relative, names⟩ ∧
        Selected s endings (own ++ extra) tree names) ∧
      ((∃ n : Int, s.maxFiles.number? = some (.int n) ∧ 1 ≤ n ∧
          (discover d s root extra).map (·.files) = .ok (all.take n.toNat)) ∨
        ∃ x, s.maxFiles.number? = some (.float x) ∧
          (discover d s root extra).map (·.files) =
            if (Number.float x).lt (.int all.length) then .error .badSlice else .ok all) := by
  obtain ⟨⟨limit, hlimit, hatLeast⟩, endings, hendings⟩ := Settings.limits_of_check hs
  obtain ⟨all, hresult, hsorted, hmem⟩ :=
    discover_of_plain hroot hdirectory hplain hown hendings hregular
  refine ⟨Exclusion.allRegular_defaults, endings, all, hendings, hsorted, hmem, ?_⟩
  rw [hresult]
  -- a float passes the check of the limit, so both kinds of numbers remain
  cases limit with
  | int n =>
      have hn : 1 ≤ n := by simpa [Number.int_lt_int] using hatLeast
      exact .inl ⟨n, hlimit, hn, limited_int hlimit all⟩
  | float x => exact .inr ⟨x, hlimit, limited_float hlimit all⟩

/-- A small project: one source file, its test, a dependency and a hidden
file. -/
def project : Entry :=
  .directory
    [("src", .directory [("a.ts", .file .empty), ("a.test.ts", .file .empty)]),
      ("node_modules", .directory [("b.ts", .file .empty)]), (".c.ts", .file .empty)]

theorem project_plain : project.Plain := by
  refine .directory _ (by decide) ?_
  intro name e hmem
  simp only [List.mem_cons, Prod.mk.injEq, List.not_mem_nil, or_false] at hmem
  obtain ⟨-, rfl⟩ | ⟨-, rfl⟩ | ⟨-, rfl⟩ := hmem
  · refine .directory _ (by decide) fun name e hmem => ?_
    simp only [List.mem_cons, Prod.mk.injEq, List.not_mem_nil, or_false] at hmem
    obtain ⟨-, rfl⟩ | ⟨-, rfl⟩ := hmem <;> exact .file _
  · refine .directory _ (by decide) fun name e hmem => ?_
    simp only [List.mem_cons, Prod.mk.injEq, List.not_mem_nil, or_false] at hmem
    obtain ⟨-, rfl⟩ := hmem
    exact .file _
  · exact .file _

theorem locate_current (tree : Entry) :
    (Disk.mk tree [] []).locate true .current = .ok ⟨[], Disk.maxLinks⟩ := by
  have hshort : ¬ Disk.maxPathBytes < Path.current.text.utf8ByteSize := by decide
  rw [Disk.locate, if_neg hshort, Path.current, Disk.walkNames]
  rfl

theorem project_files_found :
    ∃ all : List Path, (⟨.relative, ["src", "a.ts"]⟩ : Path) ∈ all ∧
      (⟨.relative, ["node_modules", "b.ts"]⟩ : Path) ∉ all ∧
      (discover ⟨project, [], []⟩ Settings.defaults .current []).map (·.files) =
        .ok (all.take 10000) := by
  have hroot : (Disk.mk project [] []).stat .current = .ok project := by
    rw [Disk.stat, locate_current]
    rfl
  have hregular : Exclusion.AllRegular (Settings.defaultExclusions.map .str ++ []) := by
    simpa using Exclusion.allRegular_defaults
  obtain ⟨-, endings, all, hendings, -, hmem, hresult⟩ :=
    discover_eq_filter ⟨project, [], []⟩ Settings.defaults .current
      (Settings.defaultExclusions.map .str) [] project hroot rfl project_plain rfl rfl hregular
  refine ⟨all, (hmem _).mpr ⟨["src", "a.ts"], rfl, ⟨.empty, rfl⟩, .inr (by decide), ?_, ?_⟩, ?_, ?_⟩
  · have hts : Value.str ".ts" ∈ endings.map .str := by
      rw [← Except.ok.inj hendings]
      exact List.mem_map_of_mem (by decide)
    obtain ⟨ending, hending, heq⟩ := List.mem_map.mp hts
    exact ⟨ending, hending, by rw [Value.str.inj heq]; decide⟩
  · rw [Exclusion.excluded_regular hregular]
    exact congrArg Except.ok (by decide +kernel)
  · intro hdependency
    obtain ⟨names, hnames, -, -, -, hexcluded⟩ := (hmem _).mp hdependency
    obtain rfl : ["node_modules", "b.ts"] = names := congrArg Path.names hnames
    rw [Exclusion.excluded_regular hregular, Except.ok.injEq] at hexcluded
    exact absurd hexcluded (by decide +kernel)
  · obtain ⟨n, hn, -, hfiles⟩ | ⟨x, hx, -⟩ := hresult
    · cases hn
      exact hfiles
    · cases hx

/-- Settings that are accepted although their limit is not a whole number. -/
def fractionalLimit : Settings :=
  { Settings.defaults with excludePatterns := .list [], maxFiles := .float (.ofInt 2) }

def threeFiles : Entry :=
  .directory [("a.ts", .file .empty), ("b.ts", .file .empty), ("c.ts", .file .empty)]

/-- With such a limit the search of a directory with more files gives none of
them. -/
theorem fractional_limit_fails :
    threeFiles.Plain ∧ (Disk.mk threeFiles [] []).stat .current = .ok threeFiles ∧
      fractionalLimit.check = .ok () ∧
      Settings.membersOf fractionalLimit.excludePatterns = .ok [] ∧
      discover ⟨threeFiles, [], []⟩ fractionalLimit .current [] = .error .badSlice := by
  refine ⟨?_, ?_, rfl, rfl, ?_⟩
  · refine .directory _ (by decide) fun name e hmem => ?_
    simp only [List.mem_cons, Prod.mk.injEq, List.not_mem_nil, or_false] at hmem
    obtain ⟨-, rfl⟩ | ⟨-, rfl⟩ | ⟨-, rfl⟩ := hmem <;> exact .file _
  · rw [Disk.stat, locate_current]
    rfl
  · have hwalk : walkLinks ⟨threeFiles, [], []⟩
        (rulesFor fractionalLimit Settings.defaultExtensions []) (Disk.maxLinks + 1)
        ⟨[], Disk.maxLinks, .current⟩ threeFiles =
          .ok [⟨.relative, ["a.ts"]⟩, ⟨.relative, ["b.ts"]⟩, ⟨.relative, ["c.ts"]⟩] := rfl
    have hlimit : fractionalLimit.maxFiles.number? = some (.float (.ofInt 2)) := rfl
    have hmany : (Number.float (.ofInt 2)).lt (.int 3) = true := by decide
    rw [discover_of_walk (locate_current threeFiles) rfl rfl hwalk]
    simp only [limited, hlimit, List.length_mergeSort]
    exact if_pos hmany

end Discovery

end ThrowCatch
