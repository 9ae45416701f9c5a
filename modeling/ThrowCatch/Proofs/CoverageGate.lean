import ThrowCatch.CommandLine
import ThrowCatch.Proofs.CoverageDetails
import ThrowCatch.Proofs.DiscoveryFilter
import ThrowCatch.Proofs.FailedFiles
import ThrowCatch.Proofs.Outcomes
import ThrowCatch.Proofs.SettingsEntries

/-!
The gate on coverage. The share that a report shows is exact, so the exit code
of a run that asks for a least coverage is told by the numbers of declared and
of intercepted error types alone, without any rounding.
-/

namespace ThrowCatch

namespace Analysis

/-- An analysed file declares an error type under this name. -/
def Declared (a : Analysis) (name : String) : Prop :=
  name ≠ Sites.anonymousName ∧
    ∃ r ∈ a.files, r.failure = none ∧ ∃ decl ∈ r.defined, decl.name = name

/-- An analysed file intercepts the name. -/
def Intercepted (a : Analysis) (name : String) : Prop :=
  ∃ r ∈ a.files, r.failure = none ∧ ∃ site ∈ r.intercepted, site.name = name

instance (a : Analysis) : DecidablePred a.Intercepted := fun name =>
  inferInstanceAs (Decidable (∃ r ∈ a.files, r.failure = none ∧
    ∃ site ∈ r.intercepted, site.name = name))

/-- A list of the declared error types, each of them once. -/
structure DeclaredAre (a : Analysis) (names : List String) : Prop where
  nodup : names.Nodup
  mem_iff : ∀ name, name ∈ names ↔ a.Declared name

section

variable {a : Analysis} {names : List String} {name : String}

theorem declared_iff : a.Declared name ↔ name ∈ a.declaredNames := by
  simp only [Declared, mem_declaredNames, mem_analyzed, FileReport.defines_iff, and_assoc]

theorem intercepted_iff : a.Intercepted name ↔ (a.flow name).isIntercepted = true := by
  simp only [Intercepted, flow_isIntercepted, mem_analyzed, FileReport.intercepts_iff, and_assoc]

theorem declaredAre_declaredNames (a : Analysis) : a.DeclaredAre a.declaredNames where
  nodup := by
    rw [declaredNames_eq_distinct]
    exact Sites.distinct_nodup _
  mem_iff := fun _ => declared_iff.symm

theorem DeclaredAre.perm (h : a.DeclaredAre names) : names.Perm a.declaredNames := by
  rw [List.perm_ext_iff_of_nodup h.nodup (declaredAre_declaredNames a).nodup]
  intro name
  rw [h.mem_iff, declared_iff]

theorem DeclaredAre.total_eq (h : a.DeclaredAre names) : a.coverage.total = names.length := by
  rw [total_eq_length, h.perm.length_eq]

theorem DeclaredAre.covered_eq (h : a.DeclaredAre names) :
    a.coverage.covered = names.countP (a.Intercepted ·) := by
  rw [covered_eq_countP, h.perm.countP_eq]
  congr 2
  funext name
  rw [Bool.eq_iff_iff, decide_eq_true_iff, intercepted_iff]

/-- Fewer error types are intercepted than a least share in percent asks for.
Where nothing is declared, nothing is covered. -/
def Below (total covered : Nat) (least : Int) : Prop :=
  (1 ≤ total ∧ 200 * (covered : Int) + total < 2 * least * total) ∨ (total = 0 ∧ 0 < least)

/-- The share of a report is less than an integer exactly when the numbers say
so. -/
theorem DeclaredAre.percentage_lt_iff (h : a.DeclaredAre names) (hsmall : names.length ≤ 2 ^ 44)
    (least : Int) :
    a.coverage.percentage < least ↔
      Below names.length (names.countP (a.Intercepted ·)) least := by
  have hpercentage : a.coverage.percentage =
      (Coverage.percentageOf a.coverage.covered a.coverage.total).toOption.getD 0 := rfl
  rw [hpercentage, h.total_eq, h.covered_eq, Below]
  have hle : names.countP (a.Intercepted ·) ≤ names.length := List.countP_le_length
  generalize names.countP (a.Intercepted ·) = covered at hle ⊢
  generalize names.length = total at hle hsmall ⊢
  rcases Nat.eq_zero_or_pos total with rfl | htotal
  · simp [Coverage.percentageOf, Except.toOption]
  · have hwhole : (0 : Int) < 2 * total := by omega
    rw [Coverage.percentageOf_eq htotal hle, Coverage.floor_halfAbove htotal hsmall hle]
    simp only [Except.toOption, Option.getD_some, htotal.ne', false_and, or_false]
    push_cast
    rw [Int.ediv_lt_iff_lt_mul hwhole, show least * (2 * (total : Int)) = 2 * least * total by ring]
    exact (and_iff_right htotal).symm

/-! ### Printing the report -/

theorem length_pathsWhere_le (p : FileReport → Bool) :
    (a.pathsWhere p).length ≤ a.files.length := by
  have hsub : a.pathsWhere p ⊆ a.files.map (·.path) := by
    intro path hpath
    obtain ⟨r, hr, -, rfl⟩ := mem_pathsWhere.mp hpath
    exact List.mem_map_of_mem (mem_analyzed.mp hr).1
  have hnodup : (a.pathsWhere p).Nodup := Sites.distinct_nodup _
  simpa using (hnodup.subperm hsub).length_le

/-- The ratio of a name is a finite number, unless there are more files than
such a number can count. -/
theorem coverageRatio_finite (hfiles : a.files.length ≤ 2 ^ 64) (name : String) :
    ∃ m e, (a.flow name).coverageRatio = .finite false m e := by
  unfold Flow.coverageRatio
  split
  case isTrue => exact ⟨0, -1074, rfl⟩
  case isFalse hraised =>
    have hpos : 0 < (a.flow name).raisedIn.length := by
      rw [List.length_pos_iff]
      simpa using hraised
    have hlength : ((a.flow name).interceptedIn.length : ℚ) ≤ 2 ^ (64 : Int) := by
      exact_mod_cast (length_pathsWhere_le _).trans hfiles
    have hone : (1 : ℚ) ≤ (a.flow name).raisedIn.length := by exact_mod_cast hpos
    have hbound : ((100 * (a.flow name).interceptedIn.length : Nat) : ℚ) ≤
        (100 : Nat) * 2 ^ (64 : Int) * (a.flow name).raisedIn.length := by
      rw [Nat.cast_mul, mul_assoc]
      apply mul_le_mul_of_nonneg_left _ (Nat.cast_nonneg _)
      exact hlength.trans (le_mul_of_one_le_right (by positivity) hone)
    obtain ⟨m, e, hfinite, -⟩ := Double.ofQuotient_le false hpos (by norm_num) (by norm_num)
      (by norm_num) hbound
    exact ⟨m, e, hfinite⟩

theorem exists_detailRow (hfiles : a.files.length ≤ 2 ^ 64) {detail : CoverageDetail}
    (hdetail : detail ∈ a.coverage.details) : ∃ row, Render.detailRow detail = .ok row := by
  obtain ⟨flow, hflow, rfl⟩ := List.mem_map.mp hdetail
  obtain ⟨name, -, rfl⟩ := List.mem_map.mp hflow
  obtain ⟨m, e, hratio⟩ := coverageRatio_finite hfiles name
  unfold Render.detailRow Coverage.detailOf
  rw [hratio]
  exact ⟨_, rfl⟩

/-- The report on coverage can be printed. -/
theorem exists_coverage_text {f : Format} (h : f = .json ∨ a.files.length ≤ 2 ^ 64) :
    ∃ text, f.coverage a.coverage = .ok text := by
  cases f with
  | json => exact ⟨_, rfl⟩
  | terminal =>
      have hfiles : a.files.length ≤ 2 ^ 64 := by simpa using h
      obtain ⟨rows, hrows⟩ := exists_mapM_ok fun detail => exists_detailRow hfiles
      have htable : ∃ table, Render.detailTable a.coverage = .ok table := by
        unfold Render.detailTable
        split
        · exact ⟨_, rfl⟩
        · rw [hrows]
          exact ⟨_, rfl⟩
      obtain ⟨table, htable⟩ := htable
      simp only [Format.coverage, Render.terminalCoverage, htable]
      exact ⟨_, rfl⟩

end

end Analysis

namespace CommandLine

open Analysis

theorem of_request? {d : Disk} {c : Command} {args : List String} {r : Request}
    (h : request? d c args = some r) :
    r.command = c ∧ ∃ given, readArguments c args = some given ∧
      bounded 0 100 (given.value? .failUnder) = some r.failUnder := by
  unfold request? at h
  simp only [Option.bind_eq_bind, Option.bind_eq_some_iff] at h
  obtain ⟨given, hgiven, named, -, workers, -, failUnder, hleast, format, -, h⟩ := h
  split_ifs at h
  cases h
  exact ⟨rfl, given, hgiven, hleast⟩

theorem report_coverage {r : Request} {a : Analysis} {names : List String} {least : Int}
    (hnames : a.DeclaredAre names) (hsmall : names.length ≤ 2 ^ 44)
    (hcommand : r.command = .coverage) (hleast : r.failUnder = some least)
    (hprinted : r.format = .json ∨ a.files.length ≤ 2 ^ 64) :
    ∃ code text, report r a = .ok (code, text) ∧
      (code = 2 ↔ Below names.length (names.countP (a.Intercepted ·)) least) := by
  obtain ⟨text, htext⟩ := exists_coverage_text hprinted
  refine ⟨if a.coverage.percentage < least then 2 else 0, r.format.printed text, ?_, ?_⟩
  · simp only [report, hcommand, hleast, htext, Except.map, decide_eq_true_eq]
  · rw [← hnames.percentage_lt_iff hsmall]
    simp

theorem failUnder_of_request? {d : Disk} {args : List String} {r : Request} {given : Given}
    {text : String} {least : Int} (hread : readArguments .coverage args = some given)
    (htext : given.value? .failUnder = some text) (hleast : Reading.int? text = some least)
    (h : request? d .coverage args = some r) : r.failUnder = some least := by
  obtain ⟨-, given', hread', hbounded⟩ := of_request? h
  obtain rfl := Option.some.inj (hread.symm.trans hread')
  simp only [bounded, htext, hleast] at hbounded
  split_ifs at hbounded
  exact (Option.some.inj hbounded).symm

theorem exitCode_run {g : Grammar} {d : Disk} {env : List (String × String)}
    {args rest : List String} {c : Command} {r : Request} {s : Settings} {a : Analysis}
    {code : Nat} {text : String} (hcommand : command? args = some (c, rest))
    (hrequest : request? d c rest = some r)
    (hload : Settings.load d (r.config.map .ofString) env r.overrides = .ok s)
    (hanalysis : analysis g d s r = .ok a) (hreport : report r a = .ok (code, text)) :
    (run g d env args).exitCode = code := by
  simp only [run, hcommand, hrequest, perform, hload, hanalysis, Except.bind, hreport]

/-- The share in percent and the gate are exact. For a total of any size the
share of a part lies between zero and a hundred, reaches both at the ends and
grows with the part; up to a total of `2 ^ 44` it is the exact quotient, a half
going up. So the exit code follows from the numbers of declared and of
intercepted error types: of a report with any least share, and of a run with
one that the command line takes. It takes 0 to 100 for `--fail-under`; any other
value ends the run with 2 before there is an analysis. A terminal report is
printed as long as the files can be counted by machine words. -/
theorem percentage_and_gate_exact :
    (∀ part part' total : Int, 0 ≤ part → part ≤ part' → part' ≤ total → 1 ≤ total →
      ∃ p p', Coverage.percentageOf part total = .ok p ∧
        Coverage.percentageOf part' total = .ok p' ∧ 0 ≤ p ∧ p ≤ p' ∧ p' ≤ 100) ∧
    (∀ total : Int, 1 ≤ total →
      Coverage.percentageOf 0 total = .ok 0 ∧ Coverage.percentageOf total total = .ok 100) ∧
    (∀ part total : Int, 0 ≤ part → part ≤ total → 1 ≤ total → total ≤ 2 ^ 44 →
      Coverage.percentageOf part total = .ok ((200 * part + total) / (2 * total))) ∧
    ∀ (a : Analysis) (names : List String) (least : Int), a.DeclaredAre names →
      names.length ≤ 2 ^ 44 →
      let total := names.length
      let covered := names.countP (a.Intercepted ·)
      let below := (1 ≤ total ∧ 200 * (covered : Int) + total < 2 * least * total) ∨
        (total = 0 ∧ 0 < least)
      (∀ r : Request, r.command = .coverage → r.failUnder = some least →
        r.format = .json ∨ a.files.length ≤ 2 ^ 64 →
        ∃ code text, report r a = .ok (code, text) ∧ (code = 2 ↔ below)) ∧
      ∀ (g : Grammar) (d : Disk) (env : List (String × String)) (args rest : List String)
        (given : Given) (text : String) (r : Request) (s : Settings),
        command? args = some (.coverage, rest) → readArguments .coverage rest = some given →
        given.value? .failUnder = some text → Reading.int? text = some least →
        request? d .coverage rest = some r →
        Settings.load d (r.config.map .ofString) env r.overrides = .ok s →
        analysis g d s r = .ok a → r.format = .json ∨ a.files.length ≤ 2 ^ 64 →
        ((run g d env args).exitCode = 2 ↔ below) := by
  refine ⟨?_, ?_, ?_, ?_⟩
  · intro part part' total hpart hgrows htotal hpos
    lift part to Nat using hpart
    lift part' to Nat using by omega
    lift total to Nat using by omega
    have hpos : 0 < total := by omega
    have hle : part ≤ part' := by omega
    have hle' : part' ≤ total := by omega
    refine ⟨_, _, Coverage.percentageOf_eq hpos (hle.trans hle'), Coverage.percentageOf_eq hpos hle',
      (Coverage.floor_halfAbove_mem hpos (hle.trans hle')).1, ?_,
      (Coverage.floor_halfAbove_mem hpos hle').2⟩
    exact Int.floor_mono (Coverage.halfAbove_mono hle)
  · intro total hpos
    lift total to Nat using by omega
    have hpos : 0 < total := by omega
    constructor
    · have hzero := Coverage.percentageOf_eq hpos (Nat.zero_le total)
      rwa [Coverage.floor_halfAbove_zero] at hzero
    · rw [Coverage.percentageOf_eq hpos le_rfl, Coverage.floor_halfAbove_self hpos]
  · intro part total hpart htotal hpos hsmall
    lift part to Nat using hpart
    lift total to Nat using by omega
    have hpos : 0 < total := by omega
    have hle : part ≤ total := by omega
    have hsmall : total ≤ 2 ^ 44 := by omega
    rw [Coverage.percentageOf_eq hpos hle, Coverage.floor_halfAbove hpos hsmall hle]
    push_cast
    rfl
  · intro a names least hnames hsmall total covered below
    refine ⟨fun r hcommand hleast hprinted => ?_, ?_⟩
    · exact report_coverage hnames hsmall hcommand hleast hprinted
    · intro g d env args rest given text r s hcommand hread htext hleast hrequest hload hanalysis
        hprinted
      have hunder := failUnder_of_request? hread htext hleast hrequest
      obtain ⟨code, printed, hreport, hcode⟩ :=
        report_coverage hnames hsmall (of_request? hrequest).1 hunder hprinted
      rw [exitCode_run hcommand hrequest hload hanalysis hreport]
      exact hcode

/-- A directory with one file, which declares an error type. -/
def oneError : Entry := .directory [("a.ts", .file "class A extends Error \x7b\x7d".toUTF8)]

/-- What is reported on the file. -/
def oneReport : FileReport := ⟨"a.ts", [⟨"A", "Error", ⟨"a.ts", 1⟩⟩], [], [], 0, none⟩

def atLeastOne : Request :=
  ⟨.coverage, "", ".", .terminal, [], none, none, some 1, false, false⟩

theorem request_oneError :
    request? ⟨oneError, [], []⟩ .coverage ["--fail-under", "1"] = some atLeastOne := by
  have hcurrent : Path.ofString "." = .current := by decide +kernel
  have hstat : (Disk.mk oneError [] []).stat (.ofString ".") = .ok oneError := by
    rw [hcurrent, Disk.stat, Discovery.locate_current]
    rfl
  have hdirectory : isDirectoryText ⟨oneError, [], []⟩ "." = true := by
    rw [isDirectoryText, statText, hstat]
    decide +kernel
  have hgiven : readArguments .coverage ["--fail-under", "1"] =
      some ⟨[⟨.failUnder, "1"⟩], []⟩ := by decide +kernel
  simp only [request?, hgiven, namedPath, Option.bind_eq_bind, Option.bind_some, hdirectory]
  rfl

theorem load_oneError :
    Settings.load ⟨oneError, [], []⟩ (atLeastOne.config.map .ofString) [] atLeastOne.overrides =
      .ok .defaults := by
  have hhome : Settings.Says ⟨oneError, [], []⟩ (Settings.globalFile ⟨oneError, [], []⟩) [] :=
    Settings.says_top_missing rfl rfl (by decide) (by decide) rfl
  have hproject : Settings.Says ⟨oneError, [], []⟩ (Settings.projectFile ⟨oneError, [], []⟩) [] :=
    Settings.says_top_missing rfl rfl (by decide) (by decide) rfl
  rw [Settings.load, Settings.gather, Settings.fromOptionalFile_of_says hhome,
    Settings.fromOptionalFile_of_says hproject]
  rfl

theorem discover_oneError :
    Discovery.discover ⟨oneError, [], []⟩ .defaults .current [] =
      .ok ⟨[⟨.relative, ["a.ts"]⟩], []⟩ := by
  have hwalk : Discovery.walkLinks ⟨oneError, [], []⟩
      (Discovery.rulesFor .defaults Settings.defaultExtensions
        (Settings.defaultExclusions.map .str))
      (Disk.maxLinks + 1) ⟨[], Disk.maxLinks, .current⟩ oneError =
        .ok [⟨.relative, ["a.ts"]⟩] := by decide +kernel
  rw [Discovery.discover_of_walk (Discovery.locate_current oneError) rfl rfl hwalk,
    List.map_singleton, List.mergeSort_singleton]
  rfl

theorem analysis_oneError :
    analysis Source.grammar ⟨oneError, [], []⟩ .defaults atLeastOne = .ok ⟨[oneReport]⟩ := by
  have hroot : Path.ofString "." = .current := by decide +kernel
  have hresolve : (Disk.mk oneError [] []).resolve ⟨.relative, ["a.ts"]⟩ =
      .ok ⟨.root, ["a.ts"]⟩ := Disk.resolve_at_root rfl rfl (by decide) (by decide)
  have hcurrent : (Disk.mk oneError [] []).resolve .current = .ok ⟨.root, []⟩ :=
    Disk.resolve_at_root rfl rfl (by decide) (by decide)
  have hstat : (Disk.mk oneError [] []).stat ⟨.root, ["a.ts"]⟩ = .ok (.file _) :=
    Disk.stat_top rfl rfl (by decide) (by decide)
  have hid := (Engine.identity_eq_ok_iff rfl).mpr hresolve
  have hunique : Engine.uniquePaths ⟨oneError, [], []⟩ [] [⟨.relative, ["a.ts"]⟩] =
      .ok [⟨.relative, ["a.ts"]⟩] := by
    rw [Engine.uniquePaths, hid]
    rfl
  have hshown : Engine.displayPath ⟨oneError, [], []⟩ (some .current) ⟨.relative, ["a.ts"]⟩ =
      "a.ts" := by
    simp only [Engine.displayPath, hid, (Engine.identity_eq_ok_iff rfl).mpr hcurrent]
    decide +kernel
  obtain ⟨e, he⟩ : ∃ e, Engine.ofSettings Source.grammar .defaults = .ok e := ⟨_, rfl⟩
  have hreport : (e.analyzeFile ⟨oneError, [], []⟩ .empty (some .current)
      ⟨.relative, ["a.ts"]⟩).1 = .ok oneReport := by
    cases he
    rw [Engine.analyzeFile_of_source hresolve (by decide +kernel : _ = some .typescript) hstat rfl,
      hshown]
    decide +kernel
  simp only [analysis, atLeastOne, hroot, List.map_nil, discover_oneError, he, bind, Except.bind]
  rw [(Engine.analyze_eq e _ _ hunique).1, List.mapM_cons, hreport]
  rfl

theorem gate_on_one_error :
    (run Source.grammar ⟨oneError, [], []⟩ [] ["coverage", "--fail-under", "1"]).exitCode = 2 ∧
      Coverage.percentageOf 2 3 = .ok 67 ∧ Coverage.percentageOf 1 200 = .ok 1 := by
  obtain ⟨-, -, hexact, hgate⟩ := percentage_and_gate_exact
  refine ⟨?_, hexact 2 3 ?_ ?_ ?_ ?_, hexact 1 200 ?_ ?_ ?_ ?_⟩
  · have hnames : (Analysis.mk [oneReport]).DeclaredAre ["A"] := declaredAre_declaredNames _
    obtain ⟨-, hrun⟩ := hgate _ _ 1 hnames (by decide)
    refine (hrun Source.grammar ⟨oneError, [], []⟩ [] _ _ ⟨[⟨.failUnder, "1"⟩], []⟩ "1" _ _ rfl rfl
      rfl rfl request_oneError load_oneError analysis_oneError (.inr (by decide))).mpr (.inl ?_)
    decide
  all_goals decide

end CommandLine

end ThrowCatch
