import ThrowCatch.Proofs.FlowLists
import ThrowCatch.Proofs.LinkFree
import ThrowCatch.Proofs.Outcomes
import ThrowCatch.Proofs.SharedIndex
import ThrowCatch.Source.Grammar

/-!
Files that cannot be analysed. Without links a file is told by its resolved
path alone, so a file that cannot be analysed hides no other: put into a run at
any places, such files leave the analysed reports, every flow and the coverage
as they were, and they show among the skipped files only.
-/

namespace ThrowCatch

namespace Engine

/-! ### One file -/

/-- A path leads to a file that is refused, for the given reason. -/
def Refuses (e : Engine) (d : Disk) (p : Path) (reason : String) : Prop :=
  ∃ k, d.resolve p = .ok k ∧ Index.Refusal e.grammar d e.settings k reason

/-- Whether the analysis of a path by a fresh engine ends with a reason to skip
its file. -/
def fails (e : Engine) (d : Disk) (root : Option Path) (p : Path) : Bool :=
  match (e.analyzeFile d .empty root p).1 with
  | .ok report => !report.ok
  | .error _ => false

section

variable {e : Engine} {d : Disk} {root : Option Path} {p q k : Path} {reason : String}

theorem identity_eq_ok_iff (hlinks : d.top.linkCount = 0) :
    identity d p = .ok k ↔ d.resolve p = .ok k := by
  unfold identity
  obtain hnull | ⟨found, hfound⟩ := d.resolve_cases hlinks p
  · simp only [hnull, reduceCtorEq]
  · simp only [hfound, Except.ok.injEq]

/-- With a fresh index the file alone decides. -/
theorem analyzeFile_fresh (e : Engine) (d : Disk) (root : Option Path) (p : Path) :
    (e.analyzeFile d .empty root p).1 = e.reportFor (displayPath d root p)
      ((Index.key d p).bind (Index.parseFile e.grammar d e.settings)) := by
  rw [analyzeFile_eq, Index.get_result_of_miss fun _ _ => rfl]

theorem Refuses.identity_eq (h : e.Refuses d p reason) : ∃ k, identity d p = .ok k := by
  obtain ⟨k, hresolve, -⟩ := h
  exact ⟨k, identity_of_key (Index.key_eq_ok_iff.mpr hresolve)⟩

theorem Refuses.analyzeFile_eq (h : e.Refuses d p reason) (root : Option Path) :
    (e.analyzeFile d .empty root p).1 = .ok (.unavailable (displayPath d root p) reason) := by
  obtain ⟨k, hresolve, hrefusal⟩ := h
  rw [analyzeFile_fresh, Index.key_eq_ok_iff.mpr hresolve, Except.bind, hrefusal.parseFile_eq,
    reportFor, skipReason?_sourceUnavailable]

/-- What a fresh engine says of a file of source: it may be too large, or
malformed where that counts, and else it is reported on. -/
theorem analyzeFile_of_source {language : Language} {bytes : ByteArray} {limit : Int}
    (hresolve : d.resolve p = .ok k) (hlanguage : Language.ofPath? k = some language)
    (hstat : d.stat k = .ok (.file bytes)) (hlimit : e.settings.maxFileSizeBytes = .ok limit)
    (root : Option Path) :
    (e.analyzeFile d .empty root p).1 =
      if limit < bytes.size then
        .ok (.unavailable (displayPath d root p)
          ("file is " ++ toString bytes.size ++ " bytes, limit is " ++ toString limit))
      else if (e.grammar language bytes).hasErrors && e.settings.strictParse.truthy then
        .ok (.unavailable (displayPath d root p) "syntax errors in file")
      else e.reportOn (displayPath d root p)
        ⟨k, language, bytes.size, e.grammar language bytes⟩ := by
  have hread : d.read k = .ok bytes := by rw [Disk.read, hstat, Except.bind]
  split
  · rename_i hsize
    exact Refuses.analyzeFile_eq ⟨k, hresolve, .tooLarge hlanguage hstat hlimit hsize⟩ root
  · rename_i hsize
    split
    · rename_i herrors
      exact Refuses.analyzeFile_eq
        ⟨k, hresolve, .malformed hlanguage hstat hlimit hsize hread herrors⟩ root
    · rename_i herrors
      have hparse := Index.parseFile_of_source e.grammar d e.settings hlanguage hstat hlimit hsize
        hread (Bool.eq_false_iff.mpr herrors)
      rw [analyzeFile_fresh, Index.key_eq_ok_iff.mpr hresolve, Except.bind, hparse, reportFor]

theorem skipReason?_of_limit {s : Settings} {fault : Fault}
    (h : s.maxFileSizeBytes = .error fault) : skipReason? fault = none := by
  unfold Settings.maxFileSizeBytes at h
  split at h
  · cases h
  · split at h
    · cases h
      rfl
    · cases h
      rfl
    · cases h
  · cases h
    rfl

/-- All that a fresh engine can say of a path: the file is refused, the analysis
ends in a fault, or the file is reported on. -/
theorem analyzeFile_cases (hlinks : d.top.linkCount = 0) (e : Engine) (root : Option Path)
    (p : Path) :
    (∃ reason, e.Refuses d p reason) ∨
    (∃ fault, (e.analyzeFile d .empty root p).1 = .error fault) ∨
    ∃ f report, e.reportOn (displayPath d root p) f = .ok report ∧
      (e.analyzeFile d .empty root p).1 = .ok report := by
  rw [analyzeFile_fresh]
  obtain hnull | ⟨k, hk⟩ := d.resolve_cases hlinks p
  · have hkey : Index.key d p = .error .nullByte := by simp only [Index.key, hnull]
    rw [hkey]
    exact .inr (.inl ⟨_, rfl⟩)
  · rw [Index.key_eq_ok_iff.mpr hk, Except.bind]
    obtain ⟨reason, hrefusal, _⟩ | ⟨fault, hlimit, hparse⟩ | ⟨_, _, _, _, _, _, hparse⟩ :=
      Index.parseFile_cases e.grammar d e.settings k
    · exact .inl ⟨reason, k, hk, hrefusal⟩
    · rw [hparse, reportFor, skipReason?_of_limit hlimit]
      exact .inr (.inl ⟨fault, rfl⟩)
    · rw [hparse, reportFor]
      cases hreport : e.reportOn (displayPath d root p) _ with
      | error fault => exact .inr (.inl ⟨fault, rfl⟩)
      | ok report => exact .inr (.inr ⟨_, report, hreport, rfl⟩)

theorem fails_iff (hlinks : d.top.linkCount = 0) :
    e.fails d root p = true ↔ ∃ reason, e.Refuses d p reason := by
  constructor
  · intro h
    obtain hrefuses | ⟨fault, hfault⟩ | ⟨f, report, hon, hreport⟩ :=
      analyzeFile_cases hlinks e root p
    · exact hrefuses
    · rw [fails, hfault] at h
      cases h
    · obtain ⟨defined, -, rfl⟩ := reportOn_eq_ok_iff.mp hon
      rw [fails, hreport] at h
      cases h
  · rintro ⟨reason, hrefuses⟩
    rw [fails, hrefuses.analyzeFile_eq]
    rfl

/-- Two paths to one file are refused alike. -/
theorem Refuses.congr (hlinks : d.top.linkCount = 0) (h : e.Refuses d p reason)
    (hsame : identity d p = identity d q) : e.Refuses d q reason := by
  obtain ⟨k, hresolve, hrefusal⟩ := h
  refine ⟨k, (identity_eq_ok_iff hlinks).mp ?_, hrefusal⟩
  rw [← hsame]
  exact (identity_eq_ok_iff hlinks).mpr hresolve

end

/-! ### The choice of the files -/

/-- `all` is `kept` with the paths `added` put in at any places. -/
inductive Inserted : (added kept all : List Path) → Prop
  | done : Inserted [] [] []
  | keep {added kept all : List Path} (p : Path) (h : Inserted added kept all) :
      Inserted added (p :: kept) (p :: all)
  | insert {added kept all : List Path} (p : Path) (h : Inserted added kept all) :
      Inserted (p :: added) kept (p :: all)

theorem Inserted.mem_all {added kept all : List Path} (h : Inserted added kept all) {p : Path}
    (hp : p ∈ added) : p ∈ all := by
  induction h with
  | done => exact hp
  | keep q _ ih => exact List.mem_cons_of_mem q (ih hp)
  | insert q _ ih =>
      rcases List.mem_cons.mp hp with rfl | hp
      · exact List.mem_cons_self
      · exact List.mem_cons_of_mem q (ih hp)

section

variable {α : Type} {keep : α → Bool} {x : α}

theorem map_filter_cons_of_pos (h : keep x = true) (rest : Except Fault (List α)) :
    (rest.map (x :: ·)).map (List.filter keep) = (rest.map (List.filter keep)).map (x :: ·) := by
  cases rest with
  | error fault => rfl
  | ok xs => exact congrArg Except.ok (List.filter_cons_of_pos h)

theorem map_filter_cons_of_neg (h : keep x = false) (rest : Except Fault (List α)) :
    (rest.map (x :: ·)).map (List.filter keep) = rest.map (List.filter keep) := by
  cases rest with
  | error fault => rfl
  | ok xs => exact congrArg Except.ok (List.filter_cons_of_neg (Bool.eq_false_iff.mp h))

end

section

variable {d : Disk} {keep : Path → Bool} {seen seen' paths : List Path} {p k : Path}

/-- A path that is left out afterwards only counts its file as named. -/
theorem uniquePaths_of_drop (hdrop : keep p = false) (hid : identity d p = .ok k)
    (seen paths : List Path) :
    ∃ named, (∀ k', k' ∈ named ↔ k' = k ∨ k' ∈ seen) ∧
      (uniquePaths d seen (p :: paths)).map (List.filter keep) =
        (uniquePaths d named paths).map (List.filter keep) := by
  rw [uniquePaths, hid]
  simp only [List.contains_eq_mem, decide_eq_true_eq]
  split
  case isTrue hold =>
    refine ⟨seen, fun k' => ⟨.inr, ?_⟩, rfl⟩
    rintro (rfl | hk')
    · exact hold
    · exact hk'
  case isFalse =>
    exact ⟨k :: seen, fun k' => List.mem_cons, map_filter_cons_of_neg hdrop _⟩

/-- A path that stays is taken alike in two runs when its file counts as named
in both or in none. -/
theorem uniquePaths_of_keep {others : List Path} (hkeep : keep p = true)
    (hid : identity d p = .ok k) (hseen : k ∈ seen ↔ k ∈ seen')
    (hold : (uniquePaths d seen paths).map (List.filter keep) =
      (uniquePaths d seen' others).map (List.filter keep))
    (hnew : (uniquePaths d (k :: seen) paths).map (List.filter keep) =
      (uniquePaths d (k :: seen') others).map (List.filter keep)) :
    (uniquePaths d seen (p :: paths)).map (List.filter keep) =
      (uniquePaths d seen' (p :: others)).map (List.filter keep) := by
  rw [uniquePaths, uniquePaths, hid]
  simp only [List.contains_eq_mem, decide_eq_true_eq, hseen]
  split
  · exact hold
  · rw [map_filter_cons_of_pos hkeep, map_filter_cons_of_pos hkeep, hnew]

/-- Paths to files that are left out afterwards, put in at any places, do not
change the choice among the others. -/
theorem uniquePaths_inserted {added kept all : List Path} (h : Inserted added kept all)
    (hadded : ∀ p ∈ added, ∃ k, identity d p = .ok k ∧
      ∀ q, identity d q = .ok k → keep q = false)
    (hseen : ∀ q k, keep q = true → identity d q = .ok k → (k ∈ seen ↔ k ∈ seen')) :
    (uniquePaths d seen all).map (List.filter keep) =
      (uniquePaths d seen' kept).map (List.filter keep) := by
  -- the two runs may have named different files, but none that stays
  induction h generalizing seen seen' with
  | done => rfl
  | keep p _ ih =>
      cases hid : identity d p with
      | error fault => simp only [uniquePaths, hid]
      | ok k =>
          cases hp : keep p with
          | true =>
              refine uniquePaths_of_keep hp hid (hseen p k hp hid) (ih hadded hseen)
                (ih hadded ?_)
              intro q k' hq hk'
              rw [List.mem_cons, List.mem_cons, hseen q k' hq hk']
          | false =>
              obtain ⟨named, hnamed, hall⟩ := uniquePaths_of_drop hp hid seen _
              obtain ⟨named', hnamed', hkept⟩ := uniquePaths_of_drop hp hid seen' _
              rw [hall, hkept]
              refine ih hadded fun q k' hq hk' => ?_
              rw [hnamed, hnamed', hseen q k' hq hk']
  | insert p _ ih =>
      obtain ⟨k, hid, hfile⟩ := hadded p List.mem_cons_self
      obtain ⟨named, hnamed, hall⟩ := uniquePaths_of_drop (hfile p hid) hid seen _
      rw [hall]
      refine ih (fun q hq => hadded q (List.mem_cons_of_mem p hq)) fun q k' hq hk' => ?_
      have hne : k' ≠ k := by
        rintro rfl
        rw [hfile q hk'] at hq
        cases hq
      rw [hnamed, or_iff_right hne, hseen q k' hq hk']

/-- Each path of a run stands for a file that is taken, or was named before. -/
theorem exists_mem_uniquePaths {unique : List Path} (h : uniquePaths d seen paths = .ok unique)
    (hp : p ∈ paths) (hid : identity d p = .ok k) :
    k ∈ seen ∨ ∃ q ∈ unique, identity d q = .ok k := by
  induction paths generalizing seen unique with
  | nil => cases hp
  | cons first paths ih =>
      obtain ⟨k', hfirst, ⟨hold, hrest⟩ | ⟨_, rest, hrest, rfl⟩⟩ := uniquePaths_cons h
      · rcases List.mem_cons.mp hp with rfl | hp
        · rw [hid] at hfirst
          cases hfirst
          exact .inl hold
        · exact ih hrest hp
      · rcases List.mem_cons.mp hp with rfl | hp
        · exact .inr ⟨p, List.mem_cons_self, hid⟩
        · obtain hnamed | ⟨q, hq, hqid⟩ := ih hrest hp
          · rcases List.mem_cons.mp hnamed with rfl | hseen
            · exact .inr ⟨first, List.mem_cons_self, hfirst⟩
            · exact .inl hseen
          · exact .inr ⟨q, List.mem_cons_of_mem first hq, hqid⟩

end

/-! ### The reports -/

theorem mapM_cons_of_ok {f : Path → Except Fault FileReport} {p : Path} {report : FileReport}
    (h : f p = .ok report) (paths : List Path) :
    (p :: paths).mapM f = (paths.mapM f).map (report :: ·) := by
  rw [List.mapM_cons, h]
  cases paths.mapM f <;> rfl

/-- Paths that give failed reports do not show among the other reports. -/
theorem mapM_filter_ok {f : Path → Except Fault FileReport} {keep : Path → Bool}
    (hdrop : ∀ p, keep p = false → ∃ report, f p = .ok report ∧ report.ok = false)
    (paths : List Path) :
    (paths.mapM f).map (List.filter FileReport.ok) =
      ((paths.filter keep).mapM f).map (List.filter FileReport.ok) := by
  induction paths with
  | nil => rfl
  | cons p paths ih =>
      cases hp : keep p with
      | false =>
          obtain ⟨report, hreport, hfailed⟩ := hdrop p hp
          rw [List.filter_cons_of_neg (Bool.eq_false_iff.mp hp), mapM_cons_of_ok hreport,
            map_filter_cons_of_neg hfailed, ih]
      | true =>
          rw [List.filter_cons_of_pos hp]
          cases hreport : f p with
          | error fault =>
              rw [List.mapM_cons, List.mapM_cons, hreport]
              rfl
          | ok report =>
              rw [mapM_cons_of_ok hreport, mapM_cons_of_ok hreport]
              cases hok : report.ok with
              | true => rw [map_filter_cons_of_pos hok, map_filter_cons_of_pos hok, ih]
              | false => rw [map_filter_cons_of_neg hok, map_filter_cons_of_neg hok, ih]

theorem exists_failed_of_fails {e : Engine} {d : Disk} {root : Option Path} {p : Path}
    (h : (!e.fails d root p) = false) :
    ∃ report, (e.analyzeFile d .empty root p).1 = .ok report ∧ report.ok = false := by
  unfold fails at h
  split at h
  · exact ⟨_, ‹_›, by simpa using h⟩
  · cases h

/-- The analysed reports of a run, by the paths that do not fail. -/
theorem analyze_analyzed (e : Engine) (d : Disk) (root : Option Path) (paths : List Path) :
    (e.analyze d root .empty paths).1.map (·.analyzed) =
      ((uniquePaths d [] paths).map (List.filter fun p => !e.fails d root p)).bind fun unique =>
        (unique.mapM fun p => (e.analyzeFile d .empty root p).1).map
          (List.filter FileReport.ok) := by
  cases hunique : uniquePaths d [] paths with
  | error fault =>
      rw [analyze, onFiles, hunique]
      rfl
  | ok unique =>
      have hreports := mapM_filter_ok
        (fun p => @exists_failed_of_fails e d root p) unique
      rw [(analyze_eq e root .empty hunique).1]
      refine Eq.trans ?_ hreports
      cases unique.mapM fun p => (e.analyzeFile d .empty root p).1 <;> rfl

end Engine

namespace Analysis

variable {a b : Analysis}

/-- A flow is told by the analysed reports. -/
theorem flow_of_analyzed (h : b.analyzed = a.analyzed) (name : String) :
    b.flow name = a.flow name := by
  simp only [flow, pathsWhere, h]

theorem trace_of_analyzed (h : b.analyzed = a.analyzed) (name : String) :
    b.trace name = a.trace name := by
  unfold trace knows
  rw [h, flow_of_analyzed h]

theorem coverage_of_analyzed (h : b.analyzed = a.analyzed) : b.coverage = a.coverage := by
  have hflow : b.flow = a.flow := funext (flow_of_analyzed h)
  simp only [coverage, flows, declaredNames, declarations, h, hflow]

end Analysis

namespace Engine

section

variable {e : Engine} {d : Disk} {root : Option Path} {ix : Index} {paths : List Path}

theorem exists_uniquePaths (h : ∀ p ∈ paths, ∃ k, identity d p = .ok k) (seen : List Path) :
    ∃ unique, uniquePaths d seen paths = .ok unique := by
  induction paths generalizing seen with
  | nil => exact ⟨[], rfl⟩
  | cons p paths ih =>
      obtain ⟨k, hid⟩ := h p List.mem_cons_self
      have hrest := ih fun q hq => h q (List.mem_cons_of_mem p hq)
      rw [uniquePaths, hid]
      simp only
      split
      · exact hrest seen
      · obtain ⟨unique, hunique⟩ := hrest (k :: seen)
        rw [hunique]
        exact ⟨p :: unique, rfl⟩

/-- A run gives an analysis when every path can be resolved, the limit on sizes
is a number and the recognized names are texts. -/
theorem exists_analysis {limit : Int} (htexts : e.matcher.Textual)
    (hlimit : e.settings.maxFileSizeBytes = .ok limit) (h : ∀ p ∈ paths, ∃ k, d.resolve p = .ok k) :
    ∃ a, (e.analyze d root ix paths).1 = .ok a := by
  have hnamed : ∀ p ∈ paths, ∃ k, identity d p = .ok k := by
    intro p hp
    obtain ⟨k, hk⟩ := h p hp
    exact ⟨k, identity_of_key (Index.key_eq_ok_iff.mpr hk)⟩
  obtain ⟨unique, hunique⟩ := exists_uniquePaths hnamed []
  obtain ⟨⟨hapart, -⟩, -⟩ := apart_of_uniquePaths hunique
  have hreports :
      ∃ reports, unique.mapM (fun p => (e.analyzeFile d ix root p).1) = .ok reports := by
    apply exists_mapM_ok
    intro p hp
    obtain ⟨k, hid⟩ := hapart p hp
    cases hreport : (e.analyzeFile d ix root p).1 with
    | error fault =>
        rw [maxFileSizeBytes_of_analyzeFile_error htexts hid hreport] at hlimit
        cases hlimit
    | ok report => exact ⟨report, rfl⟩
  obtain ⟨reports, hreports⟩ := hreports
  rw [(analyze_eq e root ix hunique).1, hreports]
  exact ⟨⟨reports⟩, rfl⟩

/-- The reports of a run, by the files that are taken. -/
theorem files_of_analyze {a : Analysis} (h : (e.analyze d root ix paths).1 = .ok a) :
    uniquePaths d [] paths = .ok (firstOccurrences d paths) ∧
      a.files.map Except.ok =
        (firstOccurrences d paths).map fun p => (e.analyzeFile d ix root p).1 := by
  cases hunique : uniquePaths d [] paths with
  | error fault =>
      rw [analyze, onFiles, hunique] at h
      cases h
  | ok unique =>
      rw [(analyze_eq e root ix hunique).1] at h
      rw [← uniquePaths_eq_firstOccurrences hunique]
      cases hreports : unique.mapM fun p => (e.analyzeFile d ix root p).1 with
      | error fault =>
          rw [hreports] at h
          cases h
      | ok reports =>
          rw [hreports] at h
          cases h
          exact ⟨rfl, map_ok_of_mapM hreports⟩

/-- A refused file of a run is reported on under the first path to it, with its
reason and nothing else. -/
theorem Refuses.reported {p : Path} {reason : String} {b : Analysis}
    (h : e.Refuses d p reason) (hlinks : d.top.linkCount = 0)
    (hb : (e.analyze d root .empty paths).1 = .ok b) (hp : p ∈ paths) :
    (∃ q ∈ firstOccurrences d paths, sameFile d p q = true) ∧
      ∀ q ∈ firstOccurrences d paths, sameFile d p q = true →
        (e.analyzeFile d .empty root q).1 = .ok (.unavailable (displayPath d root q) reason) ∧
        .unavailable (displayPath d root q) reason ∈ b.skipped := by
  obtain ⟨k, hid⟩ := h.identity_eq
  obtain ⟨hunique, hfiles⟩ := files_of_analyze hb
  constructor
  · obtain hseen | ⟨q, hq, hqid⟩ := exists_mem_uniquePaths hunique hp hid
    · cases hseen
    · exact ⟨q, hq, (sameFile_iff hid).mpr hqid⟩
  · intro q hq hpq
    have hqid := (sameFile_iff hid).mp hpq
    have hreport := (h.congr hlinks (hid.trans hqid.symm)).analyzeFile_eq root
    have hmem : (.ok (.unavailable (displayPath d root q) reason) : Except Fault FileReport) ∈
        b.files.map Except.ok := by
      rw [hfiles, ← hreport]
      exact List.mem_map_of_mem hq
    obtain ⟨report, hfile, hsame⟩ := List.mem_map.mp hmem
    cases hsame
    exact ⟨hreport, List.mem_filter.mpr ⟨hfile, rfl⟩⟩

/-- Files that cannot be analysed do not show among the analysed reports. -/
theorem analyzed_inserted {added kept all : List Path} (hlinks : d.top.linkCount = 0)
    (hinserted : Inserted added kept all)
    (hfails : ∀ p ∈ added, e.fails d root p = true) :
    (e.analyze d root .empty all).1.map (·.analyzed) =
      (e.analyze d root .empty kept).1.map (·.analyzed) := by
  have hunique : (uniquePaths d [] all).map (List.filter fun p => !e.fails d root p) =
      (uniquePaths d [] kept).map (List.filter fun p => !e.fails d root p) := by
    refine uniquePaths_inserted hinserted (fun p hp => ?_) fun _ _ _ _ => Iff.rfl
    obtain ⟨reason, hrefuses⟩ := (fails_iff hlinks).mp (hfails p hp)
    obtain ⟨k, hid⟩ := hrefuses.identity_eq
    refine ⟨k, hid, fun q hq => ?_⟩
    -- another path to the file fails as well, so nothing that stays is hidden
    rw [(fails_iff hlinks).mpr ⟨reason, hrefuses.congr hlinks (hid.trans hq.symm)⟩]
    rfl
  rw [analyze_analyzed, analyze_analyzed, hunique]

end

/-- Files that cannot be analysed, put into a run of a fresh engine at any
places, hide nothing: the run ends as before, with the same analysed reports,
flows and coverage. Each of them is reported on under the first path to it,
with its reason and nothing else. -/
theorem failed_files_hide_nothing (e : Engine) (d : Disk) (root : Option Path)
    {added kept all : List Path} (hlinks : d.top.linkCount = 0)
    (hinserted : Inserted added kept all)
    (hfails : ∀ p ∈ added, e.fails d root p = true) :
    let before := (e.analyze d root .empty kept).1
    let after := (e.analyze d root .empty all).1
    (∀ p, e.fails d root p = true ↔ ∃ reason, e.Refuses d p reason) ∧
    (e.matcher.Textual → (∃ limit, e.settings.maxFileSizeBytes = .ok limit) →
      (∀ p ∈ kept, ∃ k, d.resolve p = .ok k) → ∃ a, before = .ok a) ∧
    (∀ fault, before = .error fault → after = .error fault) ∧
    ∀ a, before = .ok a → ∃ b, after = .ok b ∧ b.analyzed = a.analyzed ∧
      (∀ name, b.trace name = a.trace name) ∧ b.coverage = a.coverage ∧
      b.files.map Except.ok =
        (firstOccurrences d all).map (fun q => (e.analyzeFile d .empty root q).1) ∧
      ∀ p ∈ added, ∃ reason, e.Refuses d p reason ∧
        (∃ q ∈ firstOccurrences d all, sameFile d p q = true) ∧
        ∀ q ∈ firstOccurrences d all, sameFile d p q = true →
          (e.analyzeFile d .empty root q).1 =
            .ok ⟨displayPath d root q, [], [], [], 0, some reason⟩ ∧
          ⟨displayPath d root q, [], [], [], 0, some reason⟩ ∈ b.skipped := by
  intro before after
  have hsame : after.map (·.analyzed) = before.map (·.analyzed) :=
    analyzed_inserted hlinks hinserted hfails
  refine ⟨fun p => fails_iff hlinks, fun htexts ⟨limit, hlimit⟩ => exists_analysis htexts hlimit,
    ?_, ?_⟩
  · intro fault hfault
    rw [hfault] at hsame
    cases hafter : after with
    | error fault' =>
        rw [hafter] at hsame
        exact congrArg Except.error (Except.error.inj hsame)
    | ok b =>
        rw [hafter] at hsame
        cases hsame
  · intro a ha
    rw [ha] at hsame
    cases hafter : after with
    | error fault =>
        rw [hafter] at hsame
        cases hsame
    | ok b =>
        rw [hafter] at hsame
        have hanalyzed : b.analyzed = a.analyzed := Except.ok.inj hsame
        refine ⟨b, rfl, hanalyzed, Analysis.trace_of_analyzed hanalyzed,
          Analysis.coverage_of_analyzed hanalyzed, (files_of_analyze hafter).2, fun p hp => ?_⟩
        obtain ⟨reason, hrefuses⟩ := (fails_iff hlinks).mp (hfails p hp)
        exact ⟨reason, hrefuses, hrefuses.reported hlinks hafter (hinserted.mem_all hp)⟩

/-- A directory with one file of source and one of text. -/
def sourceAndText : Disk :=
  ⟨.directory [("a.ts", .file "throw e;".toUTF8), ("notes.txt", .file "none".toUTF8)], [], []⟩

theorem source_found_among_failed_files :
    let e : Engine := ⟨Source.grammar, .defaults, .ofTexts .substring ["Error"], "unknown"⟩
    let source : Path := ⟨.root, ["a.ts"]⟩
    let notes : Path := ⟨.root, ["notes.txt"]⟩
    let gone : Path := ⟨.root, ["gone.ts"]⟩
    ∃ a b, (e.analyze sourceAndText none .empty [source]).1 = .ok a ∧
      (e.analyze sourceAndText none .empty [notes, source, gone]).1 = .ok b ∧
      b.analyzed = a.analyzed ∧ b.trace "Error" = a.trace "Error" ∧ b.coverage = a.coverage := by
  intro e source notes gone
  have hlinks : sourceAndText.top.linkCount = 0 := rfl
  have hresolve : ∀ name ∈ ["a.ts", "notes.txt", "gone.ts"],
      sourceAndText.resolve ⟨.root, [name]⟩ = .ok ⟨.root, [name]⟩ := by
    simp only [List.forall_mem_cons, List.not_mem_nil, false_imp_iff, implies_true, and_true]
    refine ⟨?_, ?_, ?_⟩ <;>
      exact Disk.resolve_ordinary hlinks (by unfold Disk.Ordinary; decide) (by decide)
  have hnotes : e.Refuses sourceAndText notes _ :=
    ⟨notes, hresolve "notes.txt" (by decide), .unsupported (by decide +kernel)⟩
  have hstat : sourceAndText.stat gone = .error .missing := by
    have hshort : ¬ Disk.maxPathBytes < gone.text.utf8ByteSize := by decide
    rw [Disk.stat, Disk.locate, if_neg hshort, Disk.walkNames]
    rfl
  have hlanguage : Language.ofPath? gone = some .typescript := by decide +kernel
  have hgone : e.Refuses sourceAndText gone _ :=
    ⟨gone, hresolve "gone.ts" (by decide), .missing hlanguage hstat⟩
  have hfails : ∀ p ∈ [notes, gone], e.fails sourceAndText none p = true := by
    simp only [List.forall_mem_cons, List.not_mem_nil, false_imp_iff, implies_true, and_true]
    exact ⟨(fails_iff hlinks).mpr ⟨_, hnotes⟩, (fails_iff hlinks).mpr ⟨_, hgone⟩⟩
  obtain ⟨-, hgives, -, hsame⟩ := failed_files_hide_nothing e sourceAndText none hlinks
    (.insert notes (.keep source (.insert gone .done))) hfails
  obtain ⟨a, ha⟩ := hgives (Matcher.textual_ofTexts _ _) ⟨_, rfl⟩ fun p hp => by
    obtain rfl := List.mem_singleton.mp hp
    exact ⟨_, hresolve "a.ts" (by decide)⟩
  obtain ⟨b, hb, hanalyzed, htrace, hcoverage, -⟩ := hsame a ha
  exact ⟨a, b, ha, hb, hanalyzed, htrace "Error", hcoverage⟩

end Engine

end ThrowCatch
