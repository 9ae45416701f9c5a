import ThrowCatch.Proofs.FailedFiles
import ThrowCatch.Proofs.SharedIndex
import ThrowCatch.Source.Grammar

/-!
Runs whose files are analysed by a pool of workers. The workers take the files
up in any order and share one index; the answers are gathered by the position
of their files. No order can be told from the result: the reports, the set of
entries held and the count of parses are those of the run in the given order.
-/

namespace ThrowCatch.Engine

/-- Files that are apart are answered as if each were the first. -/
theorem runTasks_eq (e : Engine) {d : Disk} (root : Option Path) {tasks : List (Path × Nat)}
    (h : Apart d (tasks.map (·.1))) (ix : Index) :
    e.runTasks d root ix tasks =
      (tasks.map fun t => (t.2, (e.analyzeFile d ix root t.1).1),
        Index.storeAll e.grammar d e.settings ix (tasks.map (·.1))) := by
  induction tasks generalizing ix with
  | nil => simp [runTasks, Index.storeAll]
  | cons task tasks ih =>
      obtain ⟨p, i⟩ := task
      obtain ⟨hapart, hothers, hstore⟩ := apart_cons e root h ix
      have hrest := ih hapart (e.analyzeFile d ix root p).2
      have hanswers : ∀ t ∈ tasks,
          (t.2, (e.analyzeFile d (e.analyzeFile d ix root p).2 root t.1).1) =
            (t.2, (e.analyzeFile d ix root t.1).1) := by
        intro t ht
        rw [hothers t.1 (List.mem_map_of_mem ht)]
      rw [List.map_congr_left hanswers, hstore] at hrest
      simp only [runTasks, hrest, List.map_cons]

theorem lookup_eq_some_of_mem {α : Type} {answers : List (Nat × α)} {i : Nat} {a : α}
    (hmem : (i, a) ∈ answers) (honly : ∀ b, (i, b) ∈ answers → b = a) :
    answers.lookup i = some a := by
  induction answers with
  | nil => cases hmem
  | cons entry answers ih =>
      obtain ⟨j, b⟩ := entry
      by_cases hj : i = j
      · subst hj
        rw [List.lookup_cons_self, honly b List.mem_cons_self]
      · have hmem : (i, a) ∈ answers := by simpa [hj] using hmem
        rw [List.lookup_cons, beq_false_of_ne hj]
        exact ih hmem fun b hb => honly b (List.mem_cons_of_mem _ hb)

theorem gather_eq_mapM {paths : List Path} {tasks : List (Path × Nat)}
    (h : tasks.Perm paths.zipIdx) (f : Path → Except Fault FileReport) :
    gather paths.length (tasks.map fun t => (t.2, f t.1)) = paths.mapM f := by
  have hlookup : ∀ t ∈ paths.zipIdx,
      (tasks.map fun t => (t.2, f t.1)).lookup t.2 = some (f t.1) := by
    intro t ht
    apply lookup_eq_some_of_mem
    · exact List.mem_map_of_mem (f := fun t => (t.2, f t.1)) (h.mem_iff.mpr ht)
    -- two tasks with one position are the same task
    · intro b hb
      obtain ⟨t', ht', heq⟩ := List.mem_map.mp hb
      obtain ⟨hpos, rfl⟩ := Prod.mk.inj heq
      have hthis := List.mem_zipIdx_iff_getElem?.mp ht
      have hthat := List.mem_zipIdx_iff_getElem?.mp (h.mem_iff.mp ht')
      rw [hpos, hthis] at hthat
      rw [Option.some.inj hthat]
  have hrange : List.range paths.length = paths.zipIdx.map (·.2) := by
    rw [List.zipIdx_map_snd, List.range_eq_range']
  have hpaths : paths.zipIdx.map (fun t => f t.1) = paths.map f := by
    rw [show (fun t : Path × Nat => f t.1) = f ∘ Prod.fst from rfl, ← List.map_map,
      List.zipIdx_map_fst]
  rw [gather, hrange, List.filterMap_map, Function.comp_def, List.filterMap_congr hlookup,
    List.filterMap_eq_map', hpaths, List.mapM_map]
  rfl

theorem analyzePool_eq (e : Engine) {d : Disk} (root : Option Path) (ix : Index)
    {schedule : List (Path × Nat) → List (Path × Nat)} {files : List Path} (h : Apart d files)
    (hperm : (schedule files.zipIdx).Perm files.zipIdx) :
    ((schedule files.zipIdx).map (·.1)).Perm files ∧
      e.analyzePool d root ix schedule files =
        (files.mapM fun p => (e.analyzeFile d ix root p).1,
          Index.storeAll e.grammar d e.settings ix ((schedule files.zipIdx).map (·.1))) := by
  have hfiles : ((schedule files.zipIdx).map (·.1)).Perm files := by
    have hmap := hperm.map (·.1)
    rwa [List.zipIdx_map_fst] at hmap
  refine ⟨hfiles, ?_⟩
  simp only [analyzePool, runTasks_eq e root (h.perm hfiles.symm)]
  rw [gather_eq_mapM hperm fun p => (e.analyzeFile d ix root p).1]

theorem run_eq (e : Engine) (d : Disk) (root : Option Path) (ix : Index) (crew : Crew)
    (paths : List Path) :
    e.run d root ix crew paths =
      if e.pooled crew (firstOccurrences d paths).length then
        e.analyzeScheduled d root ix crew.schedule paths
      else e.analyze d root ix paths := by
  cases hunique : uniquePaths d [] paths with
  | error fault => simp only [run, analyzeScheduled, analyze, onFiles, hunique, ite_self]
  | ok unique =>
      rw [← uniquePaths_eq_firstOccurrences hunique]
      simp only [run, analyzeScheduled, analyze, onFiles, hunique]
      split <;> rfl

/-- The result of a run does not depend on the order in which its files are
taken up. The reports stand in the order of the paths, one for each file at
the first path that stands for it, and each is the report on that file
alone. The index comes out the same when the run ends in an analysis, and with
texts for names in any case: the run in the given order stops at a fault, and a
pool does not. -/
theorem analyze_independent_of_schedule (e : Engine) (d : Disk) (root : Option Path)
    (ix : Index) (paths : List Path) (schedule : List (Path × Nat) → List (Path × Nat))
    (hschedule : ∀ tasks, (schedule tasks).Perm tasks) :
    (e.analyzeScheduled d root ix schedule paths).1 = (e.analyze d root ix paths).1 ∧
    (e.matcher.Textual ∨ (∃ a, (e.analyze d root ix paths).1 = .ok a) →
      (e.analyzeScheduled d root ix schedule paths).2.entries.Perm
        (e.analyze d root ix paths).2.entries ∧
      (e.analyzeScheduled d root ix schedule paths).2.parseCount =
        (e.analyze d root ix paths).2.parseCount) ∧
    (∀ a, (e.analyze d root ix paths).1 = .ok a →
      a.files.map Except.ok =
        (firstOccurrences d paths).map fun p => (e.analyzeFile d ix root p).1) ∧
    ∀ crew : Crew, crew.schedule = schedule →
      e.run d root ix crew paths =
        if e.pooled crew (firstOccurrences d paths).length then
          e.analyzeScheduled d root ix schedule paths
        else e.analyze d root ix paths := by
  have hrun : ∀ crew : Crew, crew.schedule = schedule →
      e.run d root ix crew paths =
        if e.pooled crew (firstOccurrences d paths).length then
          e.analyzeScheduled d root ix schedule paths
        else e.analyze d root ix paths := by
    rintro crew rfl
    exact run_eq e d root ix crew paths
  cases hunique : uniquePaths d [] paths with
  | error fault =>
      refine ⟨?_, ?_, ?_, hrun⟩
      all_goals simp [analyzeScheduled, analyze, onFiles, hunique]
  | ok unique =>
      obtain ⟨hpaths, hpool⟩ := analyzePool_eq e root ix (apart_of_uniquePaths hunique).1
        (hschedule unique.zipIdx)
      obtain ⟨hresult, hindex⟩ := analyze_eq e root ix hunique
      have hscheduled : e.analyzeScheduled d root ix schedule paths =
          ((unique.mapM fun p => (e.analyzeFile d ix root p).1).map Analysis.mk,
            Index.storeAll e.grammar d e.settings ix ((schedule unique.zipIdx).map (·.1))) := by
        simp only [analyzeScheduled, onFiles, hunique, hpool]
      refine ⟨?_, fun hlasts => ?_, fun a ha => ?_, hrun⟩
      · rw [hscheduled, hresult]
      · rw [hresult] at hlasts
        have hlasts : e.Lasts d root ix unique := by
          refine hlasts.imp id ?_
          rintro ⟨a, ha⟩
          obtain ⟨reports, hreports, -⟩ := map_eq_ok ha
          exact ⟨reports, hreports⟩
        rw [hscheduled, hindex hlasts]
        exact Index.storeAll_perm hpaths ix
      · rw [hresult] at ha
        rw [← uniquePaths_eq_firstOccurrences hunique]
        obtain ⟨reports, hreports, rfl⟩ := map_eq_ok ha
        exact map_ok_of_mapM hreports

def throwAndClass : Disk :=
  ⟨.directory [("a.ts", .file "throw e;".toUTF8),
    ("b.ts", .file "class B extends Error \x7b\x7d".toUTF8)], [], []⟩

def throwAndClassReports : List FileReport :=
  [⟨"a.ts", [], [⟨"e", .reraised, ⟨"a.ts", 1⟩⟩], [], 0, none⟩,
    ⟨"b.ts", [⟨"B", "Error", ⟨"b.ts", 1⟩⟩], [], [], 0, none⟩]

/-- Both files are parsed, and the second path to the first one adds nothing. -/
theorem analyze_throwAndClass :
    let e : Engine := ⟨Source.grammar, .defaults, .ofTexts .substring ["Error"], "unknown"⟩
    let after := e.analyze throwAndClass none .empty
      [Path.ofString "a.ts", Path.ofString "b.ts", Path.ofString "/a.ts"]
    after.1 = .ok ⟨throwAndClassReports⟩ ∧
      after.2.entries.map (·.1) = [⟨.root, ["a.ts"]⟩, ⟨.root, ["b.ts"]⟩] ∧
      after.2.parseCount = 2 := by
  intro e after
  have ha : throwAndClass.resolve (Path.ofString "a.ts") = .ok ⟨.root, ["a.ts"]⟩ :=
    Disk.resolve_at_root rfl rfl (by decide +kernel) (by decide +kernel)
  have hb : throwAndClass.resolve (Path.ofString "b.ts") = .ok ⟨.root, ["b.ts"]⟩ :=
    Disk.resolve_at_root rfl rfl (by decide +kernel) (by decide +kernel)
  have hagain : throwAndClass.resolve (Path.ofString "/a.ts") = .ok ⟨.root, ["a.ts"]⟩ :=
    Disk.resolve_at_root rfl rfl (by decide +kernel) (by decide +kernel)
  have hstata : throwAndClass.stat ⟨.root, ["a.ts"]⟩ = .ok (.file _) :=
    Disk.stat_top rfl rfl (by decide) (by decide)
  have hstatb : throwAndClass.stat ⟨.root, ["b.ts"]⟩ = .ok (.file _) :=
    Disk.stat_top rfl rfl (by decide) (by decide)
  have hlimit : e.settings.maxFileSizeBytes = .ok 5242880 := by decide +kernel
  have hunique : uniquePaths throwAndClass []
      [Path.ofString "a.ts", Path.ofString "b.ts", Path.ofString "/a.ts"] =
        .ok [Path.ofString "a.ts", Path.ofString "b.ts"] := by
    simp only [uniquePaths, (identity_eq_ok_iff rfl).mpr ha, (identity_eq_ok_iff rfl).mpr hb,
      (identity_eq_ok_iff rfl).mpr hagain]
    decide +kernel
  obtain ⟨hresult, hindex⟩ := analyze_eq e none .empty hunique
  refine ⟨?_, ?_⟩
  · have hreporta : (e.analyzeFile throwAndClass .empty none (Path.ofString "a.ts")).1 =
        .ok ⟨"a.ts", [], [⟨"e", .reraised, ⟨"a.ts", 1⟩⟩], [], 0, none⟩ := by
      rw [analyzeFile_of_source ha (by decide +kernel : _ = some .typescript) hstata hlimit]
      decide +kernel
    have hreportb : (e.analyzeFile throwAndClass .empty none (Path.ofString "b.ts")).1 =
        .ok ⟨"b.ts", [⟨"B", "Error", ⟨"b.ts", 1⟩⟩], [], [], 0, none⟩ := by
      rw [analyzeFile_of_source hb (by decide +kernel : _ = some .typescript) hstatb hlimit]
      decide +kernel
    rw [hresult, List.mapM_cons, List.mapM_cons, hreporta, hreportb]
    rfl
  · have hparse : ∀ {k : Path} {language : Language} {bytes : ByteArray},
        Language.ofPath? k = some language → throwAndClass.stat k = .ok (.file bytes) →
          ¬ (5242880 : Int) < Index.sizeOf (.file bytes) →
            Index.parseFile e.grammar throwAndClass e.settings k =
              .ok ⟨k, language, bytes.size, e.grammar language bytes⟩ := by
      intro k language bytes hlanguage hstat hsize
      have hread : throwAndClass.read k = .ok bytes := by rw [Disk.read, hstat, Except.bind]
      exact Index.parseFile_of_source _ _ _ hlanguage hstat hlimit hsize hread (Bool.and_false _)
    have hparsea := hparse (by decide +kernel : _ = some .typescript) hstata (by decide +kernel)
    have hparseb := hparse (by decide +kernel : _ = some .typescript) hstatb (by decide +kernel)
    rw [hindex (.inl (Matcher.textual_ofTexts _ _))]
    simp [Index.storeAll, Index.added?, Index.key_eq_ok_iff.mpr ha, Index.key_eq_ok_iff.mpr hb,
      hparsea, hparseb, Except.toOption, Index.empty, Index.find?]

theorem reversed_schedule_agrees :
    let e : Engine := ⟨Source.grammar, .defaults, .ofTexts .substring ["Error"], "unknown"⟩
    let after := e.analyzeScheduled throwAndClass none .empty List.reverse
      [Path.ofString "a.ts", Path.ofString "b.ts", Path.ofString "/a.ts"]
    (∀ tasks : List (Path × Nat), tasks.reverse.Perm tasks) ∧
      after.1 = .ok ⟨throwAndClassReports⟩ ∧
      (after.2.entries.map (·.1)).Perm [⟨.root, ["a.ts"]⟩, ⟨.root, ["b.ts"]⟩] ∧
      after.2.parseCount = 2 := by
  intro e after
  have hreverse : ∀ tasks : List (Path × Nat), tasks.reverse.Perm tasks := List.reverse_perm
  obtain ⟨hresult, hindex, -⟩ := analyze_independent_of_schedule e throwAndClass none .empty
    [Path.ofString "a.ts", Path.ofString "b.ts", Path.ofString "/a.ts"] List.reverse hreverse
  obtain ⟨hentries, hcount⟩ := hindex (.inl (Matcher.textual_ofTexts _ _))
  obtain ⟨hreports, hkeys, hparses⟩ := analyze_throwAndClass
  exact ⟨hreverse, hresult.trans hreports, hkeys ▸ hentries.map (·.1), hcount.trans hparses⟩

end ThrowCatch.Engine
