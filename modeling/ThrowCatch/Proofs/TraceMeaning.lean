import Mathlib.Data.List.Infix
import ThrowCatch.Proofs.FlowLists

/-!
What a flow says about the files. Each of its lists names the files of some
reports, and is pinned down by three things: which files are in it, that each
is in it once, and that a file comes before another when it was met before it.
A run over the reports keeps all three, report by report.
-/

namespace ThrowCatch

namespace Text

theorem occursIn_iff (needle hay : List Char) :
    occursIn needle hay = true ↔ needle <:+: hay := by
  induction hay with
  | nil => rw [occursIn, List.isEmpty_iff, List.infix_nil]
  | cons c hay ih =>
      rw [occursIn, Bool.or_eq_true, ih, List.isPrefixOf_iff_prefix, List.infix_cons_iff]

theorem contains_iff {needle hay : String} :
    contains needle hay = true ↔ needle.toList <:+: hay.toList :=
  occursIn_iff needle.toList hay.toList

end Text

theorem FileReport.raises_iff {r : FileReport} {name : String} :
    r.raises name = true ↔ ∃ site ∈ r.raised, name.toList <:+: site.name.toList := by
  simp [raises, Text.contains_iff]

namespace Analysis

/-- A report that analysed a file of a path and has a property. -/
def Finds (kind : FileReport → Prop) (path : String) (r : FileReport) : Prop :=
  r.failure = none ∧ kind r ∧ r.path = path

/-- One path is found by a report that stands before every report that finds
the other one. -/
def FoundBefore (a : Analysis) (kind : FileReport → Prop) (path other : String) : Prop :=
  ∃ (i : Nat) (r : FileReport), a.files[i]? = some r ∧ Finds kind path r ∧
    ∀ (j : Nat) (r' : FileReport), a.files[j]? = some r' → Finds kind other r' → i < j

/-- A list names the analysed files with a property, each once, in the order
of the first report that finds it. -/
structure NamesFiles (a : Analysis) (kind : FileReport → Prop) (paths : List String) : Prop where
  mem : ∀ path, path ∈ paths ↔ ∃ r ∈ a.files, Finds kind path r
  nodup : paths.Nodup
  order : paths.Pairwise (a.FoundBefore kind)

section

variable {reports : List FileReport} {kind : FileReport → Prop} {paths : List String}
  {r : FileReport}

theorem FoundBefore.concat {path other : String}
    (h : (Analysis.mk reports).FoundBefore kind path other) :
    (Analysis.mk (reports ++ [r])).FoundBefore kind path other := by
  obtain ⟨i, found, hi, hfinds, hbefore⟩ := h
  have hlt : i < reports.length := (List.getElem?_eq_some_iff.mp hi).1
  refine ⟨i, found, by rw [List.getElem?_append_left hlt]; exact hi, hfinds, fun j r' hj hr' => ?_⟩
  rcases Nat.lt_or_ge j reports.length with hold | hnew
  · rw [List.getElem?_append_left hold] at hj
    exact hbefore j r' hj hr'
  · omega

theorem foundBefore_concat {path : String} (hpath : ∃ r ∈ reports, Finds kind path r)
    (hnew : ∀ r' ∈ reports, ¬ Finds kind r.path r') :
    (Analysis.mk (reports ++ [r])).FoundBefore kind path r.path := by
  obtain ⟨found, hmem, hfinds⟩ := hpath
  obtain ⟨i, hlt, hi⟩ := List.mem_iff_getElem.mp hmem
  refine ⟨i, found, ?_, hfinds, fun j r' hj hr' => ?_⟩
  · rw [List.getElem?_append_left hlt, List.getElem?_eq_getElem hlt, hi]
  rcases Nat.lt_or_ge j reports.length with hold | hlate
  · rw [List.getElem?_append_left hold] at hj
    exact absurd hr' (hnew r' (List.mem_of_getElem? hj))
  · omega

theorem NamesFiles.concat_of_known (h : (Analysis.mk reports).NamesFiles kind paths)
    (hknown : r.failure = none → kind r → r.path ∈ paths) :
    (Analysis.mk (reports ++ [r])).NamesFiles kind paths := by
  refine ⟨fun path => ?_, h.nodup, h.order.imp FoundBefore.concat⟩
  rw [h.mem]
  simp only [List.mem_append, List.mem_singleton, or_and_right, exists_or, exists_eq_left]
  refine (or_iff_left_of_imp ?_).symm
  rintro ⟨hok, hkind, rfl⟩
  exact (h.mem r.path).mp (hknown hok hkind)

theorem NamesFiles.concat_of_new (h : (Analysis.mk reports).NamesFiles kind paths)
    (hok : r.failure = none) (hkind : kind r) (hnew : r.path ∉ paths) :
    (Analysis.mk (reports ++ [r])).NamesFiles kind (paths ++ [r.path]) := by
  refine ⟨fun path => ?_, ?_, ?_⟩
  · simp only [List.mem_append, List.mem_singleton, h.mem, or_and_right, exists_or,
      exists_eq_left]
    refine or_congr_right ⟨?_, ?_⟩
    · rintro rfl
      exact ⟨hok, hkind, rfl⟩
    · rintro ⟨-, -, rfl⟩
      rfl
  · refine List.nodup_append.mpr ⟨h.nodup, List.pairwise_singleton _ _, ?_⟩
    rintro path hpath path' hpath' rfl
    exact hnew (List.mem_singleton.mp hpath' ▸ hpath)
  · refine List.pairwise_append.mpr ⟨h.order.imp FoundBefore.concat, List.pairwise_singleton _ _,
      fun path hpath path' hpath' => ?_⟩
    obtain rfl := List.mem_singleton.mp hpath'
    exact foundBefore_concat ((h.mem path).mp hpath)
      fun r' hr' hfinds => hnew ((h.mem r.path).mpr ⟨r', hr', hfinds⟩)

end

theorem pathsWhere_concat (reports : List FileReport) (r : FileReport) (p : FileReport → Bool) :
    (Analysis.mk (reports ++ [r])).pathsWhere p =
      if r.failure = none ∧ p r = true ∧ r.path ∉ (Analysis.mk reports).pathsWhere p then
        (Analysis.mk reports).pathsWhere p ++ [r.path]
      else (Analysis.mk reports).pathsWhere p := by
  have hmem : r.path ∈ (Analysis.mk reports).pathsWhere p ↔
      r.path ∈ ((Analysis.mk reports).analyzed.filter p).map (·.path) := Sites.mem_distinct
  by_cases hfound : r.failure = none ∧ p r = true
  · have hone : (Analysis.mk [r]).analyzed.filter p = [r] := by
      simp [analyzed, FileReport.ok, hfound]
    unfold pathsWhere at hmem ⊢
    rw [analyzed_append, List.filter_append, hone, List.map_append, List.map_singleton,
      Sites.distinct_concat]
    by_cases hold : r.path ∈ ((Analysis.mk reports).analyzed.filter p).map (·.path)
    · rw [if_pos hold, if_neg fun h => h.2.2 (hmem.mpr hold)]
    · rw [if_neg hold, if_pos ⟨hfound.1, hfound.2, fun h => hold (hmem.mp h)⟩]
  · have hnone : (Analysis.mk [r]).analyzed.filter p = [] := by
      simp only [List.filter_eq_nil_iff, mem_analyzed, List.mem_singleton]
      rintro r' ⟨rfl, hok⟩ hp
      exact hfound ⟨hok, hp⟩
    rw [if_neg fun h => hfound ⟨h.1, h.2.1⟩]
    unfold pathsWhere
    rw [analyzed_append, List.filter_append, hnone, List.append_nil]

theorem namesFiles_pathsWhere {kind : FileReport → Prop} {p : FileReport → Bool}
    (hp : ∀ r, p r = true ↔ kind r) (a : Analysis) : a.NamesFiles kind (a.pathsWhere p) := by
  obtain ⟨reports⟩ := a
  induction reports using List.reverseRecOn with
  | nil => exact ⟨by simp [pathsWhere, analyzed, Sites.distinct], List.nodup_nil, List.Pairwise.nil⟩
  | append_singleton reports r ih =>
      rw [pathsWhere_concat]
      split
      case isTrue h => exact ih.concat_of_new h.1 ((hp r).mp h.2.1) h.2.2
      case isFalse h =>
        refine ih.concat_of_known fun hok hkind => ?_
        by_contra hnew
        exact h ⟨hok, (hp r).mpr hkind, hnew⟩

/-- A flow is never refused, and its lists are the files that raise the name as
a part of a raised one, those that intercept and those that declare exactly it,
the first of these being the one that defines it. -/
theorem trace_tells_files (a : Analysis) (name : String) :
    let f := a.flow name
    f.check = .ok f ∧ f.name = name ∧
    a.NamesFiles (fun r => ∃ site ∈ r.raised, name.toList <:+: site.name.toList) f.raisedIn ∧
    a.NamesFiles (fun r => ∃ site ∈ r.intercepted, site.name = name) f.interceptedIn ∧
    f.unguardedIn = f.raisedIn.filter (· ∉ f.interceptedIn) ∧
    a.NamesFiles (fun r => ∃ decl ∈ r.defined, decl.name = name)
      (f.definedIn.toList ++ f.duplicateDefinitions) ∧
    (f.definedIn = none ↔
      ∀ r ∈ a.files, r.failure = none → ∀ decl ∈ r.defined, decl.name ≠ name) := by
  intro f
  have hunguarded : f.unguardedIn = f.raisedIn.filter (· ∉ f.interceptedIn) := by
    refine List.filter_congr fun path _ => ?_
    rw [List.contains_eq_mem, decide_not]
    rfl
  have hdefining : a.NamesFiles (fun r => ∃ decl ∈ r.defined, decl.name = name)
      (f.definedIn.toList ++ f.duplicateDefinitions) := by
    rw [flow_defining]
    exact namesFiles_pathsWhere (fun _ => FileReport.defines_iff) a
  refine ⟨?_, rfl, namesFiles_pathsWhere (fun _ => FileReport.raises_iff) a,
    namesFiles_pathsWhere (fun _ => FileReport.intercepts_iff) a, hunguarded, hdefining, ?_⟩
  · have hsubset : (f.unguardedIn.all fun p => f.raisedIn.contains p) = true := by
      rw [hunguarded, List.all_eq_true]
      intro path hpath
      exact List.contains_iff_mem.mpr (List.mem_of_mem_filter hpath)
    rw [Flow.check, if_pos hsubset]
  · have hnone : f.definedIn = none ↔ a.pathsWhere (·.defines name) = [] :=
      List.head?_eq_none_iff
    rw [hnone, pathsWhere_eq_nil]
    simp only [mem_analyzed, ← Bool.not_eq_true, FileReport.defines_iff]
    constructor
    · intro h r hr hok decl hdecl hname
      exact h r ⟨hr, hok⟩ ⟨decl, hdecl, hname⟩
    · rintro h r ⟨hr, hok⟩ ⟨decl, hdecl, hname⟩
      exact h r hr hok decl hdecl hname

/-- Of two reports on one file the first raises the name and the second declares
and intercepts it; the report on the last file is a failed one. -/
example :
    let site : String → SiteKind → Site := fun name kind => ⟨name, kind, ⟨"a.ts", 1⟩⟩
    let decl : Declaration := ⟨"LoginError", "Error", ⟨"b.ts", 1⟩⟩
    (Analysis.mk
      [⟨"b.ts", [decl], [site "errors.LoginError" .raised], [], 0, none⟩,
        ⟨"a.ts", [], [site "LoginError" .raised], [], 0, none⟩,
        ⟨"a.ts", [decl], [], [site "LoginError" .intercepted], 0, none⟩,
        ⟨"c.ts", [decl], [], [], 0, some "missing"⟩]).flow "LoginError" =
      ⟨"LoginError", some "b.ts", ["b.ts", "a.ts"], ["a.ts"], ["b.ts"], ["a.ts"]⟩ := by
  decide +kernel

end Analysis

end ThrowCatch
