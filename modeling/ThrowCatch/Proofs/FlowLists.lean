import ThrowCatch.Flow
import ThrowCatch.Proofs.Distinct

/-!
The lists of a flow. Each of them names the analysed files with one property,
every file once and in the order of the first report on it; the declared names
are listed in the same way. What is said here of members, order and growth is
all that the results on whole flows use.
-/

namespace ThrowCatch

namespace FileReport

theorem defines_iff {r : FileReport} {name : String} :
    r.defines name = true ↔ ∃ decl ∈ r.defined, decl.name = name := by
  simp [defines]

theorem intercepts_iff {r : FileReport} {name : String} :
    r.intercepts name = true ↔ ∃ site ∈ r.intercepted, site.name = name := by
  simp [intercepts]

end FileReport

namespace Analysis

theorem mem_analyzed {a : Analysis} {r : FileReport} :
    r ∈ a.analyzed ↔ r ∈ a.files ∧ r.failure = none := by
  simp [analyzed, FileReport.ok]

theorem analyzed_append (reports more : List FileReport) :
    (Analysis.mk (reports ++ more)).analyzed =
      (Analysis.mk reports).analyzed ++ (Analysis.mk more).analyzed :=
  List.filter_append ..

theorem analyzed_perm {reports others : List FileReport} (h : reports.Perm others) :
    (Analysis.mk reports).analyzed.Perm (Analysis.mk others).analyzed :=
  h.filter _

/-! ### Paths -/

theorem mem_pathsWhere {a : Analysis} {p : FileReport → Bool} {path : String} :
    path ∈ a.pathsWhere p ↔ ∃ r ∈ a.analyzed, p r = true ∧ r.path = path := by
  simp [pathsWhere, and_assoc]

theorem pathsWhere_eq_nil {a : Analysis} {p : FileReport → Bool} :
    a.pathsWhere p = [] ↔ ∀ r ∈ a.analyzed, p r = false := by
  rw [List.eq_nil_iff_forall_not_mem]
  simp only [mem_pathsWhere, not_exists, not_and, ← Bool.not_eq_true]
  constructor
  · intro h r hr hp
    exact h r.path r hr hp rfl
  · intro h path r hr hp _
    exact h r hr hp

theorem pathsWhere_prefix_append (reports more : List FileReport) (p : FileReport → Bool) :
    (Analysis.mk reports).pathsWhere p <+: (Analysis.mk (reports ++ more)).pathsWhere p := by
  unfold pathsWhere
  rw [analyzed_append, List.filter_append, List.map_append, Sites.distinct_append]
  exact List.prefix_append _ _

/-- Reports without the property add no path. -/
theorem pathsWhere_append_of_none {more : List FileReport} {p : FileReport → Bool}
    (h : ∀ r ∈ more, p r = false) (reports : List FileReport) :
    (Analysis.mk (reports ++ more)).pathsWhere p = (Analysis.mk reports).pathsWhere p := by
  have hnone : (Analysis.mk more).analyzed.filter p = [] := by
    rw [List.filter_eq_nil_iff]
    intro r hr
    simp [h r (mem_analyzed.mp hr).1]
  unfold pathsWhere
  rw [analyzed_append, List.filter_append, hnone, List.append_nil]

theorem pathsWhere_perm {reports others : List FileReport} (h : reports.Perm others)
    (p : FileReport → Bool) :
    ((Analysis.mk reports).pathsWhere p).Perm ((Analysis.mk others).pathsWhere p) :=
  Sites.distinct_perm (((analyzed_perm h).filter p).map _)

/-! ### Names -/

/-- The names of all declarations that have one, as they are met. -/
def discovered (a : Analysis) : List String :=
  (a.analyzed.flatMap fun r => r.defined.map (·.name)).filter (· != Sites.anonymousName)

theorem declaredNames_eq_distinct (a : Analysis) :
    a.declaredNames = Sites.distinct a.discovered := by
  rw [declaredNames, discovered, declarations, List.map_flatMap]

theorem mem_discovered {a : Analysis} {name : String} :
    name ∈ a.discovered ↔
      name ≠ Sites.anonymousName ∧ ∃ r ∈ a.analyzed, r.defines name = true := by
  simp only [discovered, List.mem_filter, List.mem_flatMap, List.mem_map, bne_iff_ne,
    FileReport.defines_iff]
  exact and_comm

theorem mem_declaredNames {a : Analysis} {name : String} :
    name ∈ a.declaredNames ↔
      name ≠ Sites.anonymousName ∧ ∃ r ∈ a.analyzed, r.defines name = true := by
  rw [declaredNames_eq_distinct, Sites.mem_distinct, mem_discovered]

theorem declaredNames_prefix_append (reports more : List FileReport) :
    (Analysis.mk reports).declaredNames <+: (Analysis.mk (reports ++ more)).declaredNames := by
  simp only [declaredNames_eq_distinct, discovered, analyzed_append, List.flatMap_append,
    List.filter_append, Sites.distinct_append]
  exact List.prefix_append _ _

theorem declaredNames_perm {reports others : List FileReport} (h : reports.Perm others) :
    (Analysis.mk reports).declaredNames.Perm (Analysis.mk others).declaredNames := by
  simp only [declaredNames_eq_distinct, discovered]
  exact Sites.distinct_perm (((analyzed_perm h).flatMap_right _).filter _)

/-! ### Flows -/

theorem knows_iff {a : Analysis} {name : String} :
    a.knows name = true ↔
      ∃ r ∈ a.analyzed, r.defines name = true ∨ r.raises name = true := by
  simp [knows]

/-- The defining file and the duplicates together are the declaring files. -/
theorem flow_defining (a : Analysis) (name : String) :
    (a.flow name).definedIn.toList ++ (a.flow name).duplicateDefinitions =
      a.pathsWhere (·.defines name) := by
  simp only [flow]
  cases a.pathsWhere (·.defines name) <;> rfl

theorem flow_isIntercepted {a : Analysis} {name : String} :
    (a.flow name).isIntercepted = true ↔ ∃ r ∈ a.analyzed, r.intercepts name = true := by
  have hnil : (a.flow name).interceptedIn = [] ↔ ∀ r ∈ a.analyzed, r.intercepts name = false :=
    pathsWhere_eq_nil
  rw [Flow.isIntercepted, Bool.not_eq_true', ← Bool.not_eq_true, List.isEmpty_iff, hnil]
  simp

end Analysis

end ThrowCatch
