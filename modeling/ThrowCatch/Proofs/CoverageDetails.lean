import ThrowCatch.Coverage
import ThrowCatch.Proofs.FlowLists
import ThrowCatch.Proofs.Percentage

/-!
Coverage against the flows of single names. The report on all error types has
one detail for each declared name, and that detail is what tracing the name
gives; the counts are those of the details, and the percentage is one.
-/

namespace ThrowCatch

namespace Coverage

/-- The share of a part is a whole number from zero to a hundred. -/
theorem percentageOf_le_hundred {part total : Nat} (h : part ≤ total) :
    ∃ p : Nat, percentageOf part total = .ok (p : Int) ∧ p ≤ 100 := by
  rcases Nat.eq_zero_or_pos total with rfl | htotal
  · exact ⟨0, rfl, Nat.zero_le _⟩
  · obtain ⟨hlow, hhigh⟩ := floor_halfAbove_mem htotal h
    refine ⟨⌊halfAbove part total⌋.toNat, ?_, by omega⟩
    rw [percentageOf_eq htotal h, Int.toNat_of_nonneg hlow]

end Coverage

namespace Analysis

theorem details_names (a : Analysis) : a.coverage.details.map (·.name) = a.declaredNames := by
  simp only [coverage, Coverage.ofFlows, flows, List.map_map]
  exact List.map_id' _

/-- Every declared name can be traced, and gives its flow. -/
theorem trace_of_mem_declaredNames {a : Analysis} {name : String} (h : name ∈ a.declaredNames) :
    a.trace name = .ok (a.flow name) := by
  obtain ⟨-, r, hr, hdefines⟩ := mem_declaredNames.mp h
  rw [trace, if_pos (knows_iff.mpr ⟨r, hr, .inl hdefines⟩)]

theorem covered_eq_countP (a : Analysis) :
    a.coverage.covered =
      a.declaredNames.countP fun name => (a.flow name).isIntercepted := by
  simp only [coverage, Coverage.ofFlows, flows, List.filter_map, List.length_map,
    List.countP_eq_length_filter, Function.comp_def]

theorem total_eq_length (a : Analysis) : a.coverage.total = a.declaredNames.length := by
  simp only [coverage, Coverage.ofFlows, flows, List.length_map]

/-- The report on the coverage of all error types, told name by name. -/
theorem coverage_tells_traces (a : Analysis) :
    let c := a.coverage
    let names := c.details.map (·.name)
    (∀ name, name ∈ names ↔ name ≠ Sites.anonymousName ∧
      ∃ r ∈ a.files, r.failure = none ∧ ∃ decl ∈ r.defined, decl.name = name) ∧
    names.Nodup ∧
    names.Pairwise (fun m n => a.discovered.idxOf m < a.discovered.idxOf n) ∧
    (∀ detail ∈ c.details, ∃ flow, a.trace detail.name = .ok flow ∧
      detail = ⟨detail.name, .float flow.coverageRatio, flow.unguardedIn⟩) ∧
    c.total = c.details.length ∧
    c.covered = names.countP (fun name =>
      ∃ r ∈ a.files, r.failure = none ∧ ∃ site ∈ r.intercepted, site.name = name) ∧
    c.covered + c.uncovered = c.total ∧
    Coverage.percentageOf c.covered c.total = .ok c.percentage ∧
    0 ≤ c.percentage ∧ c.percentage ≤ 100 := by
  intro c names
  have hnames : names = a.declaredNames := details_names a
  have hcovered : c.covered = a.declaredNames.countP fun name => (a.flow name).isIntercepted :=
    covered_eq_countP a
  have hpart : (a.declaredNames.countP fun name => (a.flow name).isIntercepted) ≤
      a.declaredNames.length := List.countP_le_length
  obtain ⟨p, hp, hle⟩ := Coverage.percentageOf_le_hundred hpart
  rw [← hcovered, ← total_eq_length] at hp
  have hpercentage : c.percentage = p := by
    change ((Coverage.percentageOf c.covered c.total).toOption.getD 0) = p
    rw [hp]
    rfl
  refine ⟨fun name => ?_, ?_, ?_, ?_, ?_, ?_, ?_, ?_, ?_, ?_⟩
  · rw [hnames, mem_declaredNames]
    simp only [mem_analyzed, FileReport.defines_iff, and_assoc]
  · rw [hnames, declaredNames_eq_distinct]
    exact Sites.distinct_nodup _
  · rw [hnames, declaredNames_eq_distinct]
    exact Sites.distinct_pairwise_idxOf _
  · intro detail hdetail
    obtain ⟨flow, hflow, rfl⟩ := List.mem_map.mp hdetail
    obtain ⟨name, hname, rfl⟩ := List.mem_map.mp hflow
    exact ⟨a.flow name, trace_of_mem_declaredNames hname, rfl⟩
  · rw [total_eq_length, ← hnames, List.length_map]
  · rw [hcovered, hnames]
    congr 1
    apply List.countP_congr
    intro name _
    simp only [flow_isIntercepted, decide_eq_true_eq, mem_analyzed, FileReport.intercepts_iff,
      and_assoc]
  · exact add_sub_cancel c.covered c.total
  · rw [hp, hpercentage]
  · omega
  · omega

end Analysis

end ThrowCatch
