import Mathlib.Data.List.Forall2
import ThrowCatch.Coverage
import ThrowCatch.Proofs.FlowLists

/-!
Reports in another order. Which of several declaring files defines a name
depends on the order of the reports, and so does the order of every list; all
else is the same. The counts agree because a list without repetitions is as
long as any other list of the same members.
-/

namespace ThrowCatch

/-- Two flows of one name through the same files, in any order. -/
structure Flow.Alike (f g : Flow) : Prop where
  name : f.name = g.name
  defining : (f.definedIn.toList ++ f.duplicateDefinitions).Perm
    (g.definedIn.toList ++ g.duplicateDefinitions)
  raised : f.raisedIn.Perm g.raisedIn
  intercepted : f.interceptedIn.Perm g.interceptedIn
  unguarded : f.unguardedIn.Perm g.unguardedIn

/-- Two details on one name that differ at most in the order of the risky
files. -/
structure CoverageDetail.Alike (x y : CoverageDetail) : Prop where
  name : x.name = y.name
  ratio : x.ratio = y.ratio
  risky : x.riskyFiles.Perm y.riskyFiles

namespace Flow.Alike

variable {f g : Flow}

theorem coverageRatio_eq (h : f.Alike g) : f.coverageRatio = g.coverageRatio := by
  unfold coverageRatio
  rw [h.raised.isEmpty_eq, h.raised.length_eq, h.intercepted.length_eq]

theorem isIntercepted_eq (h : f.Alike g) : f.isIntercepted = g.isIntercepted := by
  unfold isIntercepted
  rw [h.intercepted.isEmpty_eq]

theorem detailOf (h : f.Alike g) : (Coverage.detailOf f).Alike (Coverage.detailOf g) where
  name := h.name
  ratio := congrArg Number.float h.coverageRatio_eq
  risky := h.unguarded

end Flow.Alike

namespace Analysis

section

variable {reports others : List FileReport}

theorem knows_perm (h : reports.Perm others) (name : String) :
    (Analysis.mk reports).knows name = (Analysis.mk others).knows name :=
  (analyzed_perm h).any_eq

theorem flow_alike (h : reports.Perm others) (name : String) :
    ((Analysis.mk reports).flow name).Alike ((Analysis.mk others).flow name) where
  name := rfl
  defining := by
    rw [flow_defining, flow_defining]
    exact pathsWhere_perm h _
  raised := pathsWhere_perm h _
  intercepted := pathsWhere_perm h _
  unguarded := by
    have hintercepted := pathsWhere_perm h (·.intercepts name)
    have hsame : ∀ path, ((Analysis.mk reports).pathsWhere (·.intercepts name)).contains path =
        ((Analysis.mk others).pathsWhere (·.intercepts name)).contains path :=
      fun path => hintercepted.contains_eq
    simp only [flow, hsame]
    exact (pathsWhere_perm h _).filter _

/-- The flows of the one order, taken by the names of the other. -/
theorem flows_alike (h : reports.Perm others) :
    ∃ flows, (Analysis.mk reports).flows.Perm flows ∧
      List.Forall₂ Flow.Alike flows (Analysis.mk others).flows := by
  refine ⟨(Analysis.mk others).declaredNames.map (Analysis.mk reports).flow,
    (declaredNames_perm h).map _, ?_⟩
  unfold flows
  rw [List.forall₂_map_left_iff, List.forall₂_map_right_iff, List.forall₂_same]
  exact fun name _ => flow_alike h name

end

end Analysis

namespace Coverage

/-- How many flows are intercepted depends neither on their order nor on the
order of the files in them. -/
theorem counts_of_alike {flows middle others : List Flow} (hperm : flows.Perm middle)
    (halike : List.Forall₂ Flow.Alike middle others) :
    (ofFlows flows).total = (ofFlows others).total ∧
      (ofFlows flows).covered = (ofFlows others).covered ∧
      (ofFlows flows).uncovered = (ofFlows others).uncovered ∧
      (ofFlows flows).percentage = (ofFlows others).percentage := by
  have hlength : flows.length = others.length := hperm.length_eq.trans halike.length_eq
  have hfilter : List.Forall₂ Flow.Alike (middle.filter (·.isIntercepted))
      (others.filter (·.isIntercepted)) := by
    refine List.rel_filter ?_ halike
    intro f g hfg
    simp only [hfg.isIntercepted_eq]
  have hcovered : (flows.filter (·.isIntercepted)).length =
      (others.filter (·.isIntercepted)).length :=
    (hperm.filter _).length_eq.trans hfilter.length_eq
  simp only [ofFlows, hlength, hcovered, and_self]

theorem details_of_alike {flows middle others : List Flow} (hperm : flows.Perm middle)
    (halike : List.Forall₂ Flow.Alike middle others) :
    ∃ details, (ofFlows flows).details.Perm details ∧
      List.Forall₂ CoverageDetail.Alike details (ofFlows others).details := by
  refine ⟨middle.map detailOf, hperm.map _, ?_⟩
  unfold ofFlows
  rw [List.forall₂_map_left_iff, List.forall₂_map_right_iff]
  exact halike.imp fun _ _ hfg => hfg.detailOf

theorem risky_names_of_alike {c c' : Coverage} {details : List CoverageDetail}
    (hperm : c.details.Perm details)
    (halike : List.Forall₂ CoverageDetail.Alike details c'.details) :
    (c.risky.map (·.name)).Perm (c'.risky.map (·.name)) := by
  have hfilter : List.Forall₂ CoverageDetail.Alike
      (details.filter fun d => !d.riskyFiles.isEmpty) c'.risky := by
    refine List.rel_filter ?_ halike
    intro x y hxy
    simp only [hxy.risky.isEmpty_eq]
  have hnames : (details.filter fun d => !d.riskyFiles.isEmpty).map (·.name) =
      c'.risky.map (·.name) := by
    rw [← List.forall₂_eq_eq_eq, List.forall₂_map_left_iff, List.forall₂_map_right_iff]
    exact hfilter.imp fun _ _ hxy => hxy.name
  rw [← hnames]
  exact (hperm.filter _).map _

end Coverage

/-- The order of the reports shows in the order of files and names only, and
in the choice of the defining file. -/
theorem Analysis.order_shows_in_order_only {reports others : List FileReport}
    (h : reports.Perm others) :
    let a := Analysis.mk reports
    let b := Analysis.mk others
    (∀ name, a.knows name = b.knows name ∧ (a.flow name).Alike (b.flow name) ∧
      (a.flow name).coverageRatio = (b.flow name).coverageRatio) ∧
    (a.coverage.total = b.coverage.total ∧ a.coverage.covered = b.coverage.covered ∧
      a.coverage.uncovered = b.coverage.uncovered ∧
      a.coverage.percentage = b.coverage.percentage) ∧
    (∃ details, a.coverage.details.Perm details ∧
      List.Forall₂ CoverageDetail.Alike details b.coverage.details) ∧
    (a.coverage.risky.map (·.name)).Perm (b.coverage.risky.map (·.name)) := by
  intro a b
  obtain ⟨middle, hperm, halike⟩ := Analysis.flows_alike h
  obtain ⟨details, hdetails, hsame⟩ := Coverage.details_of_alike hperm halike
  refine ⟨fun name => ?_, Coverage.counts_of_alike hperm halike, ⟨details, hdetails, hsame⟩,
    Coverage.risky_names_of_alike hdetails hsame⟩
  have hflow := Analysis.flow_alike h name
  exact ⟨Analysis.knows_perm h name, hflow, hflow.coverageRatio_eq⟩

/-- Two files that declare and raise one name: the first of them defines it. -/
theorem Analysis.swapped_files_alike :
    let declaring : String → FileReport := fun path =>
      ⟨path, [⟨"LoginError", "Error", ⟨path, 1⟩⟩], [⟨"LoginError", .raised, ⟨path, 2⟩⟩], [], 0,
        none⟩
    let reports := [declaring "a.ts", declaring "b.ts"]
    let others := [declaring "b.ts", declaring "a.ts"]
    reports.Perm others ∧
      ((Analysis.mk reports).flow "LoginError").definedIn = some "a.ts" ∧
      ((Analysis.mk others).flow "LoginError").definedIn = some "b.ts" ∧
      ((Analysis.mk reports).flow "LoginError").Alike ((Analysis.mk others).flow "LoginError") ∧
      (Analysis.mk reports).coverage.total = (Analysis.mk others).coverage.total := by
  intro declaring reports others
  have hperm : reports.Perm others := List.Perm.swap _ _ _
  obtain ⟨hflows, ⟨htotal, _⟩, _⟩ := Analysis.order_shows_in_order_only hperm
  exact ⟨hperm, by decide +kernel, by decide +kernel, (hflows "LoginError").2.1, htotal⟩

end ThrowCatch
