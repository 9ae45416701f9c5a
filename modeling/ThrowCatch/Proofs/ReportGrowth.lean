import Mathlib.Algebra.Order.Field.Rat
import Mathlib.Data.List.Infix
import ThrowCatch.Proofs.FlowLists

/-!
One more report. The lists of a flow only grow at their ends, and the file that
defines a name keeps doing so; what is known or intercepted stays so. As long
as the new file does not intercept the name, no unguarded file becomes guarded
and the share of intercepting files does not rise.
-/

namespace ThrowCatch

namespace Flow

/-- Intercepting files for each raising file, exactly. -/
def exactRatio (f : Flow) : ℚ := f.interceptedIn.length / f.raisedIn.length

theorem exactRatio_le {f g : Flow} (hintercepted : g.interceptedIn = f.interceptedIn)
    (hraised : f.raisedIn <+: g.raisedIn) (hsome : f.raisedIn ≠ []) :
    g.exactRatio ≤ f.exactRatio := by
  have hpos : (0 : ℚ) < f.raisedIn.length := by
    exact_mod_cast List.length_pos_iff.mpr hsome
  have hle : (f.raisedIn.length : ℚ) ≤ g.raisedIn.length := by
    exact_mod_cast hraised.length_le
  unfold exactRatio
  rw [hintercepted]
  exact div_le_div_of_nonneg_left (Nat.cast_nonneg _) hpos hle

end Flow

namespace Analysis

section

variable (reports more : List FileReport) (name : String)

theorem flow_duplicates_prefix_append :
    ((Analysis.mk reports).flow name).duplicateDefinitions <+:
      ((Analysis.mk (reports ++ more)).flow name).duplicateDefinitions :=
  (pathsWhere_prefix_append reports more (·.defines name)).drop 1

variable {reports name}

theorem flow_definedIn_append {path : String}
    (h : ((Analysis.mk reports).flow name).definedIn = some path) :
    ((Analysis.mk (reports ++ more)).flow name).definedIn = some path := by
  obtain ⟨rest, hrest⟩ := pathsWhere_prefix_append reports more (·.defines name)
  simp only [flow] at h ⊢
  rw [← hrest, List.head?_append, h, Option.some_or]

theorem flow_duplicates_of_undefined {a : Analysis}
    (h : (a.flow name).definedIn = none) : (a.flow name).duplicateDefinitions = [] := by
  simp only [flow, List.head?_eq_none_iff] at h ⊢
  rw [h, List.drop_nil]

theorem knows_append (h : (Analysis.mk reports).knows name = true) :
    (Analysis.mk (reports ++ more)).knows name = true := by
  rw [knows_iff] at h ⊢
  obtain ⟨r, hr, hknown⟩ := h
  rw [analyzed_append]
  exact ⟨r, List.mem_append_left _ hr, hknown⟩

theorem flow_isIntercepted_append
    (h : ((Analysis.mk reports).flow name).isIntercepted = true) :
    ((Analysis.mk (reports ++ more)).flow name).isIntercepted = true := by
  rw [flow_isIntercepted] at h ⊢
  obtain ⟨r, hr, hintercepts⟩ := h
  rw [analyzed_append]
  exact ⟨r, List.mem_append_left _ hr, hintercepts⟩

variable {more}

/-- Files that do not intercept a name leave the unguarded files as they
are. -/
theorem flow_unguarded_prefix_append (h : ∀ r ∈ more, r.intercepts name = false) :
    ((Analysis.mk reports).flow name).unguardedIn <+:
      ((Analysis.mk (reports ++ more)).flow name).unguardedIn := by
  have hraised := pathsWhere_prefix_append reports more (·.raises name)
  simp only [flow, pathsWhere_append_of_none h reports]
  exact hraised.filter _

end

/-- What one more report does to the flow of a name and to the declared
names. -/
theorem report_only_adds (reports : List FileReport) (extra : FileReport) (name : String) :
    let before := Analysis.mk reports
    let after := Analysis.mk (reports ++ [extra])
    (before.flow name).raisedIn <+: (after.flow name).raisedIn ∧
    (before.flow name).interceptedIn <+: (after.flow name).interceptedIn ∧
    (before.flow name).duplicateDefinitions <+: (after.flow name).duplicateDefinitions ∧
    before.declaredNames <+: after.declaredNames ∧
    ((before.flow name).definedIn = none → (before.flow name).duplicateDefinitions = []) ∧
    (∀ path, (before.flow name).definedIn = some path →
      (after.flow name).definedIn = some path) ∧
    (before.knows name = true → after.knows name = true) ∧
    ((before.flow name).isIntercepted = true → (after.flow name).isIntercepted = true) ∧
    ((∀ site ∈ extra.intercepted, site.name ≠ name) →
      (before.flow name).unguardedIn <+: (after.flow name).unguardedIn ∧
      ((before.flow name).raisedIn ≠ [] →
        (after.flow name).exactRatio ≤ (before.flow name).exactRatio)) := by
  intro before after
  have hraised : (before.flow name).raisedIn <+: (after.flow name).raisedIn :=
    pathsWhere_prefix_append reports [extra] _
  refine ⟨hraised, pathsWhere_prefix_append reports [extra] _,
    flow_duplicates_prefix_append reports [extra] name, declaredNames_prefix_append reports [extra],
    flow_duplicates_of_undefined, fun _ => flow_definedIn_append [extra],
    knows_append [extra], flow_isIntercepted_append [extra], ?_⟩
  intro hsites
  have hnone : ∀ r ∈ [extra], r.intercepts name = false := by
    intro r hr
    obtain rfl := List.mem_singleton.mp hr
    rw [← Bool.not_eq_true, FileReport.intercepts_iff]
    rintro ⟨site, hsite, hname⟩
    exact hsites site hsite hname
  refine ⟨flow_unguarded_prefix_append hnone, fun hsome => ?_⟩
  have hsame : (after.flow name).interceptedIn = (before.flow name).interceptedIn :=
    pathsWhere_append_of_none hnone reports
  exact Flow.exactRatio_le hsame hraised hsome

/-- A file that raises and intercepts a name, and then one that only raises
it. -/
theorem second_raise_adds :
    let site : SiteKind → Site := fun kind => ⟨"LoginError", kind, ⟨"a.ts", 1⟩⟩
    let first : FileReport := ⟨"a.ts", [], [site .raised], [site .intercepted], 0, none⟩
    let extra : FileReport := ⟨"b.ts", [], [site .reraised], [], 0, none⟩
    let before := (Analysis.mk [first]).flow "LoginError"
    let after := (Analysis.mk ([first] ++ [extra])).flow "LoginError"
    (∀ s ∈ extra.intercepted, s.name ≠ "LoginError") ∧ before.raisedIn ≠ [] ∧
      before.raisedIn <+: after.raisedIn ∧ before.unguardedIn <+: after.unguardedIn ∧
      after.exactRatio ≤ before.exactRatio := by
  intro site first extra before after
  have hraised : before.raisedIn ≠ [] := by decide +kernel
  have hsites : ∀ s ∈ extra.intercepted, s.name ≠ "LoginError" := by
    intro s hs
    cases hs
  obtain ⟨hgrown, _, _, _, _, _, _, _, hquiet⟩ :=
    report_only_adds [first] extra "LoginError"
  obtain ⟨hunguarded, hratio⟩ := hquiet hsites
  exact ⟨hsites, hraised, hgrown, hunguarded, hratio hraised⟩

end Analysis

end ThrowCatch
