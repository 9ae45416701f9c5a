import ThrowCatch.Proofs.ReportGrowth
import ThrowCatch.Proofs.TraceMeaning

/-!
Names that cannot be traced. Whether a name is known and where it flows are
found out by two scans of the reports; they agree, so that a name is refused
exactly when its flow has no source: no file that defines it and none that
raises it. Intercepting a name makes no source of it.
-/

namespace ThrowCatch

/-- A flow that starts nowhere. -/
def Flow.Sourceless (f : Flow) : Prop := f.definedIn = none ∧ f.raisedIn = []

namespace Analysis

/-- Some analysed file declares a name, or raises one that it is a part of. -/
def HasSource (a : Analysis) (name : String) : Prop :=
  ∃ r ∈ a.files, r.failure = none ∧
    ((∃ decl ∈ r.defined, decl.name = name) ∨
      ∃ site ∈ r.raised, name.toList <:+: site.name.toList)

section

variable {a : Analysis} {name : String}

theorem knows_iff_hasSource : a.knows name = true ↔ a.HasSource name := by
  simp only [knows_iff, HasSource, mem_analyzed, FileReport.defines_iff, FileReport.raises_iff,
    and_assoc]

theorem flow_sourceless_iff : (a.flow name).Sourceless ↔ ¬ a.knows name = true := by
  have hdefined : (a.flow name).definedIn = none ↔ ∀ r ∈ a.analyzed, r.defines name = false :=
    List.head?_eq_none_iff.trans pathsWhere_eq_nil
  have hraised : (a.flow name).raisedIn = [] ↔ ∀ r ∈ a.analyzed, r.raises name = false :=
    pathsWhere_eq_nil
  rw [Flow.Sourceless, hdefined, hraised, knows_iff]
  push Not
  simp only [Bool.not_eq_true, ← forall₂_and]

theorem flow_unguardedIn_of_unraised (h : (a.flow name).raisedIn = []) :
    (a.flow name).unguardedIn = [] := by
  have hraised : a.pathsWhere (·.raises name) = [] := h
  simp only [flow, hraised, List.filter_nil]

theorem trace_of_sourceless (h : (a.flow name).Sourceless) :
    a.trace name =
      .error (.unknownTarget name (a.files.countP fun r => r.failure.isNone)) := by
  have hscanned : a.analyzed.length = a.files.countP fun r => r.failure.isNone :=
    List.countP_eq_length_filter.symm
  rw [trace, if_neg (flow_sourceless_iff.mp h), hscanned]

theorem trace_of_source (h : ¬ (a.flow name).Sourceless) : a.trace name = .ok (a.flow name) := by
  rw [trace, if_pos (not_not.mp fun hknows => h (flow_sourceless_iff.mpr hknows))]

end

/-- A name is refused exactly when its flow has no source, with the number of
files that were analysed, and the flow is empty then but for the files that
intercept the name. Otherwise tracing it gives its flow. -/
theorem unknown_iff_flow_sourceless (a : Analysis) (name : String) :
    let f := a.flow name
    (∀ p, a.trace name = .error p ↔ f.Sourceless ∧
      p = .unknownTarget name (a.files.countP fun r => r.failure.isNone)) ∧
    (∀ g, a.trace name = .ok g ↔ ¬ f.Sourceless ∧ g = f) ∧
    (f.Sourceless → f.unguardedIn = [] ∧ f.duplicateDefinitions = []) ∧
    (f.Sourceless ↔ ¬ a.HasSource name) := by
  intro f
  refine ⟨fun p => ?_, fun g => ?_, fun hnone => ?_, ?_⟩
  · by_cases hnone : f.Sourceless
    · simp only [trace_of_sourceless hnone, Except.error.injEq, hnone, true_and, eq_comm]
    · simp only [trace_of_source hnone, hnone, false_and, reduceCtorEq]
  · by_cases hnone : f.Sourceless
    · simp only [trace_of_sourceless hnone, hnone, not_true, false_and, reduceCtorEq]
    · simp only [trace_of_source hnone, Except.ok.injEq, hnone, not_false_iff, true_and,
        eq_comm, f]
  · exact ⟨flow_unguardedIn_of_unraised hnone.2, flow_duplicates_of_undefined hnone.1⟩
  · rw [flow_sourceless_iff, knows_iff_hasSource]

/-- A name that one file only intercepts is unknown, whatever else the file
raises. A file that failed is not counted. -/
theorem intercepted_only_unknown :
    let site : String → SiteKind → Site := fun name kind => ⟨name, kind, ⟨"a.ts", 1⟩⟩
    let a : Analysis :=
      ⟨[⟨"a.ts", [], [site "Login" .raised], [site "LoginError" .intercepted], 0, none⟩,
        ⟨"b.ts", [], [], [], 0, some "missing"⟩]⟩
    (a.flow "LoginError").isIntercepted = true ∧ (a.flow "LoginError").Sourceless ∧
      a.trace "LoginError" = .error (.unknownTarget "LoginError" 1) ∧
      a.trace "" = .ok (a.flow "") := by
  intro site a
  have hunknown : (a.flow "LoginError").Sourceless := ⟨by decide +kernel, by decide +kernel⟩
  have hknown : ¬ (a.flow "").Sourceless := fun h => absurd h.2 (by decide +kernel)
  obtain ⟨herror, -, -, -⟩ := unknown_iff_flow_sourceless a "LoginError"
  obtain ⟨-, hflow, -, -⟩ := unknown_iff_flow_sourceless a ""
  exact ⟨by decide +kernel, hunknown, (herror _).mpr ⟨hunknown, rfl⟩, (hflow _).mpr ⟨hknown, rfl⟩⟩

end Analysis

end ThrowCatch
