import ThrowCatch.Proofs.CoverageDetails
import ThrowCatch.Proofs.ReportGrowth
import ThrowCatch.Proofs.RoundingOrder
import ThrowCatch.Proofs.SizeLimit

/-!
Ratios against risky files. The ratio of an error counts files that intercept
it anywhere, and a file is risky when it raises the error and does not
intercept it itself. Since no list of a flow names a file twice, a raising file
is risky or one of the intercepting files; so with fewer intercepting files
than raising ones some file is risky, and the error is among the risky ones.
-/

namespace ThrowCatch

theorem Double.ofQuotient_unsigned (num den : Nat) :
    ofQuotient false num den = .infinite false ∨
      ∃ m e, ofQuotient false num den = .finite false m e := by
  rcases Nat.eq_zero_or_pos num with rfl | hnum
  · exact .inr ⟨0, -1074, rfl⟩
  · rw [ofQuotient_eq false hnum.ne']
    split_ifs <;> simp

namespace Flow

section

variable {f : Flow}

theorem raisedIn_length_le (hnodup : f.raisedIn.Nodup)
    (hunguarded : f.unguardedIn = f.raisedIn.filter fun p => !f.interceptedIn.contains p) :
    f.raisedIn.length ≤ f.unguardedIn.length + f.interceptedIn.length := by
  have hguarded : (f.raisedIn.filter fun p => f.interceptedIn.contains p).length ≤
      f.interceptedIn.length := by
    refine ((hnodup.filter _).subperm fun path hpath => ?_).length_le
    exact List.contains_iff_mem.mp (List.mem_filter.mp hpath).2
  calc f.raisedIn.length
      = (f.raisedIn.filter fun p => f.interceptedIn.contains p).length +
          (f.raisedIn.filter fun p => !f.interceptedIn.contains p).length :=
        List.length_eq_length_filter_add _
    _ ≤ f.interceptedIn.length + f.unguardedIn.length := by
        rw [← hunguarded]
        exact Nat.add_le_add_right hguarded _
    _ = f.unguardedIn.length + f.interceptedIn.length := Nat.add_comm _ _

theorem exactRatio_lt_hundred_iff (hraised : f.raisedIn ≠ []) :
    100 * f.exactRatio < 100 ↔ f.interceptedIn.length < f.raisedIn.length := by
  have hpos : (0 : ℚ) < f.raisedIn.length := by
    exact_mod_cast List.length_pos_iff.mpr hraised
  rw [mul_lt_iff_lt_one_right (by norm_num), exactRatio, div_lt_one hpos, Nat.cast_lt]

theorem exactRatio_of_coverageRatio_lt (hraised : f.raisedIn ≠ [])
    (h : (Number.float f.coverageRatio).lt (.int 100) = true) : 100 * f.exactRatio < 100 := by
  have hpos : 0 < f.raisedIn.length := List.length_pos_iff.mpr hraised
  have hratio : f.coverageRatio =
      .ofQuotient false (100 * f.interceptedIn.length) f.raisedIn.length := by
    rw [coverageRatio, if_neg (by simpa using hraised)]
  rw [hratio] at h
  rw [exactRatio_lt_hundred_iff hraised]
  by_contra hmany
  rcases Double.ofQuotient_unsigned (100 * f.interceptedIn.length) f.raisedIn.length with
    hbig | ⟨m, e, hfinite⟩
  · rw [hbig] at h
    cases h
  · have hlt : (m : ℚ) * 2 ^ e < (100 : Nat) := by
      rw [hfinite] at h
      exact (Number.finite_lt_int 100).mp h
    -- a hundred is a number of the format, so a quotient above it stays above it
    have hhundred : ((100 : Nat) : ℚ) * 2 ^ (0 : Int) ≤ m * 2 ^ e := by
      rw [Double.rounded_of_ofQuotient hpos hfinite]
      refine Double.le_rounded hpos (by norm_num) (by norm_num) ?_
      have hle : 100 * f.raisedIn.length ≤ 100 * f.interceptedIn.length := by omega
      rw [zpow_zero, mul_one]
      exact_mod_cast hle
    rw [zpow_zero, mul_one] at hhundred
    exact absurd hlt (not_lt.mpr hhundred)

end

/-- The lists of a flow that is not made from reports may name a file twice, and
then fewer files can be intercepting than raising and none risky. -/
example :
    let f : Flow := ⟨"LoginError", none, ["a.ts", "a.ts"], ["a.ts"], [], []⟩
    f.check = .ok f ∧ f.interceptedIn.length < f.raisedIn.length ∧ f.unguardedIn = [] := by
  decide

end Flow

namespace Analysis

theorem flow_raisedIn_length_le (a : Analysis) (name : String) :
    (a.flow name).raisedIn.length ≤
      (a.flow name).unguardedIn.length + (a.flow name).interceptedIn.length :=
  Flow.raisedIn_length_le (Sites.distinct_nodup _) rfl

theorem mem_risky_of_unguarded {a : Analysis} {name : String} (hdeclared : name ∈ a.declaredNames)
    (hunguarded : (a.flow name).unguardedIn ≠ []) :
    ⟨name, .float (a.flow name).coverageRatio, (a.flow name).unguardedIn⟩ ∈ a.coverage.risky := by
  refine List.mem_filter.mpr ⟨?_, by simpa using hunguarded⟩
  exact List.mem_map.mpr ⟨a.flow name, List.mem_map.mpr ⟨name, hdeclared, rfl⟩, rfl⟩

/-- Where an error is raised and its ratio is below a hundred, some file is
risky, and the error is a risky one when it is declared under a name other than
that of classes without one. Where it is raised and no file is risky, its ratio
is a hundred at least. The ratio that is shown, although rounded, is below a
hundred only when the exact one is. -/
theorem low_ratio_is_risky (a : Analysis) (name : String) :
    let f := a.flow name
    f.raisedIn.length ≤ f.unguardedIn.length + f.interceptedIn.length ∧
    (f.raisedIn ≠ [] → 100 * f.exactRatio < 100 → f.unguardedIn ≠ [] ∧
      (name ≠ Sites.anonymousName →
        (∃ r ∈ a.files, r.failure = none ∧ ∃ decl ∈ r.defined, decl.name = name) →
        ⟨name, .float f.coverageRatio, f.unguardedIn⟩ ∈ a.coverage.risky)) ∧
    (f.raisedIn ≠ [] → f.unguardedIn = [] → 100 ≤ 100 * f.exactRatio) ∧
    (f.raisedIn ≠ [] → (Number.float f.coverageRatio).lt (.int 100) = true →
      100 * f.exactRatio < 100) := by
  intro f
  have hlength : f.raisedIn.length ≤ f.unguardedIn.length + f.interceptedIn.length :=
    flow_raisedIn_length_le a name
  have hrisky : f.raisedIn ≠ [] → 100 * f.exactRatio < 100 → f.unguardedIn ≠ [] := by
    intro hraised hratio hnone
    rw [Flow.exactRatio_lt_hundred_iff hraised] at hratio
    rw [hnone, List.length_nil] at hlength
    omega
  refine ⟨hlength, fun hraised hratio => ⟨hrisky hraised hratio, ?_⟩, fun hraised hnone => ?_,
    Flow.exactRatio_of_coverageRatio_lt⟩
  · rintro hname ⟨r, hr, hok, decl, hdecl, hdeclares⟩
    have hdeclared : name ∈ a.declaredNames := mem_declaredNames.mpr
      ⟨hname, r, mem_analyzed.mpr ⟨hr, hok⟩, FileReport.defines_iff.mpr ⟨decl, hdecl, hdeclares⟩⟩
    exact mem_risky_of_unguarded hdeclared (hrisky hraised hratio)
  · by_contra hlow
    exact hrisky hraised (not_le.mp hlow) hnone

/-- Two reports on a file that raises and intercepts an error, and one on a
file that raises and declares it. -/
theorem half_guarded_error_risky :
    let site : SiteKind → Site := fun kind => ⟨"LoginError", kind, ⟨"a.ts", 1⟩⟩
    let guarded : FileReport := ⟨"a.ts", [], [site .raised], [site .intercepted], 0, none⟩
    let exposed : FileReport :=
      ⟨"b.ts", [⟨"LoginError", "Error", ⟨"b.ts", 1⟩⟩], [site .raised], [], 0, none⟩
    let a : Analysis := ⟨[guarded, guarded, exposed]⟩
    let f := a.flow "LoginError"
    f.raisedIn ≠ [] ∧ 100 * f.exactRatio < 100 ∧ f.unguardedIn ≠ [] ∧
      ⟨"LoginError", .float f.coverageRatio, f.unguardedIn⟩ ∈ a.coverage.risky := by
  intro site guarded exposed a f
  have hraised : f.raisedIn ≠ [] := by decide +kernel
  have hshown : (Number.float f.coverageRatio).lt (.int 100) = true := by decide +kernel
  obtain ⟨-, hlow, -, hexact⟩ := low_ratio_is_risky a "LoginError"
  have hratio := hexact hraised hshown
  obtain ⟨hunguarded, hrisky⟩ := hlow hraised hratio
  exact ⟨hraised, hratio, hunguarded,
    hrisky (by decide) ⟨exposed, by simp [a], rfl, _, List.mem_singleton_self _, rfl⟩⟩

end Analysis

end ThrowCatch
