import ThrowCatch.Engine
import ThrowCatch.Proofs.Outcomes

/-!
Telling error types apart, or failing to. A recognized name that is no text
cannot be looked for under the substring policy, so a file may be left without
a report; it is so for no other reason, and with texts for names it never is.
-/

namespace ThrowCatch

namespace Matcher

/-- All recognized names are texts. -/
def Textual (m : Matcher) : Prop := ∀ v ∈ m.names, ∃ name, v = .str name

/-- The fault of looking for a recognized name that is no text. -/
def StrayFault (m : Matcher) (fault : Fault) : Prop :=
  ∃ v ∈ m.names, (∀ name, v ≠ .str name) ∧ fault = .notWithin v.kindName

theorem textual_ofTexts (policy : MatchPolicy) (names : List String) :
    (ofTexts policy names).Textual := by
  intro v hv
  obtain ⟨name, -, rfl⟩ := List.mem_map.mp hv
  exact ⟨name, rfl⟩

theorem Textual.not_strayFault {m : Matcher} (h : m.Textual) (fault : Fault) :
    ¬ m.StrayFault fault := by
  rintro ⟨v, hv, hstray, -⟩
  obtain ⟨name, rfl⟩ := h v hv
  exact hstray name rfl

theorem accepts_substring (names : List String) (supertype : String) :
    (ofTexts .substring names).accepts supertype =
      .ok (names.any fun name => Text.contains name supertype) := by
  have hnames : ∀ v ∈ names.map Value.str, Supertype.holds supertype v =
      .ok (Text.contains v.text supertype) := by
    intro v hv
    obtain ⟨name, -, rfl⟩ := List.mem_map.mp hv
    rfl
  rw [accepts, ofTexts, anyM_eq_any hnames, List.any_map]
  rfl

theorem accepts_exact (names : List String) (supertype : String) :
    (ofTexts .exact names).accepts supertype =
      .ok (names.contains (Supertype.bareName supertype)) := by
  rw [accepts, ofTexts, List.any_map, List.contains_eq_any_beq]
  simp only [Function.comp_def, Value.isText, Bool.beq_comm]

theorem failsOnly_accepts (m : Matcher) (supertype : String) :
    FailsOnly m.StrayFault (m.accepts supertype) := by
  unfold accepts
  split
  case h_1 =>
    refine .anyM fun v hv => ?_
    unfold Supertype.holds
    split
    case h_1 => exact .of_ok _
    case h_2 hstray => exact .of_error ⟨v, hv, hstray, rfl⟩
  case h_2 => exact .of_ok _

end Matcher

namespace Engine

variable (e : Engine) (shown : String) (f : ParsedFile)

theorem failsOnly_reportOn : FailsOnly e.matcher.StrayFault (e.reportOn shown f) := by
  refine FailsOnly.bind (.filterMapM fun classNode _ => ?_) fun _ _ => .of_ok _
  unfold Sites.declaration?
  split
  case h_1 => exact .of_ok none
  case h_2 supertype _ =>
    refine (e.matcher.failsOnly_accepts supertype).bind fun accepted _ => ?_
    split
    · exact .of_ok _
    · exact .of_ok _

variable {e}

theorem exists_reportOn (h : e.matcher.Textual) : ∃ report, e.reportOn shown f = .ok report :=
  (failsOnly_reportOn e shown f).exists_ok h.not_strayFault

variable {shown f}

/-- A report on a parsed file puts together what is declared there and its
sites. -/
theorem reportOn_eq_ok_iff {report : FileReport} :
    e.reportOn shown f = .ok report ↔ ∃ defined,
      Sites.declared e.matcher.accepts f.language f.parse.source shown f.parse.root =
        .ok defined ∧
      report =
        let sites := Sites.collect f.parse.source e.implicitType shown f.parse.root
        ⟨shown, defined, sites.raised, sites.intercepted, sites.unclassified, none⟩ := by
  unfold reportOn
  cases Sites.declared e.matcher.accepts f.language f.parse.source shown f.parse.root with
  | error fault => simp [bind, Except.bind]
  | ok defined => simp [bind, Except.bind, pure, Except.pure, eq_comm]

end Engine

end ThrowCatch
