import ThrowCatch.Proofs.Classifying
import ThrowCatch.Proofs.CoverageDetails

/-!
Error types against the classes that declare them. A class without a name is
recorded under a name kept for the purpose, and the error types of an analysis
are the recorded names but for that one. Hence every named class at the top of
an analysed file counts, with its flow and in the total, unless it bears the
kept name itself: such a class is taken for one without a name.
-/

namespace ThrowCatch

namespace Sites

/-- A class declares an error type under a name of its own: it has the name,
and what it extends marks an error type. -/
def DeclaresAs (accepts : String → Except Fault Bool) (source : ByteArray) (classNode : Node)
    (name : String) : Prop :=
  (∃ n, classNode.child? "name" = some n ∧ n.text source = name) ∧
    ∃ supertype, supertype? source classNode = some supertype ∧ accepts supertype = .ok true

section

variable {accepts : String → Except Fault Bool} {source : ByteArray} {file name : String}
  {classNode : Node}

theorem DeclaresAs.declaration (h : DeclaresAs accepts source classNode name) (file : String) :
    ∃ decl, declaration? accepts source file classNode = .ok (some decl) ∧ decl.name = name := by
  obtain ⟨⟨n, hn, rfl⟩, supertype, hsupertype, haccepts⟩ := h
  refine ⟨⟨n.text source, supertype, ⟨file, classNode.line⟩⟩, ?_, rfl⟩
  simp only [declaration?, hsupertype, haccepts, hn]
  rfl

/-- All that a declaration says, from the class that makes it. -/
theorem of_declaration? {decl : Declaration}
    (h : declaration? accepts source file classNode = .ok (some decl)) :
    decl.location = ⟨file, classNode.line⟩ ∧
      (DeclaresAs accepts source classNode decl.name ∨ decl.name = anonymousName) := by
  unfold declaration? at h
  split at h
  case h_1 => cases h
  case h_2 supertype hsupertype =>
    obtain ⟨accepted, haccepts, h⟩ := bind_eq_ok h
    split at h
    case isFalse => cases h
    case isTrue haccepted =>
      rw [haccepted] at haccepts
      cases h
      refine ⟨rfl, ?_⟩
      cases hn : classNode.child? "name" with
      | none => exact .inr rfl
      | some n => exact .inl ⟨⟨n, hn, rfl⟩, supertype, hsupertype, haccepts⟩

theorem exists_declared_iff {language : Language} {root : Node} {decls : List Declaration}
    (h : declared accepts language source file root = .ok decls) (hname : name ≠ anonymousName) :
    (∃ decl ∈ decls, decl.name = name) ↔
      ∃ classNode ∈ topClasses language root, DeclaresAs accepts source classNode name := by
  simp only [mem_filterMapM h]
  constructor
  · rintro ⟨decl, ⟨classNode, hclass, hdecl⟩, rfl⟩
    exact ⟨classNode, hclass, (of_declaration? hdecl).2.resolve_right hname⟩
  · rintro ⟨classNode, hclass, hdeclares⟩
    obtain ⟨decl, hdecl, rfl⟩ := hdeclares.declaration file
    exact ⟨decl, ⟨classNode, hclass, hdecl⟩, rfl⟩

end

end Sites

namespace Analysis

/-- The analysed reports are on the given files, each shown under a path, and
list the error types declared there. -/
def ReportsOn (a : Analysis) (accepts : String → Except Fault Bool)
    (files : List (String × ParsedFile)) : Prop :=
  (a.analyzed.map fun r => Except.ok r.defined) = files.map fun (shown, f) =>
    Sites.declared accepts f.language f.parse.source shown f.parse.root

theorem reportsOn_engine {e : Engine} {files : List (String × ParsedFile)}
    {reports : List FileReport}
    (h : files.mapM (fun (shown, f) => e.reportOn shown f) = .ok reports) :
    (Analysis.mk reports).ReportsOn e.matcher.accepts files := by
  have hreports := map_ok_of_mapM h
  have hok : ∀ r ∈ reports, r.ok = true := by
    intro r hr
    have hmem := List.mem_map_of_mem (f := Except.ok (ε := Fault)) hr
    rw [hreports] at hmem
    obtain ⟨file, -, hfile⟩ := List.mem_map.mp hmem
    obtain ⟨defined, -, rfl⟩ := Engine.reportOn_eq_ok_iff.mp hfile
    rfl
  rw [ReportsOn, analyzed, List.filter_eq_self.mpr hok]
  have hdefined := congrArg (List.map (Except.map FileReport.defined)) hreports
  rw [List.map_map, List.map_map] at hdefined
  refine hdefined.trans (List.map_congr_left fun file _ => ?_)
  simp only [Function.comp_apply, Engine.reportOn]
  cases Sites.declared e.matcher.accepts file.2.language file.2.parse.source file.1
    file.2.parse.root <;> rfl

theorem ReportsOn.defines_iff {a : Analysis} {accepts : String → Except Fault Bool}
    {files : List (String × ParsedFile)} (h : a.ReportsOn accepts files) {name : String}
    (hname : name ≠ Sites.anonymousName) :
    (∃ r ∈ a.analyzed, r.defines name = true) ↔
      ∃ file ∈ files, ∃ classNode ∈ Sites.topClasses file.2.language file.2.parse.root,
        Sites.DeclaresAs accepts file.2.parse.source classNode name := by
  have hdefined : ∀ found, (∃ r ∈ a.analyzed, .ok r.defined = found) ↔
      ∃ file ∈ files, Sites.declared accepts file.2.language file.2.parse.source file.1
        file.2.parse.root = found := by
    intro found
    rw [← List.mem_map, h, List.mem_map]
  simp only [FileReport.defines_iff]
  constructor
  · rintro ⟨r, hr, hdecl⟩
    obtain ⟨file, hfile, hsame⟩ := (hdefined _).mp ⟨r, hr, rfl⟩
    exact ⟨file, hfile, (Sites.exists_declared_iff hsame hname).mp hdecl⟩
  · rintro ⟨file, hfile, hdeclares⟩
    obtain ⟨r, hr, hsame⟩ := (hdefined _).mpr ⟨file, hfile, rfl⟩
    exact ⟨r, hr, (Sites.exists_declared_iff hsame.symm hname).mpr hdeclares⟩

theorem flows_names (a : Analysis) : a.flows.map (·.name) = a.declaredNames := by
  rw [flows, List.map_map]
  exact List.map_id' _

/-- The error types of an analysis are the names of the classes that declare
them, but for the name kept for classes without one. Each of them has a flow
and a detail in the coverage, and counts once in its total. -/
theorem named_classes_counted (a : Analysis) (accepts : String → Except Fault Bool)
    (files : List (String × ParsedFile)) (h : a.ReportsOn accepts files) :
    (∀ name, name ∈ a.declaredNames ↔ name ≠ Sites.anonymousName ∧
      ∃ file ∈ files, ∃ classNode ∈ Sites.topClasses file.2.language file.2.parse.root,
        Sites.DeclaresAs accepts file.2.parse.source classNode name) ∧
    a.declaredNames.Nodup ∧
    a.flows.map (·.name) = a.declaredNames ∧
    a.coverage.details.map (·.name) = a.declaredNames ∧
    a.coverage.total = a.declaredNames.length := by
  refine ⟨fun name => ?_, ?_, flows_names a, details_names a, total_eq_length a⟩
  · rw [mem_declaredNames]
    exact and_congr_right h.defines_iff
  · rw [declaredNames_eq_distinct]
    exact Sites.distinct_nodup _

/-! ### Files with a single class -/

/-- The parsed file of one line that declares a class of a name. -/
def errorClass (name : String) : ParsedFile :=
  let stop := 6 + name.utf8ByteSize
  let source := ("class " ++ name ++ " extends Error {}").toUTF8
  let clause : Node := ⟨"extends_clause", true, none, stop + 1, stop + 14, 0, []⟩
  let classNode : Node := ⟨"class_declaration", true, none, 0, source.size, 0,
    [⟨"type_identifier", true, some "name", 6, stop, 0, []⟩,
      ⟨"class_heritage", true, none, stop + 1, stop + 14, 0, [clause]⟩]⟩
  ⟨⟨.root, ["a.ts"]⟩, .typescript, source.size,
    ⟨source, ⟨"program", true, none, 0, source.size, 0, [classNode]⟩, false⟩⟩

theorem named_class_counted :
    let f := errorClass "LoginError"
    let e : Engine := ⟨fun _ _ => f.parse, .defaults, .ofTexts .exact ["Error"], "unknown"⟩
    ∃ r, e.reportOn "a.ts" f = .ok r ∧
      let a : Analysis := ⟨[r]⟩
      a.ReportsOn e.matcher.accepts [("a.ts", f)] ∧
        "LoginError" ∈ a.declaredNames ∧ "LoginError" ∈ a.flows.map (·.name) ∧
        a.coverage.total = a.declaredNames.length := by
  intro f e
  obtain ⟨r, hr⟩ : ∃ r, e.reportOn "a.ts" f = .ok r :=
    Engine.exists_reportOn "a.ts" f (Matcher.textual_ofTexts .exact ["Error"])
  refine ⟨r, hr, ?_⟩
  intro a
  have hreports : a.ReportsOn e.matcher.accepts [("a.ts", f)] := by
    refine reportsOn_engine ?_
    simp only [List.mapM_cons, List.mapM_nil, hr]
    rfl
  obtain ⟨hnames, -, hflows, -, htotal⟩ := named_classes_counted a _ _ hreports
  have hname : "LoginError" ∈ a.declaredNames := by
    refine (hnames _).mpr ⟨by decide, _, List.mem_singleton_self _, _, List.mem_singleton_self _,
      ⟨_, rfl, ?_⟩, "Error", ?_, ?_⟩
    · decide +kernel
    · decide +kernel
    · decide +kernel
  exact ⟨hreports, hname, hflows ▸ hname, htotal⟩

/-- A class that bears the kept name is lost, although it has a name and its
supertype marks an error type. -/
theorem class_of_kept_name_lost :
    let f := errorClass "AnonymousError"
    let e : Engine :=
      ⟨fun _ _ => f.parse, .defaults, .ofTexts .substring ["Error"], "unknown"⟩
    (∃ classNode ∈ Sites.topClasses f.language f.parse.root,
      Sites.DeclaresAs e.matcher.accepts f.parse.source classNode "AnonymousError") ∧
      ∃ r, e.reportOn "a.ts" f = .ok r ∧
        let a : Analysis := ⟨[r]⟩
        a.declaredNames = [] ∧ a.flows = [] ∧ a.coverage.total = 0 := by
  intro f e
  have hreport : e.reportOn "a.ts" f =
      .ok ⟨"a.ts", [⟨"AnonymousError", "Error", ⟨"a.ts", 1⟩⟩], [], [], 0, none⟩ := by
    decide +kernel
  refine ⟨⟨_, List.mem_singleton_self _, ⟨_, rfl, ?_⟩, "Error", ?_, ?_⟩, _, hreport, ?_⟩
  · decide +kernel
  · decide +kernel
  · decide +kernel
  intro a
  have hnames : a.declaredNames = [] := by decide +kernel
  refine ⟨hnames, ?_, ?_⟩
  · rw [flows, hnames, List.map_nil]
  · rw [total_eq_length, hnames, List.length_nil]
    rfl

end Analysis

end ThrowCatch
