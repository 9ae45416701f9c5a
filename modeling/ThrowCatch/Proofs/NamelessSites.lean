import ThrowCatch.Proofs.NamedErrors
import ThrowCatch.Proofs.Parentheses
import ThrowCatch.Proofs.ReportForm
import ThrowCatch.Proofs.TraceMeaning

/-!
Names that are empty. A parser that mends a text puts in nodes of no width, and
what is named by such a node has no name. Intercepts are safe from them: a type
test without a type counts for nothing, and a declared type without text gives
way to the one from the settings, which is never empty. A throw of a missing
name, though, becomes a site without a name, and so does a class whose name is
missing; there is no other way to such a site or declaration.
-/

namespace ThrowCatch

namespace Node

/-- A node stands somewhere in a tree. -/
def Holds (root n : Node) : Prop := ∃ o ∈ (Occurrence.root root).below, o.node = n

theorem Holds.self (root : Node) : root.Holds root :=
  ⟨.root root, by rw [Occurrence.below, Occurrence.preorderFrom_eq_cons]; exact List.mem_cons_self,
    rfl⟩

theorem Holds.child {root n c : Node} (h : root.Holds n) (hc : c ∈ n.children) :
    root.Holds c := by
  obtain ⟨o, ho, rfl⟩ := h
  refine ⟨⟨c, o.node :: o.above⟩, (Occurrence.below_sublist_preorderFrom ho).subset ?_, rfl⟩
  rw [Occurrence.below, Occurrence.preorderFrom_eq_cons]
  refine List.mem_cons_of_mem _ (List.mem_flatMap.mpr ⟨c, hc, ?_⟩)
  rw [Occurrence.preorderFrom_eq_cons]
  exact List.mem_cons_self

/-- What stands in parentheses that a tree holds is held by it too. -/
theorem Holds.unwrap {root n e : Node} (h : root.Holds n) (he : Sites.unwrap n = some e) :
    root.Holds e := by
  induction n using Node.induction with
  | step n ih =>
      rw [Sites.unwrap_eq] at he
      split at he
      case isFalse =>
        cases he
        exact h
      case isTrue =>
        obtain ⟨c, hfirst, hinside⟩ := Option.bind_eq_some_iff.mp he
        have hc : c ∈ n.children := List.mem_of_mem_filter (List.mem_of_find?_eq_some hfirst)
        exact ih c hc (h.child hc) hinside

end Node

namespace Settings

theorem of_refuse_or {refused : Bool} {key reason : String} {v : Value}
    {next : Unit → Except Fault Unit}
    (h : (if refused then refuse key v reason >>= next else next ()) = .ok ()) :
    refused = false ∧ next () = .ok () := by
  cases refused with
  | false => exact ⟨rfl, h⟩
  | true => cases h

/-- Accepted settings have a type for clauses without one. -/
theorem truthy_implicitCatchType {s : Settings} (h : s.check = .ok ()) :
    s.implicitCatchType.truthy = true := by
  unfold check at h
  obtain ⟨-, -, h⟩ := bind_eq_ok h
  obtain ⟨-, -, h⟩ := bind_eq_ok h
  obtain ⟨-, -, h⟩ := bind_eq_ok h
  obtain ⟨extensions, -, h⟩ := bind_eq_ok h
  obtain ⟨-, -, h⟩ := bind_eq_ok h
  obtain ⟨-, h⟩ := of_refuse_or h
  obtain ⟨-, h⟩ := of_refuse_or h
  obtain ⟨htruthy, -⟩ := of_refuse_or h
  simpa using htruthy

end Settings

theorem Engine.implicitType_ne_empty {g : Grammar} {s : Settings} {word : String} {e : Engine}
    (hcheck : s.check = .ok ()) (hword : s.implicitCatchType = .str word)
    (he : Engine.ofSettings g s = .ok e) : e.implicitType ≠ "" := by
  obtain ⟨m, -, rfl⟩ := map_eq_ok he
  have htruthy := Settings.truthy_implicitCatchType hcheck
  rw [hword] at htruthy
  simpa [hword, Value.text, Value.truthy] using htruthy

namespace Sites

variable {source : ByteArray} {implicit file : String}

/-! ### Raises -/

/-- A statement that throws a name which the source does not have. -/
def ThrowsMissingName (source : ByteArray) (statement : Node) : Prop :=
  ∃ e, (firstExpression? statement).bind unwrap = some e ∧ e.kind = "identifier" ∧
    e.text source = ""

/-- A construction without a name gives no site, so only a name that is thrown
can be missing in one. -/
theorem raiseSite?_nameless {statement : Node} {site : Site}
    (h : raiseSite? source file statement = some site) (hname : site.name = "") :
    site.kind = .reraised ∧ ThrowsMissingName source statement := by
  unfold raiseSite? at h
  obtain ⟨e, he, h⟩ := Option.bind_eq_some_iff.mp h
  dsimp only at h
  split at h
  case isTrue =>
    split at h
    case isTrue => cases h
    case isFalse hsome =>
      cases h
      exact absurd hname (by simpa using hsome)
  case isFalse =>
    split at h
    case isTrue hkind =>
      cases h
      exact ⟨rfl, e, he, by simpa using hkind, hname⟩
    case isFalse => cases h

theorem ThrowsMissingName.raiseSite? {statement : Node}
    (h : ThrowsMissingName source statement) (file : String) :
    raiseSite? source file statement = some ⟨"", .reraised, ⟨file, statement.line⟩⟩ := by
  obtain ⟨e, he, hkind, htext⟩ := h
  simp [Sites.raiseSite?, he, hkind, htext]

theorem ThrowsMissingName.holds {root statement : Node}
    (h : ThrowsMissingName source statement) (hroot : root.Holds statement) :
    ∃ e, root.Holds e ∧ e.text source = "" := by
  obtain ⟨e, he, -, htext⟩ := h
  obtain ⟨c, hfirst, hinside⟩ := Option.bind_eq_some_iff.mp he
  have hc : c ∈ statement.children := List.mem_of_mem_filter (List.mem_of_find?_eq_some hfirst)
  exact ⟨e, (hroot.child hc).unwrap hinside, htext⟩

/-! ### Intercepts -/

theorem testedType?_ne_empty {name type : String} {test : Node}
    (h : testedType? source name test = some type) : type ≠ "" := by
  unfold testedType? at h
  split at h
  case h_1 => cases h
  case h_2 =>
    split at h
    case isTrue => cases h
    case isFalse =>
      split at h
      case h_1 => cases h
      case h_2 =>
        split at h
        case isTrue => cases h
        case isFalse =>
          dsimp only at h
          split at h
          case isTrue => cases h
          case isFalse hsome =>
            cases h
            simpa using hsome

theorem testedTypes_ne_empty {clause : Occurrence} {type : String}
    (h : type ∈ testedTypes source clause) : type ≠ "" := by
  unfold testedTypes at h
  split at h
  case h_1 name body _ _ =>
    obtain ⟨test, -, howned⟩ := List.mem_filterMap.mp (mem_distinct.mp h)
    obtain ⟨target, htested, howner⟩ := Option.bind_eq_some_iff.mp howned
    split at howner
    case h_1 =>
      split at howner
      case isTrue =>
        cases howner
        exact testedType?_ne_empty htested
      case isFalse => cases howner
    case h_2 => cases howner
  case h_2 => cases h

theorem declaredType_ne_empty (himplicit : implicit ≠ "") (clause : Node) :
    declaredType source implicit clause ≠ "" := by
  unfold declaredType
  split
  case h_1 => exact himplicit
  case h_2 =>
    dsimp only
    split
    case isTrue => exact himplicit
    case isFalse hsome => simpa using hsome

/-- A clause never intercepts a type without a name. -/
theorem interceptSites_named (himplicit : implicit ≠ "") {clause : Occurrence} {site : Site}
    (h : site ∈ interceptSites source implicit file clause) : site.name ≠ "" := by
  unfold interceptSites at h
  obtain ⟨name, hname, rfl⟩ := List.mem_map.mp h
  split at hname
  case h_1 =>
    obtain rfl := List.mem_singleton.mp hname
    exact declaredType_ne_empty himplicit clause.node
  case h_2 => exact testedTypes_ne_empty hname

/-! ### The trees behind them -/

theorem holds_of_mem_topClasses {language : Language} {root classNode : Node}
    (h : classNode ∈ topClasses language root) : root.Holds classNode := by
  obtain ⟨child, hchild, hclass⟩ := List.mem_flatMap.mp h
  have hroot : root.Holds child := (Node.Holds.self root).child (List.mem_of_mem_filter hchild)
  split at hclass
  case isTrue =>
    obtain rfl := List.mem_singleton.mp hclass
    exact hroot
  case isFalse =>
    split at hclass
    case isTrue => exact hroot.child (List.mem_of_mem_filter (List.mem_of_mem_filter hclass))
    case isFalse => cases hclass

theorem DeclaresAs.holds {accepts : String → Except Fault Bool} {root classNode : Node}
    {name : String}
    (h : DeclaresAs accepts source classNode name) (hroot : root.Holds classNode) :
    ∃ n, root.Holds n ∧ n.text source = name := by
  obtain ⟨⟨n, hn, hname⟩, -⟩ := h
  exact ⟨n, hroot.child (List.mem_of_find?_eq_some hn), hname⟩

end Sites

/-! ### Reports -/

/-- A report in which everything has a name. -/
structure FileReport.Named (r : FileReport) : Prop where
  defined : ∀ decl ∈ r.defined, decl.name ≠ ""
  raised : ∀ site ∈ r.raised, site.name ≠ ""
  intercepted : ∀ site ∈ r.intercepted, site.name ≠ ""

namespace ParsedFile

/-- The file has a statement that throws a missing name. -/
def ThrowsMissingName (f : ParsedFile) : Prop :=
  ∃ statement, f.parse.root.Holds statement ∧ statement.kind = "throw_statement" ∧
    Sites.ThrowsMissingName f.parse.source statement

/-- The file has an error type whose name is missing. -/
def DeclaresMissingName (f : ParsedFile) (accepts : String → Except Fault Bool) : Prop :=
  ∃ classNode ∈ Sites.topClasses f.language f.parse.root,
    Sites.DeclaresAs accepts f.parse.source classNode ""

/-- Every node of the file has text. -/
def Unmended (f : ParsedFile) : Prop :=
  ∀ n, f.parse.root.Holds n → n.text f.parse.source ≠ ""

theorem Unmended.not_throwsMissingName {f : ParsedFile} (h : f.Unmended) :
    ¬ f.ThrowsMissingName := by
  rintro ⟨statement, hroot, -, hmissing⟩
  obtain ⟨e, he, htext⟩ := hmissing.holds hroot
  exact h e he htext

theorem Unmended.not_declaresMissingName {f : ParsedFile} (h : f.Unmended)
    (accepts : String → Except Fault Bool) : ¬ f.DeclaresMissingName accepts := by
  rintro ⟨classNode, hclass, hdeclares⟩
  obtain ⟨n, hn, htext⟩ := hdeclares.holds (Sites.holds_of_mem_topClasses hclass)
  exact h n hn htext

end ParsedFile

namespace Engine

section

variable {e : Engine} {shown : String} {f : ParsedFile} {report : FileReport}

theorem mem_raised_iff (h : e.reportOn shown f = .ok report) {site : Site} :
    site ∈ report.raised ↔
      ∃ statement, f.parse.root.Holds statement ∧ statement.kind = "throw_statement" ∧
        Sites.raiseSite? f.parse.source shown statement = some site := by
  obtain ⟨defined, -, rfl⟩ := reportOn_eq_ok_iff.mp h
  simp only [Sites.collect, Search.nodeKind, List.filterMap_map, List.mem_filterMap,
    Function.comp_apply, id_eq, Occurrence.mem_ofKind]
  constructor
  · rintro ⟨o, ⟨ho, hkind⟩, hsite⟩
    exact ⟨o.node, ⟨o, ho, rfl⟩, hkind, hsite⟩
  · rintro ⟨statement, ⟨o, ho, rfl⟩, hkind, hsite⟩
    exact ⟨o, ⟨ho, hkind⟩, hsite⟩

theorem reraised_of_nameless (h : e.reportOn shown f = .ok report) {site : Site}
    (hsite : site ∈ report.raised) (hname : site.name = "") : site.kind = .reraised := by
  obtain ⟨statement, -, -, hraise⟩ := (mem_raised_iff h).mp hsite
  exact (Sites.raiseSite?_nameless hraise hname).1

theorem exists_raised_nameless_iff (h : e.reportOn shown f = .ok report) :
    (∃ site ∈ report.raised, site.name = "") ↔ f.ThrowsMissingName := by
  constructor
  · rintro ⟨site, hsite, hname⟩
    obtain ⟨statement, hroot, hkind, hraise⟩ := (mem_raised_iff h).mp hsite
    exact ⟨statement, hroot, hkind, (Sites.raiseSite?_nameless hraise hname).2⟩
  · rintro ⟨statement, hroot, hkind, hmissing⟩
    exact ⟨_, (mem_raised_iff h).mpr ⟨statement, hroot, hkind, hmissing.raiseSite? shown⟩, rfl⟩

theorem exists_defined_nameless_iff (h : e.reportOn shown f = .ok report) :
    (∃ decl ∈ report.defined, decl.name = "") ↔ f.DeclaresMissingName e.matcher.accepts := by
  obtain ⟨defined, hdefined, rfl⟩ := reportOn_eq_ok_iff.mp h
  exact Sites.exists_declared_iff hdefined (by decide)

theorem intercepted_named (himplicit : e.implicitType ≠ "")
    (h : e.reportOn shown f = .ok report) : ∀ site ∈ report.intercepted, site.name ≠ "" := by
  obtain ⟨defined, -, rfl⟩ := reportOn_eq_ok_iff.mp h
  intro site hsite
  obtain ⟨clause, hclause⟩ := Sites.exists_of_mem_intercepted hsite
  exact Sites.interceptSites_named himplicit hclause

/-- A report has a name for everything unless a name is missing in the file. -/
theorem named_reportOn_iff (himplicit : e.implicitType ≠ "")
    (h : e.reportOn shown f = .ok report) :
    report.Named ↔ ¬ f.ThrowsMissingName ∧ ¬ f.DeclaresMissingName e.matcher.accepts := by
  rw [← exists_raised_nameless_iff h, ← exists_defined_nameless_iff h]
  constructor
  · intro hnamed
    exact ⟨fun ⟨site, hsite, hname⟩ => hnamed.raised site hsite hname,
      fun ⟨decl, hdecl, hname⟩ => hnamed.defined decl hdecl hname⟩
  · rintro ⟨hraised, hdefined⟩
    exact ⟨fun decl hdecl hname => hdefined ⟨decl, hdecl, hname⟩,
      fun site hsite hname => hraised ⟨site, hsite, hname⟩, intercepted_named himplicit h⟩

/-- The report on a file that was skipped holds nothing, so nothing without a
name. -/
theorem named_of_analyzeFile_iff {d : Disk} {ix : Index} {root : Option Path} {p : Path}
    (himplicit : e.implicitType ≠ "")
    (h : (e.analyzeFile d ix root p).1 = .ok report) :
    report.Named ↔ ∀ f, (Index.get e.grammar d e.settings ix p).1 = .ok f →
      ¬ f.ThrowsMissingName ∧ ¬ f.DeclaresMissingName e.matcher.accepts := by
  rw [analyzeFile_eq] at h
  generalize (Index.get e.grammar d e.settings ix p).1 = found at h ⊢
  unfold reportFor at h
  split at h
  case h_1 f =>
    rw [named_reportOn_iff himplicit h]
    simp only [Except.ok.injEq, forall_eq']
  case h_2 =>
    split at h
    case h_1 =>
      cases h
      simp only [reduceCtorEq, false_implies, implies_true, iff_true]
      exact ⟨by simp [FileReport.unavailable], by simp [FileReport.unavailable],
        by simp [FileReport.unavailable]⟩
    case h_2 => cases h

end

end Engine

/-! ### The empty name -/

theorem FileReport.raises_empty_iff {r : FileReport} : r.raises "" = true ↔ r.raised ≠ [] := by
  rw [raises_iff]
  cases r.raised <;> simp

theorem Analysis.not_mem_declaredNames {a : Analysis} (h : ∀ r ∈ a.analyzed, r.Named) :
    "" ∉ a.declaredNames := by
  intro hmem
  obtain ⟨-, r, hr, hdefines⟩ := mem_declaredNames.mp hmem
  obtain ⟨decl, hdecl, hname⟩ := FileReport.defines_iff.mp hdefines
  exact (h r hr).defined decl hdecl hname

namespace Engine

/-- With accepted settings nothing is intercepted without a name. What is
raised without one is a throw of a missing name, what is declared without one
a class whose name is missing, and each of these does it; so a file in which
every node has text has a name for everything. A declaration without a name
would be an error type that all raising files raise. With texts for the names
that mark an error type there is a report on each parsed file. -/
theorem nameless_only_where_name_missing (g : Grammar) (s : Settings) (word : String) (e : Engine)
    (hcheck : s.check = .ok ()) (hword : s.implicitCatchType = .str word)
    (he : ofSettings g s = .ok e) :
    (∀ (shown : String) (f : ParsedFile),
      (∀ names, s.errorSupertypes = Settings.texts names → ∃ r, e.reportOn shown f = .ok r) ∧
      ∀ r, e.reportOn shown f = .ok r →
        (∀ site ∈ r.intercepted, site.name ≠ "") ∧
        (∀ site ∈ r.raised, site.name = "" → site.kind = .reraised) ∧
        ((∃ site ∈ r.raised, site.name = "") ↔ f.ThrowsMissingName) ∧
        ((∃ decl ∈ r.defined, decl.name = "") ↔ f.DeclaresMissingName e.matcher.accepts) ∧
        (f.Unmended → r.Named)) ∧
    (∀ d ix root p report, (e.analyzeFile d ix root p).1 = .ok report →
      (report.Named ↔ ∀ f, (Index.get e.grammar d e.settings ix p).1 = .ok f →
        ¬ f.ThrowsMissingName ∧ ¬ f.DeclaresMissingName e.matcher.accepts)) ∧
    (∀ a : Analysis, (∀ r ∈ a.analyzed, r.Named) → "" ∉ a.declaredNames) ∧
    (∀ a : Analysis, a.NamesFiles (fun r => r.raised ≠ []) (a.flow "").raisedIn) := by
  have himplicit : e.implicitType ≠ "" := implicitType_ne_empty hcheck hword he
  refine ⟨fun shown f => ⟨fun names hnames => ?_, fun r h => ⟨intercepted_named himplicit h,
    fun _ => reraised_of_nameless h, exists_raised_nameless_iff h, exists_defined_nameless_iff h,
    fun hsound => ?_⟩⟩, fun _ _ _ _ _ => named_of_analyzeFile_iff himplicit,
    fun _ => Analysis.not_mem_declaredNames,
    Analysis.namesFiles_pathsWhere fun _ => FileReport.raises_empty_iff⟩
  · exact exists_reportOn shown f (textual_of_ofSettings hnames he)
  · exact (named_reportOn_iff himplicit h).mpr
      ⟨hsound.not_throwsMissingName, hsound.not_declaresMissingName e.matcher.accepts⟩

/-! ### A sound tree and a mended one -/

/-- The engine of the default settings. -/
def byDefault (g : Grammar) : Engine :=
  ⟨g, .defaults, .ofTexts .substring Settings.defaultSupertypes, "unknown"⟩

theorem ofSettings_defaults (g : Grammar) : ofSettings g .defaults = .ok (byDefault g) := rfl

def rethrowFile : ParsedFile :=
  ⟨⟨.root, ["a.ts"]⟩, .typescript, 40, ⟨Sites.rethrowSource, Sites.rethrowTree, false⟩⟩

theorem unmended_tree_named :
    Settings.defaults.check = .ok () ∧ Settings.defaults.implicitCatchType = .str "unknown" ∧
      ofSettings Source.grammar .defaults = .ok (byDefault Source.grammar) ∧
      rethrowFile.Unmended ∧
      ∃ r, (byDefault Source.grammar).reportOn "a.ts" rethrowFile = .ok r ∧ r.Named := by
  have hunmended : rethrowFile.Unmended := by
    rintro n ⟨o, ho, rfl⟩
    revert o
    decide +kernel
  obtain ⟨hreports, -, -, -⟩ := nameless_only_where_name_missing Source.grammar .defaults "unknown"
    _ rfl rfl (ofSettings_defaults Source.grammar)
  obtain ⟨hexists, hnames⟩ := hreports "a.ts" rethrowFile
  obtain ⟨r, hr⟩ := hexists _ rfl
  obtain ⟨-, -, -, -, hnamed⟩ := hnames r hr
  exact ⟨rfl, rfl, rfl, hunmended, r, hr, hnamed hunmended⟩

/-- A throw without an expression, mended by a name of no width. So much blank
space before it keeps a parser from dropping the keyword. -/
def mendedThrow : ParsedFile :=
  let statement : Node := ⟨"throw_statement", true, none, 200, 206, 200,
    [⟨"throw", false, none, 200, 205, 200, []⟩, ⟨"identifier", true, none, 205, 205, 200, []⟩,
      ⟨";", false, none, 205, 206, 200, []⟩]⟩
  let source := (Text.repeatChar '\n' 200 ++ "throw;").toUTF8
  ⟨⟨.root, ["x.js"]⟩, .javascript, 206,
    ⟨source, ⟨"program", true, none, 200, 206, 200, [statement]⟩, true⟩⟩

/-- A throw of a missing name is neither unclassified nor named. -/
theorem mended_throw_nameless :
    Settings.defaults.check = .ok () ∧
      ofSettings Source.grammar .defaults = .ok (byDefault Source.grammar) ∧
      (byDefault Source.grammar).reportOn "x.js" mendedThrow =
        .ok ⟨"x.js", [], [⟨"", .reraised, ⟨"x.js", 201⟩⟩], [], 0, none⟩ := by
  refine ⟨rfl, rfl, ?_⟩
  decide +kernel

end Engine

end ThrowCatch
