import ThrowCatch.Proofs.FailedFiles
import ThrowCatch.Proofs.Outcomes
import ThrowCatch.Proofs.Rounding

/-!
The limit on the sizes of files. It is given in megabytes and told in bytes
only when a file is looked at, so a limit that passes the check and cannot be
told in bytes shows there: a number beyond `2 ^ 1004`, an infinite one, and one
that is no number at all. With any other limit the analysis of a file ends in
a report, whatever the file, the root and the index.
-/

namespace ThrowCatch

namespace Double

/-- The numbers of the format: at most 53 bits, and a last place that an
exponent can tell. -/
def Representable : Double → Prop
  | .finite _ m e => m < 2 ^ 53 ∧ -1074 ≤ e ∧ e ≤ 971
  | _ => True

section

variable {m k : Nat} {e : Int}

theorem le_greatest (hm : m < 2 ^ 53) (he : -1074 ≤ e)
    (h : (m : ℚ) * 2 ^ (e + k) < 2 ^ (1024 : Int)) :
    ∃ (m' : Nat) (e' : Int), m' < 2 ^ 53 ∧ -1074 ≤ e' ∧ e' ≤ 971 ∧
      (m : ℚ) * 2 ^ (e + k) ≤ m' * 2 ^ e' := by
  rcases le_or_gt (e + k) 971 with hhigh | hhigh
  · exact ⟨m, e + k, hm, by omega, hhigh, le_rfl⟩
  · -- the places below the greatest one are empty
    obtain ⟨n, hn⟩ := Int.le.dest hhigh.le
    have hunits : (m : ℚ) * 2 ^ (e + k) = (m * 2 ^ n : Nat) * 2 ^ (971 : Int) := by
      rw [← hn, add_comm (971 : Int), zpow_add₀ two_ne_zero, zpow_natCast, Nat.cast_mul,
        Nat.cast_pow, Nat.cast_ofNat, mul_assoc]
    refine ⟨m * 2 ^ n, 971, ?_, by norm_num, le_rfl, hunits.le⟩
    have hlt : ((m * 2 ^ n : Nat) : ℚ) * 2 ^ (971 : Int) < 2 ^ (53 : Nat) * 2 ^ (971 : Int) := by
      rw [← hunits, ← zpow_natCast, ← zpow_add₀ two_ne_zero]
      exact h
    have hlt := lt_of_mul_lt_mul_right hlt (zpow_pos two_pos _).le
    exact_mod_cast hlt

theorem scaleUp_below (s : Bool) (hm : m < 2 ^ 53) (he : -1074 ≤ e)
    (h : (m : ℚ) * 2 ^ (e + k) < 2 ^ (1024 : Int)) :
    ∃ m' e', (finite s m e).scaleUp k = .finite s m' e' := by
  obtain ⟨m', e', hm', hlow, hhigh, hle⟩ := le_greatest hm he h
  have hbound : ((scaled m (e + k)).1 : ℚ) ≤ m' * 2 ^ e' * (scaled m (e + k)).2 := by
    rw [scaled_fst]
    exact mul_le_mul_of_nonneg_right hle (Nat.cast_nonneg _)
  obtain ⟨m'', e'', hfinite, -⟩ :=
    ofQuotient_le s (scaled_snd_pos m (e + k)) hm' hlow hhigh hbound
  exact ⟨m'', e'', hfinite⟩

theorem scaleUp_beyond (s : Bool) (h : 2 ^ (1024 : Int) ≤ (m : ℚ) * 2 ^ (e + k)) :
    (finite s m e).scaleUp k = .infinite s := by
  have hbound : 2 ^ (1024 : Int) * ((scaled m (e + k)).2 : ℚ) ≤ (scaled m (e + k)).1 := by
    rw [scaled_fst]
    exact mul_le_mul_of_nonneg_right h (Nat.cast_nonneg _)
  exact ofQuotient_infinite s (scaled_snd_pos m (e + k)) hbound

end

end Double

namespace Number

theorem finite_lt_int {m : Nat} {e : Int} (bound : Nat) :
    (Number.float (.finite false m e)).lt (.int bound) = true ↔ (m : ℚ) * 2 ^ e < bound := by
  have hsnd : (0 : ℚ) < (Double.scaled m e).2 := by exact_mod_cast Double.scaled_snd_pos m e
  have hlt : (Number.float (.finite false m e)).lt (.int bound) = true ↔
      (Double.scaled m e).1 < bound * (Double.scaled m e).2 := by
    simp only [Number.lt, Number.compare?, Double.quotient?, beq_iff_eq, Option.map_some,
      Option.some.injEq, if_true, Bool.false_eq_true, if_false, Int.compare_eq_lt, Int.natCast_one,
      mul_one]
    exact_mod_cast Iff.rfl
  rw [hlt, ← mul_lt_mul_iff_left₀ hsnd, ← Double.scaled_fst]
  exact_mod_cast Iff.rfl

theorem negative_le_zero (m : Nat) (e : Int) :
    (Number.float (.finite true m e)).le (.int 0) = true := by
  have hcompare : (Number.float (.finite true m e)).compare? (.int 0) =
      some (compare (-((Double.scaled m e).1 : Int)) 0) := by
    simp only [Number.compare?, Double.quotient?, Option.map_some, if_true, Int.natCast_one,
      Int.mul_one, Int.zero_mul]
  rw [Number.le, hcompare]
  split
  case h_1 hgt =>
    rw [Option.some.injEq, Int.compare_eq_gt] at hgt
    omega
  case h_2 => rfl
  case h_3 hnone => cases hnone

end Number

namespace Settings

/-- Settings whose fields hold values of the kinds they are made for. -/
structure Typed (s : Settings) : Prop where
  workers : s.workers = .null ∨ ∃ n, s.workers = .int n
  excludePatterns : ∃ items, s.excludePatterns = texts items
  extensions : ∃ items, s.extensions = texts items
  maxFileSizeMb : (∃ n, s.maxFileSizeMb = .int n) ∨
    ∃ x, s.maxFileSizeMb = .float x ∧ x.Representable
  maxFiles : ∃ n, s.maxFiles = .int n
  allowHiddenFiles : ∃ b, s.allowHiddenFiles = .bool b
  followSymlinks : ∃ b, s.followSymlinks = .bool b
  errorSupertypes : ∃ items, s.errorSupertypes = texts items
  supertypeMatch : ∃ word, s.supertypeMatch = .str word
  implicitCatchType : ∃ word, s.implicitCatchType = .str word
  strictParse : ∃ b, s.strictParse = .bool b
  verbosity : ∃ word, s.verbosity = .str word

/-- Whether a size in megabytes can be told in bytes. -/
def measurable : Value → Bool
  | .float x => (Number.float x).lt (.int (2 ^ 1004 : Nat))
  | _ => true

/-- The fault that telling a size in bytes ends in, when it cannot be told. -/
def sizeFault : Value → Fault
  | .float .nan => .undefinedInteger
  | _ => .infiniteInteger

theorem checkSize_of_check {s : Settings} (h : s.check = .ok ()) :
    checkSize s.maxFileSizeMb = .ok () := by
  unfold check at h
  obtain ⟨-, -, h⟩ := bind_eq_ok h
  obtain ⟨_, hsize, -⟩ := bind_eq_ok h
  exact hsize

theorem isNegative_of_checkSize {x : Double} (h : checkSize (.float x) = .ok ()) :
    x.isNegative = false := by
  have hle : (Number.float x).le (.int 0) = false := by
    unfold checkSize comparable at h
    simp only [Value.number?, bind, Except.bind] at h
    split at h
    case isTrue => cases h
    case isFalse hle => simpa using hle
  cases x with
  | nan => rfl
  | infinite s =>
      cases s with
      | false => rfl
      | true => cases hle
  | finite s m e =>
      cases s with
      | false => rfl
      | true =>
          rw [Number.negative_le_zero] at hle
          cases hle

theorem maxFileSizeBytes_float {s : Settings} {x : Double} (h : s.maxFileSizeMb = .float x) :
    s.maxFileSizeBytes = match x.scaleUp 20 with
      | .nan => .error .undefinedInteger
      | .infinite _ => .error .infiniteInteger
      | y => .ok (y.truncate?.getD 0) := by
  rw [maxFileSizeBytes, h]
  rfl

theorem maxFileSizeBytes_finite {s : Settings} {m : Nat} {e : Int}
    (h : s.maxFileSizeMb = .float (.finite false m e))
    (hrep : (Double.finite false m e).Representable) :
    (measurable s.maxFileSizeMb = true ∧ ∃ limit, s.maxFileSizeBytes = .ok limit) ∨
      (measurable s.maxFileSizeMb = false ∧ s.maxFileSizeBytes = .error .infiniteInteger) := by
  obtain ⟨hm, hlow, -⟩ := hrep
  have hscale : (2 : ℚ) ^ (1004 : Int) * 2 ^ (20 : Int) = 2 ^ (1024 : Int) := by
    rw [← zpow_add₀ two_ne_zero]
    rfl
  have hvalue : (m : ℚ) * 2 ^ (e + (20 : Nat)) = m * 2 ^ e * 2 ^ (20 : Int) := by
    rw [zpow_add₀ two_ne_zero, mul_assoc]
    rfl
  have hmeasurable : measurable s.maxFileSizeMb = true ↔ (m : ℚ) * 2 ^ e < 2 ^ (1004 : Int) := by
    rw [h, measurable, Number.finite_lt_int, Nat.cast_pow, Nat.cast_ofNat, ← zpow_natCast]
    rfl
  rw [maxFileSizeBytes_float h]
  by_cases hlt : (m : ℚ) * 2 ^ e < 2 ^ (1004 : Int)
  · refine .inl ⟨hmeasurable.mpr hlt, ?_⟩
    have hbelow : (m : ℚ) * 2 ^ (e + (20 : Nat)) < 2 ^ (1024 : Int) := by
      rw [hvalue, ← hscale]
      exact mul_lt_mul_of_pos_right hlt (zpow_pos two_pos _)
    obtain ⟨m', e', hfinite⟩ := Double.scaleUp_below false hm hlow hbelow
    rw [hfinite]
    exact ⟨_, rfl⟩
  · refine .inr ⟨Bool.eq_false_iff.mpr (mt hmeasurable.mp hlt), ?_⟩
    have hbeyond : 2 ^ (1024 : Int) ≤ (m : ℚ) * 2 ^ (e + (20 : Nat)) := by
      rw [hvalue, ← hscale]
      exact mul_le_mul_of_nonneg_right (not_lt.mp hlt) (zpow_pos two_pos _).le
    rw [Double.scaleUp_beyond false hbeyond]

/-- An accepted limit is told in bytes exactly when it is measurable. -/
theorem maxFileSizeBytes_of_check {s : Settings} (hcheck : s.check = .ok ()) (htyped : s.Typed) :
    (measurable s.maxFileSizeMb = true ∧ ∃ limit, s.maxFileSizeBytes = .ok limit) ∨
      (measurable s.maxFileSizeMb = false ∧
        s.maxFileSizeBytes = .error (sizeFault s.maxFileSizeMb)) := by
  have hsize := checkSize_of_check hcheck
  obtain ⟨n, hn⟩ | ⟨x, hx, hrep⟩ := htyped.maxFileSizeMb
  · rw [maxFileSizeBytes, hn]
    exact .inl ⟨rfl, _, rfl⟩
  · have hsign : x.isNegative = false := isNegative_of_checkSize (hx ▸ hsize)
    cases x with
    | nan =>
        rw [maxFileSizeBytes_float hx, hx]
        exact .inr ⟨rfl, rfl⟩
    | infinite s =>
        obtain rfl : s = false := hsign
        rw [maxFileSizeBytes_float hx, hx]
        exact .inr ⟨rfl, rfl⟩
    | finite s m e =>
        obtain rfl : s = false := hsign
        have hfault : sizeFault (.float (.finite false m e)) = .infiniteInteger := rfl
        rw [show sizeFault _ = _ from hx ▸ hfault]
        exact maxFileSizeBytes_finite hx hrep

end Settings

/-- A file of a known language that is there. -/
def Disk.Readable (d : Disk) (k : Path) : Prop :=
  (∃ language, Language.ofPath? k = some language) ∧ ∃ entry, d.stat k = .ok entry

/-- Without a limit in bytes no file is parsed: the ones that are looked at
fault, and the others are refused before. -/
theorem Index.parseFile_unlimited {g : Grammar} {d : Disk} {s : Settings} {fault : Fault}
    (hlimit : s.maxFileSizeBytes = .error fault) (k : Path) :
    (d.Readable k ∧ parseFile g d s k = .error fault) ∨
      (¬ d.Readable k ∧
        ∃ reason, parseFile g d s k = .error (.problem (.sourceUnavailable k.text reason))) := by
  cases hlanguage : Language.ofPath? k with
  | none =>
      refine .inr ⟨?_, _, (Refusal.unsupported hlanguage).parseFile_eq⟩
      rintro ⟨⟨language, hsome⟩, -⟩
      rw [hlanguage] at hsome
      cases hsome
  | some language =>
      cases hstat : d.stat k with
      | error error =>
          refine .inr ⟨?_, _, (Refusal.missing hlanguage hstat).parseFile_eq⟩
          rintro ⟨-, entry, hok⟩
          rw [hstat] at hok
          cases hok
      | ok entry =>
          refine .inl ⟨⟨⟨language, hlanguage⟩, entry, hstat⟩, ?_⟩
          unfold parseFile
          simp only [hlanguage, hstat, hlimit]

namespace Engine

/-- An engine is made from texts for names, and then these are its names. -/
theorem ofSettings_of_texts {s : Settings} {names : List String}
    (hnames : s.errorSupertypes = Settings.texts names) (g : Grammar) :
    ∃ e, ofSettings g s = .ok e ∧ e.grammar = g ∧ e.settings = s ∧ e.matcher.Textual := by
  have hmembers : Settings.membersOf s.errorSupertypes = .ok (names.map .str) := by
    rw [hnames]
    rfl
  have hmatcher : ∀ policy, Matcher.ofMembers policy (names.map .str) =
      .ok (.ofTexts policy names) := by
    intro policy
    have hhashable : (names.map Value.str).find? (fun v => !v.isHashable) = none := by
      simp [Value.isHashable]
    cases policy <;> simp only [Matcher.ofMembers, hhashable] <;> rfl
  rw [ofSettings, matcherOf, hmembers, Except.bind, hmatcher]
  exact ⟨_, rfl, rfl, rfl, Matcher.textual_ofTexts _ _⟩

theorem textual_of_ofSettings {s : Settings} {names : List String} {g : Grammar} {e : Engine}
    (hnames : s.errorSupertypes = Settings.texts names) (he : ofSettings g s = .ok e) :
    e.matcher.Textual := by
  obtain ⟨e', he', -, -, htexts⟩ := ofSettings_of_texts hnames g
  rw [he] at he'
  exact Except.ok.inj he' ▸ htexts

theorem ofSettings_of_typed {s : Settings} (htyped : s.Typed) (g : Grammar) :
    ∃ e, ofSettings g s = .ok e ∧ e.grammar = g ∧ e.settings = s ∧ e.matcher.Textual := by
  obtain ⟨names, hnames⟩ := htyped.errorSupertypes
  exact ofSettings_of_texts hnames g

section

variable {e : Engine} {d : Disk} {ix : Index} {root : Option Path} {p k : Path}

theorem identity_of_no_null
    (hnull : (p.names.any fun n => n.toList.contains (Char.ofNat 0)) = false) :
    ∃ k, identity d p = .ok k := by
  unfold identity
  cases hresolve : d.resolve p with
  | ok k => exact ⟨k, rfl⟩
  | error error =>
      cases error with
      | loop path => exact ⟨_, rfl⟩
      | nullByte =>
          rw [Disk.resolve, if_neg (Bool.eq_false_iff.mp hnull)] at hresolve
          simp only at hresolve
          split at hresolve <;> cases hresolve

theorem path_of_analyzeFile {report : FileReport}
    (h : (e.analyzeFile d ix root p).1 = .ok report) : report.path = displayPath d root p := by
  rw [analyzeFile_eq] at h
  unfold reportFor at h
  split at h
  · obtain ⟨defined, -, rfl⟩ := reportOn_eq_ok_iff.mp h
    rfl
  · split at h
    · cases h
      rfl
    · cases h

/-- Without a limit in bytes the analysis faults at the files that are there,
of a known language and not held by the index. -/
theorem analyzeFile_unlimited {fault : Fault} (htexts : e.matcher.Textual)
    (hid : ∃ k, identity d p = .ok k) (hlimit : e.settings.maxFileSizeBytes = .error fault) :
    (e.analyzeFile d ix root p).1 = .error fault ↔
      ∃ k, d.resolve p = .ok k ∧ ix.find? k = none ∧ d.Readable k := by
  rw [analyzeFile_eq]
  dsimp only
  simp only [← Index.key_eq_ok_iff]
  obtain ⟨fault', hkey, hget⟩ | ⟨k, f, hkey, hfound, hget⟩ | ⟨k, f, hkey, -, hparse, -⟩ |
    ⟨k, fault', hkey, hmiss, hparse, hget⟩ := Index.get_cases e.grammar d e.settings ix p
  · obtain ⟨k, hid⟩ := hid
    obtain hok | ⟨reason, hskip⟩ := key_cases hid
    · rw [hkey] at hok
      cases hok
    · rw [hkey] at hskip
      cases hskip
      rw [hget, reportFor, skipReason?_sourceUnavailable]
      simp [hkey]
  · obtain ⟨report, hreport⟩ := exists_reportOn (displayPath d root p) f htexts
    rw [hget]
    simp [reportFor, hkey, hfound, hreport]
  · obtain ⟨-, herror⟩ | ⟨-, reason, hskip⟩ :=
      Index.parseFile_unlimited (g := e.grammar) (d := d) hlimit k
    · rw [hparse] at herror
      cases herror
    · rw [hparse] at hskip
      cases hskip
  · rw [hget]
    simp only [hkey, Except.ok.injEq, exists_eq_left', hmiss, true_and]
    obtain ⟨hreadable, herror⟩ | ⟨hnot, reason, hskip⟩ :=
      Index.parseFile_unlimited (g := e.grammar) (d := d) hlimit k
    · rw [hparse] at herror
      cases herror
      simp only [reportFor, skipReason?_of_limit hlimit, hreadable]
    · rw [hparse] at hskip
      cases hskip
      simp only [reportFor, skipReason?_sourceUnavailable, hnot, reduceCtorEq]

end

/-- With accepted settings, their fields of the right kinds, the analysis of
any path without a null character ends in a report. The one exception is a
limit on sizes that cannot be told in bytes, and then the files that are
there, of a known language and not held yet. -/
theorem report_unless_size_unmeasurable (g : Grammar) (s : Settings) (hcheck : s.check = .ok ())
    (htyped : s.Typed) :
    ∃ e, ofSettings g s = .ok e ∧
      ∀ (d : Disk) (ix : Index) (root : Option Path) (p : Path),
        (p.names.any fun n => n.toList.contains (Char.ofNat 0)) = false →
        let faults := Settings.measurable s.maxFileSizeMb = false ∧
          ∃ k, d.resolve p = .ok k ∧ ix.find? k = none ∧ d.Readable k
        (¬ faults → ∃ report, (e.analyzeFile d ix root p).1 = .ok report ∧
          report.path = displayPath d root p) ∧
        (faults → (e.analyzeFile d ix root p).1 =
          .error (Settings.sizeFault s.maxFileSizeMb)) := by
  obtain ⟨e, he, -, rfl, htexts⟩ := ofSettings_of_typed htyped g
  refine ⟨e, he, fun d ix root p hnull => ?_⟩
  obtain ⟨k, hid⟩ := identity_of_no_null (d := d) hnull
  intro faults
  constructor
  · intro hnot
    cases hresult : (e.analyzeFile d ix root p).1 with
    | ok report => exact ⟨report, rfl, path_of_analyzeFile hresult⟩
    | error fault =>
        have hfault := maxFileSizeBytes_of_analyzeFile_error htexts hid hresult
        obtain ⟨-, limit, hlimit⟩ | ⟨hmeasurable, -⟩ :=
          Settings.maxFileSizeBytes_of_check hcheck htyped
        · rw [hlimit] at hfault
          cases hfault
        · exact absurd ⟨hmeasurable, (analyzeFile_unlimited htexts ⟨k, hid⟩ hfault).mp hresult⟩ hnot
  · rintro ⟨hmeasurable, hfile⟩
    obtain ⟨hmeasurable', -⟩ | ⟨-, hlimit⟩ := Settings.maxFileSizeBytes_of_check hcheck htyped
    · rw [hmeasurable] at hmeasurable'
      cases hmeasurable'
    · exact (analyzeFile_unlimited htexts ⟨k, hid⟩ hlimit).mpr hfile

theorem typed_defaults : Settings.defaults.Typed where
  workers := .inl rfl
  excludePatterns := ⟨_, rfl⟩
  extensions := ⟨_, rfl⟩
  maxFileSizeMb := by
    have hfive : Double.ofInt 5 = .finite false (5 * 2 ^ 50) (-50) := by decide
    refine .inr ⟨_, rfl, ?_⟩
    rw [hfive]
    exact ⟨by decide, by decide, by decide⟩
  maxFiles := ⟨_, rfl⟩
  allowHiddenFiles := ⟨_, rfl⟩
  followSymlinks := ⟨_, rfl⟩
  errorSupertypes := ⟨_, rfl⟩
  supertypeMatch := ⟨_, rfl⟩
  implicitCatchType := ⟨_, rfl⟩
  strictParse := ⟨_, rfl⟩
  verbosity := ⟨_, rfl⟩

theorem report_with_default_settings :
    Settings.defaults.check = .ok () ∧ Settings.defaults.Typed ∧
      ∃ e, ofSettings Source.grammar .defaults = .ok e ∧
        ∃ report, (e.analyzeFile sourceAndText .empty none ⟨.root, ["a.ts"]⟩).1 = .ok report := by
  obtain ⟨e, he, hreports⟩ :=
    report_unless_size_unmeasurable Source.grammar .defaults rfl typed_defaults
  have hmeasurable : Settings.measurable Settings.defaults.maxFileSizeMb = true := by decide +kernel
  obtain ⟨hreport, -⟩ := hreports sourceAndText .empty none ⟨.root, ["a.ts"]⟩ (by decide)
  obtain ⟨report, hreport, -⟩ := hreport fun ⟨hnot, _⟩ => by
    rw [hmeasurable] at hnot
    cases hnot
  exact ⟨rfl, typed_defaults, e, he, report, hreport⟩

/-- Settings with a very great size of a file in megabytes. -/
def hugeSize : Settings :=
  { Settings.defaults with maxFileSizeMb := .float (.finite false 5010420900022432 971) }

/-- They are accepted, and then no file can be analysed. -/
theorem huge_size_faults :
    let source : Path := ⟨.root, ["a.ts"]⟩
    hugeSize.maxFileSizeMb.text = "1e+308" ∧ hugeSize.check = .ok () ∧ hugeSize.Typed ∧
      sourceAndText.stat source = .ok (.file "throw e;".toUTF8) ∧
      ∃ e, ofSettings Source.grammar hugeSize = .ok e ∧
        (e.analyzeFile sourceAndText .empty none source).1 = .error .infiniteInteger := by
  intro source
  have hcheck : hugeSize.check = .ok () := by decide +kernel
  have htyped : hugeSize.Typed :=
    { typed_defaults with maxFileSizeMb := .inr ⟨_, rfl, by decide, by decide, by decide⟩ }
  have hstat : sourceAndText.stat source = .ok (.file "throw e;".toUTF8) :=
    Disk.stat_top rfl rfl (by decide) (by decide)
  have hresolve : sourceAndText.resolve source = .ok source :=
    Disk.resolve_ordinary rfl (by decide) (by decide)
  have hlanguage : Language.ofPath? source = some .typescript := by decide +kernel
  have hlimit : hugeSize.maxFileSizeBytes = .error .infiniteInteger := by decide +kernel
  obtain ⟨e, he, -, hsettings, htexts⟩ := ofSettings_of_typed htyped Source.grammar
  refine ⟨by decide +kernel, hcheck, htyped, hstat, e, he,
    (analyzeFile_unlimited htexts ⟨source, ?_⟩ ?_).mpr ?_⟩
  · exact identity_of_key (Index.key_eq_ok_iff.mpr hresolve)
  · rw [hsettings]
    exact hlimit
  · exact ⟨source, hresolve, rfl, ⟨_, hlanguage⟩, _, hstat⟩

end Engine

end ThrowCatch
