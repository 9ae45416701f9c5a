import Mathlib.Data.List.Basic
import ThrowCatch.Exclusion
import ThrowCatch.Settings.Basic

/-!
What the usual exclusion patterns exclude. Such a pattern either names a
directory, `name/*`, or ends in a part that does not match the name `_`. The
first kind excludes what lies below a directory of that name and nothing
else; the second kind never excludes a file called `_`. Trying a directory by
a file `_` in it is therefore safe: when that file is excluded, so is every
file below the directory.
-/

namespace ThrowCatch

/-! ### Cutting texts -/

namespace Text

theorem splitAt_ne_nil (separator : Char) (cs : List Char) : splitAt separator cs ≠ [] := by
  cases cs with
  | nil => simp [splitAt]
  | cons c cs =>
      rw [splitAt]
      split
      · simp
      · split <;> simp

theorem splitAt_append (separator : Char) (front back : List Char) :
    splitAt separator (front ++ separator :: back) =
      splitAt separator front ++ splitAt separator back := by
  induction front with
  | nil => simp [splitAt]
  | cons c front ih =>
      by_cases hc : c = separator
      · simp [splitAt, hc, ih]
      · rw [List.cons_append, splitAt, splitAt, ih]
        simp only [beq_iff_eq, hc, if_false]
        cases hfront : splitAt separator front with
        | nil => exact absurd hfront (splitAt_ne_nil separator front)
        | cons piece pieces => rfl

theorem splitAt_of_not_mem {separator : Char} {cs : List Char} (h : separator ∉ cs) :
    splitAt separator cs = [cs] := by
  induction cs with
  | nil => rfl
  | cons c cs ih =>
      have hc : c ≠ separator := fun hc => h (hc ▸ List.mem_cons_self)
      simp [splitAt, hc, ih fun hmem => h (List.mem_cons_of_mem _ hmem)]

end Text

/-! ### Patterns that name a file or directory as it is -/

namespace Glob

/-- A text without the characters that patterns give a meaning. -/
def Literal (s : String) : Prop :=
  ∀ c ∈ s.toList, c ≠ '*' ∧ c ≠ '?' ∧ c ≠ '['

theorem tokens_of_literal {cs : List Char} (h : ∀ c ∈ cs, c ≠ '*' ∧ c ≠ '?' ∧ c ≠ '[') :
    tokens cs.length cs = cs.map .char := by
  induction cs with
  | nil => rfl
  | cons c cs ih =>
      obtain ⟨hstar, hany, hset⟩ := h c List.mem_cons_self
      have hrest := ih fun c hc => h c (List.mem_cons_of_mem _ hc)
      simp [tokens, hstar, hany, hset, hrest]

theorem accepts_chars (cs name : List Char) :
    accepts (cs.map .char) name = true ↔ name = cs := by
  induction cs generalizing name with
  | nil => simp [accepts]
  | cons c cs ih =>
      cases name with
      | nil => simp [accepts]
      | cons n name => simp [accepts, Token.accepts, ih]

/-- A literal pattern matches itself alone. -/
theorem acceptsName_of_literal {pattern : String} (h : Literal pattern) (name : String) :
    acceptsName pattern name = true ↔ name = pattern := by
  rw [acceptsName, tokens_of_literal h, accepts_chars, String.toList_inj]

theorem accepts_star (name : List Char) : accepts [.star] name = true := by
  induction name with
  | nil => rw [accepts, accepts]; rfl
  | cons c name ih => rw [accepts, ih, Bool.or_true]

theorem acceptsName_star (name : String) : acceptsName "*" name = true :=
  accepts_star name.toList

/-- Only a pattern without parts is refused. -/
theorem accepts?_eq_none {pattern path : Path} :
    accepts? pattern path = none ↔ pattern.parts = [] := by
  by_cases hnil : pattern.parts = []
  · simp [accepts?, hnil]
  · simp only [accepts?, List.isEmpty_iff, hnil, if_false, iff_false]
    split <;> simp

/-- A pattern that matches a relative path matches its last name with its last
part. -/
theorem acceptsName_of_accepts? {pattern : Path} {last name : String} {names : List String}
    (hlast : pattern.parts.getLast? = some last)
    (h : accepts? pattern ⟨.relative, names ++ [name]⟩ = some true) :
    acceptsName last name = true := by
  have hrev : pattern.parts.reverse = last :: pattern.parts.dropLast.reverse := by
    rw [List.getLast?_eq_some_iff] at hlast
    obtain ⟨front, hfront⟩ := hlast
    simp [hfront]
  have hnil : pattern.parts ≠ [] := by
    intro hnil
    simp [hnil] at hlast
  by_cases habsolute : pattern.isAbsolute = true
  · -- a relative path is never matched from its beginning
    have hanchor : pattern.anchor = .relative := by
      simp [accepts?, hnil, habsolute] at h
      exact h.1.1
    simp [Path.isAbsolute, hanchor] at habsolute
  · simp only [accepts?, List.isEmpty_iff, hnil, if_false, habsolute, hrev] at h
    simp [Path.parts, Path.isAbsolute] at h
    exact h.2.1

end Glob

/-! ### The two kinds of patterns -/

namespace Exclusion

/-- A pattern whose effect on a directory is its effect on everything below:
it names a directory, or its last part does not match the name `_`. -/
inductive Regular (pattern : String) : Prop
  | directory (name : String) (hname : name ≠ "" ∧ name ≠ ".") (hslash : '/' ∉ name.toList)
      (hliteral : Glob.Literal name) (hpattern : pattern = name ++ "/*")
  | ending (last : String) (hlast : (Path.ofString pattern).parts.getLast? = some last)
      (hother : Glob.acceptsName last "_" = false)

theorem directoryName?_eq_some {pattern name : String} :
    directoryName? pattern = some name ↔ pattern = name ++ "/*" ∧ '/' ∉ name.toList := by
  constructor
  · intro h
    unfold directoryName? at h
    split at h
    case isFalse => cases h
    case isTrue hends =>
      obtain ⟨front, hfront⟩ := List.isSuffixOf_iff_suffix.mp hends
      have hdrop : Text.dropEnd 2 pattern = String.ofList front := by
        simp [Text.dropEnd, ← hfront]
      simp only [hdrop] at h
      split at h
      case isTrue => cases h
      case isFalse hslash =>
        rw [← Option.some.inj h, ← String.toList_inj, ← hfront]
        exact ⟨by simp, by simpa using hslash⟩
  · rintro ⟨rfl, hslash⟩
    have hends : Text.endsWith "/*" (name ++ "/*") = true := by
      simp [Text.endsWith]
    have hdrop : Text.dropEnd 2 (name ++ "/*") = name := by
      simp [Text.dropEnd]
    simp [directoryName?, hends, hdrop, hslash]

/-- The parts of a pattern for a directory. -/
theorem ofString_directory {name : String} (hname : name ≠ "" ∧ name ≠ ".")
    (hslash : '/' ∉ name.toList) :
    Path.ofString (name ++ "/*") = ⟨.relative, [name, "*"]⟩ := by
  have hpieces : Text.pieces '/' (name ++ "/*") = [name, "*"] := by
    have hcut : (name ++ "/*").toList = name.toList ++ '/' :: ['*'] := by simp
    rw [Text.pieces, hcut, Text.splitAt_append, Text.splitAt_of_not_mem hslash]
    simp [Text.splitAt]
  have hstart : (name ++ "/*").toList.takeWhile (· == '/') = [] := by
    cases hlist : name.toList with
    | nil => exact absurd (String.toList_inj.mp hlist) hname.1
    | cons c cs =>
        have hc : c ≠ '/' := fun hc => hslash (by simp [hlist, hc])
        simp [hlist, hc]
  rw [Path.ofString, hpieces, hstart]
  simp [hname.1, hname.2]

/-- A pattern that is taken for a directory ends in a part that matches
every name. -/
theorem getLast?_parts_of_directoryName? {pattern name : String}
    (h : directoryName? pattern = some name) :
    (Path.ofString pattern).parts.getLast? = some "*" := by
  have hcut : pattern.toList = name.toList ++ '/' :: ['*'] := by
    rw [(directoryName?_eq_some.mp h).1]
    simp
  have hnames : (Path.ofString pattern).names.getLast? = some "*" := by
    simp [Path.ofString, Text.pieces, hcut, Text.splitAt_append, Text.splitAt]
  rw [Path.parts]
  split
  · rw [List.getLast?_cons, hnames]
    rfl
  · exact hnames

theorem directoryName?_ending {pattern last : String}
    (hlast : (Path.ofString pattern).parts.getLast? = some last)
    (hother : Glob.acceptsName last "_" = false) : directoryName? pattern = none := by
  cases hdirectory : directoryName? pattern with
  | none => rfl
  | some name =>
      rw [getLast?_parts_of_directoryName? hdirectory] at hlast
      rw [← Option.some.inj hlast, Glob.acceptsName_star] at hother
      cases hother

/-- The two kinds by the form of the pattern alone. -/
def checkRegular (pattern : String) : Bool :=
  match directoryName? pattern with
  | some name => name != "" && name != "." &&
      name.toList.all fun c => c != '*' && c != '?' && c != '['
  | none => (Path.ofString pattern).parts.getLast?.any fun last => !Glob.acceptsName last "_"

theorem checkRegular_iff (pattern : String) : checkRegular pattern = true ↔ Regular pattern := by
  constructor
  · intro h
    unfold checkRegular at h
    cases hdirectory : directoryName? pattern with
    | some name =>
        obtain ⟨hpattern, hslash⟩ := directoryName?_eq_some.mp hdirectory
        simp only [hdirectory, Bool.and_eq_true, bne_iff_ne, List.all_eq_true] at h
        exact .directory name h.1 hslash (fun c hc => and_assoc.mp (h.2 c hc)) hpattern
    | none =>
        simp only [hdirectory, Option.any_eq_true, Bool.not_eq_true'] at h
        obtain ⟨last, hlast, hother⟩ := h
        exact .ending last hlast hother
  · intro h
    unfold checkRegular
    cases h with
    | directory name hname hslash hliteral hpattern =>
        simp only [directoryName?_eq_some.mpr ⟨hpattern, hslash⟩, Bool.and_eq_true, bne_iff_ne,
          List.all_eq_true]
        exact ⟨hname, fun c hc => and_assoc.mpr (hliteral c hc)⟩
    | ending last hlast hother =>
        simp [directoryName?_ending hlast hother, hlast, hother]

/-- Matching a directory pattern tells nothing that the names of the
directories do not. -/
theorem mem_dropLast_of_accepts? {name : String} (hliteral : Glob.Literal name)
    {names : List String}
    (h : Glob.accepts? ⟨.relative, [name, "*"]⟩ ⟨.relative, names⟩ = some true) :
    name ∈ names.dropLast := by
  simp only [Glob.accepts?, Path.parts, Path.isAbsolute] at h
  cases hrev : names.reverse with
  | nil => simp_all
  | cons last front =>
      cases front with
      | nil =>
          have hone : names.length = 1 := by rw [← List.length_reverse, hrev]; rfl
          simp [hone] at h
      | cons directory front =>
          have hnames : names = front.reverse ++ [directory] ++ [last] := by
            rw [← List.reverse_reverse names, hrev]
            simp
          have hsame : Glob.acceptsName name directory = true := by
            simp [hrev] at h
            exact h.2.2
          rw [Glob.acceptsName_of_literal hliteral] at hsame
          rw [hnames, List.dropLast_concat, hsame]
          simp

/-- A directory pattern excludes what lies below a directory of its name. -/
theorem excludedBy_directory {name : String} (hname : name ≠ "" ∧ name ≠ ".")
    (hslash : '/' ∉ name.toList) (hliteral : Glob.Literal name) (names : List String) :
    excludedBy ⟨.relative, names⟩ (.str (name ++ "/*")) =
      .ok (names.dropLast.contains name) := by
  have hparts : (⟨.relative, names⟩ : Path).parts = names := rfl
  simp only [excludedBy, directoryName?_eq_some.mpr ⟨rfl, hslash⟩, hparts]
  by_cases hmem : name ∈ names.dropLast
  · simp [hmem]
  · have hfalse : names.dropLast.contains name = false := by simpa using hmem
    rw [hfalse, ofString_directory hname hslash]
    cases hfound : Glob.accepts? ⟨.relative, [name, "*"]⟩ ⟨.relative, names⟩ with
    | none => simp [Glob.accepts?, Path.parts, Path.isAbsolute] at hfound
    | some found =>
        cases found with
        | false => rfl
        | true => exact absurd (mem_dropLast_of_accepts? hliteral hfound) hmem

/-- A pattern of the other kind is only matched. -/
theorem excludedBy_ending {pattern last : String}
    (hlast : (Path.ofString pattern).parts.getLast? = some last)
    (hother : Glob.acceptsName last "_" = false) (path : Path) :
    ∃ found, Glob.accepts? (.ofString pattern) path = some found ∧
      excludedBy path (.str pattern) = .ok found := by
  have hnone := directoryName?_ending hlast hother
  cases hfound : Glob.accepts? (.ofString pattern) path with
  | none =>
      rw [Glob.accepts?_eq_none.mp hfound] at hlast
      cases hlast
  | some found => exact ⟨found, rfl, by simp [excludedBy, hnone, hfound]⟩

/-- No pattern of the other kind excludes a file called `_`. -/
theorem excludedBy_ending_underscore {pattern last : String}
    (hlast : (Path.ofString pattern).parts.getLast? = some last)
    (hother : Glob.acceptsName last "_" = false) (names : List String) :
    excludedBy ⟨.relative, names ++ ["_"]⟩ (.str pattern) = .ok false := by
  obtain ⟨found, hfound, hresult⟩ :=
    excludedBy_ending hlast hother ⟨.relative, names ++ ["_"]⟩
  rw [hresult]
  cases found with
  | false => rfl
  | true => rw [Glob.acceptsName_of_accepts? hlast hfound] at hother; cases hother

/-! ### Lists of patterns -/

/-- Whether a test was passed. -/
def passed (result : Except Fault Bool) : Bool := result.toOption.getD false

theorem passed_eq_true {result : Except Fault Bool} :
    passed result = true ↔ result = .ok true := by
  cases result <;> simp [passed, Except.toOption]

theorem eq_ok_passed {result : Except Fault Bool} (h : ∃ answer, result = .ok answer) :
    result = .ok (passed result) := by
  obtain ⟨answer, rfl⟩ := h
  rfl

/-- Whether a pattern excludes a path and does not fail. -/
def excludes (path : Path) (pattern : Value) : Bool := passed (excludedBy path pattern)

theorem excludedBy_regular {pattern : String} (h : Regular pattern) (names : List String) :
    excludedBy ⟨.relative, names⟩ (.str pattern) =
      .ok (excludes ⟨.relative, names⟩ (.str pattern)) := by
  apply eq_ok_passed
  cases h with
  | directory name hname hslash hliteral hpattern =>
      exact ⟨_, hpattern ▸ excludedBy_directory hname hslash hliteral names⟩
  | ending last hlast hother =>
      obtain ⟨found, -, hfound⟩ := excludedBy_ending hlast hother ⟨.relative, names⟩
      exact ⟨found, hfound⟩

/-- A list of regular patterns, given as values. -/
def AllRegular (patterns : List Value) : Prop :=
  ∀ v ∈ patterns, ∃ pattern, v = .str pattern ∧ Regular pattern

/-- A list of patterns that each have at least one part, given as values. -/
def AllParted (patterns : List Value) : Prop :=
  ∀ v ∈ patterns, ∃ pattern, v = .str pattern ∧ (Path.ofString pattern).parts ≠ []

theorem AllRegular.allParted {patterns : List Value} (h : AllRegular patterns) :
    AllParted patterns := by
  intro v hv
  obtain ⟨pattern, rfl, hregular⟩ := h v hv
  refine ⟨pattern, rfl, fun hnone => ?_⟩
  cases hregular with
  | directory name hname hslash hliteral hpattern =>
      rw [hpattern, ofString_directory hname hslash] at hnone
      cases hnone
  | ending last hlast hother =>
      rw [hnone] at hlast
      cases hlast

/-- Only a pattern without parts has no answer. -/
theorem excluded_total {patterns : List Value} (h : AllParted patterns) (path : Path) :
    ∃ answer, excluded path patterns = .ok answer := by
  induction patterns with
  | nil => exact ⟨false, rfl⟩
  | cons v patterns ih =>
      obtain ⟨pattern, rfl, hparts⟩ := h v List.mem_cons_self
      have hrest := ih fun w hw => h w (List.mem_cons_of_mem _ hw)
      have hanswer : ∃ answer, excludedBy path (.str pattern) = .ok answer := by
        cases hfound : Glob.accepts? (.ofString pattern) path with
        | none => exact absurd (Glob.accepts?_eq_none.mp hfound) hparts
        | some found =>
            simp only [excludedBy, hfound]
            exact ⟨_, (apply_ite Except.ok _ true found).symm⟩
      obtain ⟨answer, hanswer⟩ := hanswer
      rw [excluded, hanswer]
      cases answer with
      | false => exact hrest
      | true => exact ⟨true, rfl⟩

/-- The patterns that are excluded unless others are given are regular. -/
theorem allRegular_defaults : AllRegular (Settings.defaultExclusions.map .str) := by
  intro v hv
  obtain ⟨pattern, hpattern, rfl⟩ := List.mem_map.mp hv
  have hall : Settings.defaultExclusions.all checkRegular = true := by decide +kernel
  exact ⟨pattern, rfl, (checkRegular_iff pattern).mp (List.all_eq_true.mp hall pattern hpattern)⟩

/-- Regular patterns always have an answer for a relative path. -/
theorem excluded_regular {patterns : List Value} (h : AllRegular patterns)
    (names : List String) :
    excluded ⟨.relative, names⟩ patterns = .ok (patterns.any (excludes ⟨.relative, names⟩)) := by
  induction patterns with
  | nil => rfl
  | cons v patterns ih =>
      obtain ⟨pattern, rfl, hregular⟩ := h v List.mem_cons_self
      have hrest := ih fun w hw => h w (List.mem_cons_of_mem _ hw)
      rw [excluded, excludedBy_regular hregular, List.any_cons]
      cases excludes ⟨.relative, names⟩ (.str pattern) with
      | false => exact hrest
      | true => rfl

/-- A regular pattern that excludes a file `_` excludes everything below the
same directory. -/
theorem excludes_below {pattern : String} (h : Regular pattern) {names rest : List String}
    (hrest : rest ≠ []) (hexcluded : excludes ⟨.relative, names ++ ["_"]⟩ (.str pattern) = true) :
    excludes ⟨.relative, names ++ rest⟩ (.str pattern) = true := by
  rw [excludes, passed_eq_true] at hexcluded ⊢
  cases h with
  | directory name hname hslash hliteral hpattern =>
      subst hpattern
      rw [excludedBy_directory hname hslash hliteral, Except.ok.injEq, List.contains_iff_mem]
        at hexcluded ⊢
      rw [List.dropLast_concat] at hexcluded
      rw [List.dropLast_append_of_ne_nil hrest]
      exact List.mem_append_left _ hexcluded
  | ending last hlast hother =>
      -- no pattern of this kind excludes a file `_`
      rw [excludedBy_ending_underscore hlast hother] at hexcluded
      cases hexcluded

/-- Leaving out a directory whose file `_` is excluded leaves out excluded
files only. -/
theorem excluded_below {patterns : List Value} (h : AllRegular patterns)
    {names rest : List String} (hrest : rest ≠ [])
    (hexcluded : excluded ⟨.relative, names ++ ["_"]⟩ patterns = .ok true) :
    excluded ⟨.relative, names ++ rest⟩ patterns = .ok true := by
  rw [excluded_regular h, Except.ok.injEq, List.any_eq_true] at hexcluded ⊢
  obtain ⟨v, hv, htrue⟩ := hexcluded
  obtain ⟨pattern, rfl, hregular⟩ := h v hv
  exact ⟨.str pattern, hv, excludes_below hregular hrest htrue⟩

end Exclusion

end ThrowCatch
