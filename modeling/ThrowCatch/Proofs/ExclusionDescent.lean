import Mathlib.Data.List.Forall2
import ThrowCatch.Proofs.DiscoveryFilter
import ThrowCatch.Proofs.PathTexts

/-!
When a directory stands for what lies below it. The search leaves out a
directory when a file `_` in it would be excluded, and so drops every file
below it unseen. That is sound for a pattern exactly when the pattern is
steady: it does not match the name `_`, it matches nothing, it matches
everything, or it names one directory. A pattern such as `_*`, which is meant
for the names of files, is not steady, and hides all directories.
-/

namespace ThrowCatch

/-! ### Matching from the right -/

namespace Glob

/-- Parts of a pattern that match the last of some names, one by one. -/
def MatchesEnd (parts names : List String) : Prop :=
  ∃ front back, names = front ++ back ∧
    List.Forall₂ (fun part name => acceptsName part name = true) parts back

theorem all_zip_iff_forall₂ (parts names : List String) :
    (parts.length ≤ names.length ∧
        ((parts.zip names).all fun (w, h) => acceptsName w h) = true) ↔
      ∃ first rest, names = first ++ rest ∧
        List.Forall₂ (fun part name => acceptsName part name = true) parts first := by
  induction parts generalizing names with
  | nil => simp
  | cons part parts ih =>
      cases names with
      | nil => simp
      | cons name names =>
          simp only [List.length_cons, Nat.add_le_add_iff_right, List.zip_cons_cons,
            List.all_cons, Bool.and_eq_true]
          constructor
          · rintro ⟨hlength, hname, hrest⟩
            obtain ⟨first, rest, rfl, hfirst⟩ := (ih names).mp ⟨hlength, hrest⟩
            exact ⟨name :: first, rest, rfl, .cons hname hfirst⟩
          · rintro ⟨first, rest, heq, hfirst⟩
            cases hfirst with
            | cons hname hmore =>
                obtain ⟨rfl, rfl⟩ := List.cons.inj heq
                obtain ⟨hlength, hrest⟩ := (ih _).mpr ⟨_, rest, rfl, hmore⟩
                exact ⟨hlength, hname, hrest⟩

theorem matchesEnd_iff_all_zip (parts names : List String) :
    MatchesEnd parts names ↔ parts.length ≤ names.length ∧
      ((parts.reverse.zip names.reverse).all fun (w, h) => acceptsName w h) = true := by
  have hreverse := all_zip_iff_forall₂ parts.reverse names.reverse
  rw [List.length_reverse, List.length_reverse] at hreverse
  rw [hreverse]
  constructor
  · rintro ⟨front, back, rfl, hback⟩
    exact ⟨back.reverse, front.reverse, by simp, List.forall₂_reverse_iff.mpr hback⟩
  · rintro ⟨first, rest, heq, hfirst⟩
    refine ⟨rest.reverse, first.reverse, ?_, ?_⟩
    · rw [← List.reverse_reverse names, heq, List.reverse_append]
    · rwa [← List.forall₂_reverse_iff, List.reverse_reverse]

theorem MatchesEnd.exists_mem {parts names : List String} (h : MatchesEnd parts names)
    {part : String} (hpart : part ∈ parts) : ∃ name ∈ names, acceptsName part name = true := by
  obtain ⟨front, back, rfl, hback⟩ := h
  obtain ⟨i, hi, rfl⟩ := List.getElem_of_mem hpart
  have hlength := hback.length_eq
  refine ⟨back[i], List.mem_append_right _ (List.getElem_mem _), ?_⟩
  simpa using hback.get hi (by omega)

theorem matchesEnd_concat {parts names : List String} {part name : String} :
    MatchesEnd (parts ++ [part]) (names ++ [name]) ↔
      MatchesEnd parts names ∧ acceptsName part name = true := by
  simp only [matchesEnd_iff_all_zip, List.length_append, List.length_singleton,
    Nat.add_le_add_iff_right, List.reverse_append, List.reverse_singleton, List.singleton_append,
    List.zip_cons_cons, List.all_cons, Bool.and_eq_true]
  tauto

/-- Parts that match any name match the last of enough names. -/
theorem matchesEnd_of_all {parts names : List String}
    (hall : ∀ part ∈ parts, ∀ name ∈ names, acceptsName part name = true)
    (hlength : parts.length ≤ names.length) : MatchesEnd parts names := by
  rw [matchesEnd_iff_all_zip]
  refine ⟨hlength, List.all_eq_true.mpr ?_⟩
  rintro ⟨part, name⟩ hpair
  obtain ⟨hpart, hname⟩ := List.of_mem_zip hpair
  exact hall part (List.mem_reverse.mp hpart) name (List.mem_reverse.mp hname)

/-- The slash of an absolute pattern is no name. -/
theorem not_accepts_anchor {anchor : Anchor} (hanchor : anchor ≠ .relative) {name : String}
    (hname : Path.Proper name) : acceptsName anchor.text name = false := by
  have hliteral : Literal anchor.text := by
    intro c hc
    rw [Path.toList_anchorText] at hc
    obtain rfl := List.eq_of_mem_replicate hc
    decide
  rw [Bool.eq_false_iff]
  intro haccepts
  rw [acceptsName_of_literal hliteral] at haccepts
  apply hname.2.2
  rw [haccepts, Path.toList_anchorText]
  cases anchor with
  | relative => exact absurd rfl hanchor
  | root => simp [Path.slashes]
  | doubled => simp [Path.slashes]

/-- A pattern matches a relative path when its parts match the last names. -/
theorem accepts?_relative {pattern : Path} {names : List String}
    (hproper : ∀ name ∈ names, Path.Proper name) (hparts : pattern.parts ≠ []) :
    accepts? pattern ⟨.relative, names⟩ = some true ↔ MatchesEnd pattern.parts names := by
  by_cases habsolute : pattern.isAbsolute = true
  · -- neither side holds of an absolute pattern
    have hanchor : pattern.anchor ≠ .relative := by simpa [Path.isAbsolute] using habsolute
    constructor
    · intro h
      simp [accepts?, hparts, habsolute, hanchor] at h
    · intro h
      have hfirst : pattern.anchor.text ∈ pattern.parts := by simp [Path.parts, habsolute]
      obtain ⟨name, hname, haccepts⟩ := h.exists_mem hfirst
      rw [not_accepts_anchor hanchor (hproper name hname)] at haccepts
      cases haccepts
  · have hgiven : (⟨.relative, names⟩ : Path).parts = names := rfl
    simp [accepts?, hparts, habsolute, hgiven, matchesEnd_iff_all_zip]

end Glob

/-! ### Steady patterns -/

structure Path.Relative (p : Path) : Prop where
  anchor : p.anchor = .relative
  names : p.names ≠ []
  sound : p.Sound

namespace Exclusion

/-- With a directory whose file `_` is excluded, all that lies below it is
excluded. -/
def Descends (patterns : List Value) : Prop :=
  ∀ directory rest : Path, directory.Relative → rest.Relative →
    excluded (directory.push "_") patterns = .ok true →
      excluded (directory.append rest) patterns = .ok true

/-- A pattern that treats a directory and all that lies below it alike. -/
inductive Steady (pattern : String) : Prop
  /-- Its last part does not match the name `_`. -/
  | ending (last : String) (hlast : (Path.ofString pattern).parts.getLast? = some last)
      (hother : Glob.acceptsName last "_" = false)
  /-- A part for a directory matches no name. -/
  | idle (part : String) (hpart : part ∈ (Path.ofString pattern).parts.dropLast)
      (hnone : ∀ name, Path.Proper name → Glob.acceptsName part name = false)
  /-- Every part matches every name. -/
  | sweeping (hall : ∀ part ∈ (Path.ofString pattern).parts, ∀ name, Path.Proper name →
      Glob.acceptsName part name = true)
  /-- It names a directory, and beside that name it matches none or all. -/
  | directory (name : String) (hname : Path.Proper name) (hpattern : pattern = name ++ "/*")
      (hothers : (∀ other, Path.Proper other → other ≠ name →
          Glob.acceptsName name other = false) ∨
        ∀ other, Path.Proper other → other ≠ name → Glob.acceptsName name other = true)

/-- What a pattern excludes: what lies below a directory it names, and what it
matches. -/
def Covers (pattern : String) (names : List String) : Prop :=
  (∃ name, directoryName? pattern = some name ∧ name ∈ names.dropLast) ∨
    Glob.MatchesEnd (Path.ofString pattern).parts names

theorem excludedBy_iff {pattern : String} {names : List String}
    (hproper : ∀ name ∈ names, Path.Proper name)
    (hparts : (Path.ofString pattern).parts ≠ []) :
    excludedBy ⟨.relative, names⟩ (.str pattern) = .ok true ↔ Covers pattern names := by
  have hgiven : (⟨.relative, names⟩ : Path).parts = names := rfl
  rw [Covers, ← Glob.accepts?_relative hproper hparts]
  cases hfound : Glob.accepts? (.ofString pattern) ⟨.relative, names⟩ with
  | none => exact absurd (Glob.accepts?_eq_none.mp hfound) hparts
  | some found =>
      cases hdirectory : directoryName? pattern with
      | none => simp [excludedBy, hdirectory, hfound]
      | some name =>
          by_cases hmem : name ∈ names.dropLast
          · simp [excludedBy, hdirectory, hgiven, hmem]
          · simp [excludedBy, hdirectory, hgiven, hmem, hfound]

theorem excluded_iff {patterns : List Value} (h : AllParted patterns) (path : Path) :
    excluded path patterns = .ok true ↔ ∃ v ∈ patterns, excludedBy path v = .ok true := by
  induction patterns with
  | nil => simp [excluded]
  | cons v patterns ih =>
      have hrest := ih fun w hw => h w (List.mem_cons_of_mem _ hw)
      have hone : AllParted [v] := fun w hw => h w (List.mem_singleton.mp hw ▸ List.mem_cons_self)
      obtain ⟨answer, hanswer⟩ := excluded_total hone path
      rw [List.exists_mem_cons_iff, ← hrest, excluded]
      rw [excluded] at hanswer
      cases hv : excludedBy path v with
      | error fault => simp [hv] at hanswer
      | ok found => cases found <;> simp

section

variable {pattern name : String} {names rest : List String}

/-- A pattern that matches a file `_` matches the directory with the parts
before its last. -/
theorem matchesEnd_underscore {parts : List String} {last : String}
    (hlast : parts.getLast? = some last) :
    Glob.MatchesEnd parts (names ++ ["_"]) ↔
      Glob.MatchesEnd parts.dropLast names ∧ Glob.acceptsName last "_" = true := by
  obtain ⟨front, rfl⟩ := List.getLast?_eq_some_iff.mp hlast
  rw [List.dropLast_concat, Glob.matchesEnd_concat]

theorem parts_directory (hname : Path.Proper name) :
    (Path.ofString (name ++ "/*")).parts = [name, "*"] := by
  rw [ofString_directory ⟨hname.1, hname.2.1⟩ hname.2.2]
  rfl

/-- A pattern for directories is matched against the last of them. -/
theorem matchesEnd_directory {last file : String} :
    Glob.MatchesEnd [name, "*"] (names ++ [last] ++ [file]) ↔
      Glob.acceptsName name last = true := by
  have hnone : Glob.MatchesEnd [] names := ⟨names, [], by simp, .nil⟩
  rw [show [name, "*"] = [] ++ [name] ++ ["*"] from rfl, Glob.matchesEnd_concat,
    Glob.matchesEnd_concat]
  simp [hnone, Glob.acceptsName_star]

theorem proper_append (hnames : ∀ name ∈ names, Path.Proper name)
    (hrest : ∀ name ∈ rest, Path.Proper name) : ∀ name ∈ names ++ rest, Path.Proper name :=
  List.forall_mem_append.mpr ⟨hnames, hrest⟩

theorem proper_underscore (hnames : ∀ name ∈ names, Path.Proper name) :
    ∀ name ∈ names ++ ["_"], Path.Proper name := by
  refine proper_append hnames ?_
  simp only [List.mem_singleton, forall_eq]
  decide

section

variable (hnames : ∀ name ∈ names, Path.Proper name) (hrest : ∀ name ∈ rest, Path.Proper name)
  (hne : rest ≠ [])

include hnames hrest hne

theorem directory_excludes_below
    (hothers : (∀ other, Path.Proper other → other ≠ name →
        Glob.acceptsName name other = false) ∨
      ∀ other, Path.Proper other → other ≠ name → Glob.acceptsName name other = true)
    (hdirectory : names ≠ []) (hmatch : Glob.MatchesEnd [name, "*"] (names ++ ["_"])) :
    name ∈ (names ++ rest).dropLast ∨ Glob.MatchesEnd [name, "*"] (names ++ rest) := by
  obtain ⟨above, file, rfl⟩ := List.eq_nil_or_concat' rest |>.resolve_left hne
  rw [← List.append_assoc, List.dropLast_concat]
  rcases hothers with hnone | hall
  · -- the directory that was matched has the name of the pattern
    left
    obtain ⟨front, last, rfl⟩ := List.eq_nil_or_concat' names |>.resolve_left hdirectory
    rw [matchesEnd_directory] at hmatch
    have hlast : last = name := by
      by_contra hother
      rw [hnone last (hnames last (by simp)) hother] at hmatch
      cases hmatch
    simp [hlast]
  · -- so has the directory the file is in, or it is matched
    have hinside : names ++ above ≠ [] := by simp [hdirectory]
    obtain ⟨front, last, hlast⟩ := List.eq_nil_or_concat' (names ++ above) |>.resolve_left hinside
    rw [hlast, matchesEnd_directory]
    by_cases hother : last = name
    · left
      simp [hother]
    · right
      refine hall last (proper_append hnames hrest last ?_) hother
      rw [← List.append_assoc, hlast]
      simp

theorem Steady.covers_below (h : Steady pattern) (hparts : (Path.ofString pattern).parts ≠ [])
    (hdirectory : names ≠ []) (hcovers : Covers pattern (names ++ ["_"])) :
    Covers pattern (names ++ rest) := by
  obtain ⟨name, hname, hmem⟩ | hmatch := hcovers
  · refine .inl ⟨name, hname, ?_⟩
    rw [List.dropLast_concat] at hmem
    rw [List.dropLast_append_of_ne_nil hne]
    exact List.mem_append_left _ hmem
  · cases h with
    | ending last hlast hother =>
        rw [((matchesEnd_underscore hlast).mp hmatch).2] at hother
        cases hother
    | idle part hpart hnone =>
        have hfront := (matchesEnd_underscore (List.getLast?_eq_some_getLast hparts)).mp hmatch
        obtain ⟨name, hname, haccepts⟩ := hfront.1.exists_mem hpart
        rw [hnone name (hnames name hname)] at haccepts
        cases haccepts
    | sweeping hall =>
        refine .inr (Glob.matchesEnd_of_all (fun part hpart name hname => ?_) ?_)
        · exact hall part hpart name (proper_append hnames hrest name hname)
        · have hlength := ((Glob.matchesEnd_iff_all_zip _ _).mp hmatch).1
          have hpos := List.length_pos_of_ne_nil hne
          simp only [List.length_append, List.length_singleton] at hlength ⊢
          omega
    | directory name hname hpattern hothers =>
        subst hpattern
        rw [parts_directory hname] at hmatch
        rw [Covers, parts_directory hname]
        refine (directory_excludes_below hnames hrest hne hothers hdirectory hmatch).imp_left ?_
        exact fun hmem => ⟨name, directoryName?_eq_some.mpr ⟨rfl, hname.2.2⟩, hmem⟩

end

/-! ### No other pattern descends -/

theorem Descends.covers_below (h : Descends [.str pattern])
    (hparts : (Path.ofString pattern).parts ≠ []) (hnames : ∀ name ∈ names, Path.Proper name)
    (hrest : ∀ name ∈ rest, Path.Proper name) (hdirectory : names ≠ []) (hne : rest ≠ [])
    (hcovers : Covers pattern (names ++ ["_"])) : Covers pattern (names ++ rest) := by
  have hparted : AllParted [.str pattern] :=
    fun v hv => ⟨pattern, List.mem_singleton.mp hv, hparts⟩
  have hbelow := h ⟨.relative, names⟩ ⟨.relative, rest⟩ ⟨rfl, hdirectory, hnames⟩ ⟨rfl, hne, hrest⟩
  rw [excluded_iff hparted, excluded_iff hparted] at hbelow
  simp only [List.mem_singleton, exists_eq_left] at hbelow
  rw [← excludedBy_iff (proper_append hnames hrest) hparts]
  apply hbelow
  exact (excludedBy_iff (proper_underscore hnames) hparts).mpr hcovers

/-- Parts that each match some name match some names. -/
theorem exists_matched {parts : List String}
    (h : ∀ part ∈ parts, ∃ name, Path.Proper name ∧ Glob.acceptsName part name = true) :
    ∃ names : List String, (∀ name ∈ names, Path.Proper name) ∧
      List.Forall₂ (fun part name => Glob.acceptsName part name = true) parts names := by
  induction parts with
  | nil => exact ⟨[], by simp, .nil⟩
  | cons part parts ih =>
      obtain ⟨name, hname, haccepts⟩ := h part List.mem_cons_self
      obtain ⟨names, hnames, hmatched⟩ := ih fun p hp => h p (List.mem_cons_of_mem _ hp)
      exact ⟨name :: names, List.forall_mem_cons.mpr ⟨hname, hnames⟩, .cons haccepts hmatched⟩

/-- A name repeated often enough is matched by every part. -/
theorem acceptsName_of_replicate {parts : List String} {part : String}
    (h : Glob.MatchesEnd parts (names ++ List.replicate parts.length name)) (hpart : part ∈ parts) :
    Glob.acceptsName part name = true := by
  obtain ⟨front, back, heq, hback⟩ := h
  obtain ⟨-, rfl⟩ := List.append_inj' heq (by simp [hback.length_eq])
  have hmatch : Glob.MatchesEnd parts (List.replicate parts.length name) := ⟨[], _, rfl, hback⟩
  obtain ⟨other, hother, haccepts⟩ := hmatch.exists_mem hpart
  rwa [List.eq_of_mem_replicate hother] at haccepts

/-- A pattern that only matches, and descends, matches no file `_`, nothing,
or everything. -/
theorem steady_of_descends (h : Descends [.str pattern])
    (hparts : (Path.ofString pattern).parts ≠ []) (hnone : directoryName? pattern = none) :
    Steady pattern := by
  have hlast := List.getLast?_eq_some_getLast hparts
  by_cases hunderscore : Glob.acceptsName ((Path.ofString pattern).parts.getLast hparts) "_" = true
  case neg => exact .ending _ hlast (Bool.eq_false_iff.mpr hunderscore)
  by_cases hfront : ∀ part ∈ (Path.ofString pattern).parts.dropLast,
      ∃ name, Path.Proper name ∧ Glob.acceptsName part name = true
  case neg =>
    push Not at hfront
    obtain ⟨part, hpart, hidle⟩ := hfront
    exact .idle part hpart fun name hname => Bool.eq_false_iff.mpr (hidle name hname)
  refine .sweeping fun part hpart other hother => ?_
  -- below a directory that the pattern matches every name may stand, as often as one likes
  obtain ⟨front, hproper, hmatched⟩ := exists_matched hfront
  have hnames : ∀ name ∈ "a" :: front, Path.Proper name :=
    List.forall_mem_cons.mpr ⟨by decide, hproper⟩
  have hcovers : Covers pattern ("a" :: front ++ ["_"]) :=
    .inr ((matchesEnd_underscore hlast).mpr ⟨⟨["a"], front, rfl, hmatched⟩, hunderscore⟩)
  have hrepeated : ∀ name ∈ List.replicate (Path.ofString pattern).parts.length other,
      Path.Proper name := fun name hname => List.eq_of_mem_replicate hname ▸ hother
  have hbelow := h.covers_below hparts hnames hrepeated (by simp) (by simpa using hparts) hcovers
  obtain ⟨name, hname, -⟩ | hmatch := hbelow
  · rw [hnone] at hname
    cases hname
  · exact acceptsName_of_replicate hmatch hpart

theorem steady_of_descends_directory (h : Descends [.str (name ++ "/*")])
    (hname : Path.Proper name) : Steady (name ++ "/*") := by
  refine .directory name hname rfl ?_
  by_contra hothers
  push Not at hothers
  obtain ⟨⟨matched, hmatched, hother, haccepts⟩, refused, hrefused, hother', hrejects⟩ := hothers
  have hparts := parts_directory hname
  have hcovers : Covers (name ++ "/*") ([matched] ++ ["_"]) := by
    have hlast : Glob.MatchesEnd [name, "*"] ([] ++ [matched] ++ ["_"]) :=
      matchesEnd_directory.mpr (by simpa using haccepts)
    right
    rw [hparts]
    exact hlast
  have hbelow : Covers (name ++ "/*") ([matched] ++ [refused, "a"]) :=
    h.covers_below (by simp [hparts]) (by simpa using hmatched)
      (by simpa using ⟨hrefused, by decide⟩) (by simp) (by simp) hcovers
  obtain ⟨directory, hdirectory, hmem⟩ | hmatch := hbelow
  · obtain rfl : directory = name := by
      rw [directoryName?_eq_some.mpr ⟨rfl, hname.2.2⟩] at hdirectory
      exact (Option.some.inj hdirectory).symm
    simp [hother.symm, hother'.symm] at hmem
  · rw [hparts, show [matched] ++ [refused, "a"] = [matched] ++ [refused] ++ ["a"] from rfl,
      matchesEnd_directory] at hmatch
    exact hrejects hmatch

end

theorem descends_of_steady {patterns : List String}
    (h : ∀ pattern ∈ patterns, (Path.ofString pattern).parts ≠ [] ∧ Steady pattern) :
    Descends (patterns.map .str) := by
  have hparted : AllParted (patterns.map .str) := by
    intro v hv
    obtain ⟨pattern, hpattern, rfl⟩ := List.mem_map.mp hv
    exact ⟨pattern, rfl, (h pattern hpattern).1⟩
  rintro ⟨_, names⟩ ⟨_, rest⟩ ⟨rfl, hdirectory, hnames⟩ ⟨rfl, hne, hrest⟩ hexcluded
  rw [excluded_iff hparted] at hexcluded ⊢
  obtain ⟨v, hv, hexcludes⟩ := hexcluded
  obtain ⟨pattern, hpattern, rfl⟩ := List.mem_map.mp hv
  obtain ⟨hparts, hsteady⟩ := h pattern hpattern
  refine ⟨.str pattern, hv, (excludedBy_iff (proper_append hnames hrest) hparts).mpr ?_⟩
  apply hsteady.covers_below hnames hrest hne hparts hdirectory
  exact (excludedBy_iff (proper_underscore hnames) hparts).mp hexcludes

/-- The patterns `/*` and `./*` name no directory: the first matches no
relative path, and the second matches every one. -/
theorem steady_of_no_directory {name : String} (hname : name = "" ∨ name = ".") :
    Steady (name ++ "/*") := by
  obtain rfl | rfl := hname
  · have hparts : (Path.ofString ("" ++ "/*")).parts = [Anchor.root.text, "*"] := by decide
    refine .idle Anchor.root.text (by rw [hparts]; simp) fun name hname => ?_
    exact Glob.not_accepts_anchor (by decide) hname
  · have hparts : (Path.ofString ("." ++ "/*")).parts = ["*"] := by decide
    refine .sweeping fun part hpart name _ => ?_
    rw [hparts, List.mem_singleton] at hpart
    rw [hpart, Glob.acceptsName_star]

/-- The default patterns and all others of their kinds are steady. -/
theorem Regular.steady {pattern : String} (h : Regular pattern) : Steady pattern := by
  cases h with
  | directory name hname hslash hliteral hpattern =>
      refine .directory name ⟨hname.1, hname.2, hslash⟩ hpattern (.inl fun other _ hother => ?_)
      rw [Bool.eq_false_iff, ne_eq, Glob.acceptsName_of_literal hliteral]
      exact hother
  | ending last hlast hother => exact .ending last hlast hother

/-- A directory may stand for all that lies below it under the steady patterns,
however many, and under no other single pattern. -/
theorem exclusion_descends_iff_steady (patterns : List String)
    (hparts : ∀ pattern ∈ patterns, (Path.ofString pattern).parts ≠ []) :
    (∀ pattern ∈ patterns, Descends [.str pattern] ↔ Steady pattern) ∧
      ((∀ pattern ∈ patterns, Steady pattern) → Descends (patterns.map .str)) := by
  refine ⟨fun pattern hpattern => ⟨fun h => ?_, fun h => ?_⟩, fun h => ?_⟩
  · cases hdirectory : directoryName? pattern with
    | none => exact steady_of_descends h (hparts pattern hpattern) hdirectory
    | some name =>
        obtain ⟨rfl, hslash⟩ := directoryName?_eq_some.mp hdirectory
        by_cases hname : name = "" ∨ name = "."
        · exact steady_of_no_directory hname
        · rw [not_or] at hname
          exact steady_of_descends_directory h ⟨hname.1, hname.2, hslash⟩
  · have hone : ∀ p ∈ [pattern], (Path.ofString p).parts ≠ [] ∧ Steady p := by
      simpa using ⟨hparts pattern hpattern, h⟩
    exact descends_of_steady hone
  · exact descends_of_steady fun pattern hpattern => ⟨hparts pattern hpattern, h pattern hpattern⟩

theorem default_patterns_descend :
    (Path.ofString "_*").parts ≠ [] ∧ ¬ Steady "_*" ∧
      Descends (Settings.defaultExclusions.map .str) := by
  have hparts : (Path.ofString "_*").parts ≠ [] := by decide
  refine ⟨hparts, fun hsteady => ?_, ?_⟩
  · obtain ⟨hsingle, -⟩ := exclusion_descends_iff_steady ["_*"] (by simpa using hparts)
    have hproper : Path.Proper "src" ∧ Path.Proper "a.ts" := by decide
    have hbelow := (hsingle "_*" List.mem_cons_self).mpr hsteady
      ⟨.relative, ["src"]⟩ ⟨.relative, ["a.ts"]⟩
      ⟨rfl, by simp, by simpa [Path.Sound] using hproper.1⟩
      ⟨rfl, by simp, by simpa [Path.Sound] using hproper.2⟩
    exact absurd (hbelow (by decide +kernel)) (by decide +kernel)
  · have hregular : ∀ pattern ∈ Settings.defaultExclusions,
        (Path.ofString pattern).parts ≠ [] ∧ Steady pattern := by
      intro pattern hpattern
      have hmem : Value.str pattern ∈ Settings.defaultExclusions.map .str :=
        List.mem_map_of_mem hpattern
      obtain ⟨text, heq, hparted⟩ := allRegular_defaults.allParted _ hmem
      obtain ⟨text', heq', hkind⟩ := allRegular_defaults _ hmem
      obtain rfl := Value.str.inj heq
      obtain rfl := Value.str.inj heq'
      exact ⟨hparted, hkind.steady⟩
    obtain ⟨-, hlist⟩ := exclusion_descends_iff_steady Settings.defaultExclusions
      fun pattern hpattern => (hregular pattern hpattern).1
    exact hlist fun pattern hpattern => (hregular pattern hpattern).2

end Exclusion

namespace Discovery

/-- Settings that exclude the files whose names begin with an underscore. -/
def underscoresExcluded : Settings :=
  { Settings.defaults with excludePatterns := .list [.str "_*"] }

def oneSource : Entry := .directory [("src", .directory [("a.ts", .file .empty)])]

/-- With such a pattern the search enters no directory, and a file below one is
lost that the pattern does not exclude. -/
theorem underscore_pattern_hides_files :
    Exclusion.excluded ⟨.relative, ["src", "_"]⟩ [.str "_*"] = .ok true ∧
      Exclusion.excluded ⟨.relative, ["src", "a.ts"]⟩ [.str "_*"] = .ok false ∧
      underscoresExcluded.check = .ok () ∧
      Selected underscoresExcluded Settings.defaultExtensions [.str "_*"] oneSource
        ["src", "a.ts"] ∧
      discover ⟨oneSource, [], []⟩ underscoresExcluded .current [] = .ok ⟨[], []⟩ := by
  have hkept : Exclusion.excluded ⟨.relative, ["src", "a.ts"]⟩ [.str "_*"] = .ok false := by
    decide +kernel
  refine ⟨by decide +kernel, hkept, rfl, ?_, ?_⟩
  · exact ⟨⟨.empty, rfl⟩, .inr (by decide), ⟨".ts", by decide, by decide +kernel⟩, hkept⟩
  · have hwalk : walkLinks ⟨oneSource, [], []⟩
        (rulesFor underscoresExcluded Settings.defaultExtensions [.str "_*"]) (Disk.maxLinks + 1)
        ⟨[], Disk.maxLinks, .current⟩ oneSource = .ok [] := by decide +kernel
    rw [discover_of_walk (locate_current oneSource) rfl rfl hwalk, List.map_nil,
      List.mergeSort_nil]
    rfl

end Discovery

end ThrowCatch
