import ThrowCatch.Proofs.FailedFiles
import ThrowCatch.Proofs.RealPaths
import ThrowCatch.Proofs.SizeLimit

/-!
How files are shown. A path below the root is shown as it is seen from there
and any other path as it was given, and what is shown stands for the file from
then on. So two files are mixed up just when one of them lies outside of the
root and is spelled as the other is seen from the root.
-/

namespace ThrowCatch

namespace Path

theorem below?_eq_some {base p q : Path} :
    base.below? p = some q ↔ q.anchor = .relative ∧ p = ⟨base.anchor, base.names ++ q.names⟩ := by
  obtain ⟨anchor, names⟩ := p
  obtain ⟨anchor', inside⟩ := q
  simp only [below?, List.isPrefixOf_iff_prefix]
  constructor
  · intro h
    split at h
    · rename_i hbelow
      obtain ⟨hanchor, rest, hrest⟩ := hbelow
      cases h
      subst hrest
      exact ⟨rfl, by rw [List.drop_left, hanchor]⟩
    · cases h
  · rintro ⟨rfl, heq⟩
    cases heq
    rw [if_pos ⟨rfl, List.prefix_append _ _⟩, List.drop_left]

end Path

namespace Analysis

variable {a : Analysis} {r : FileReport}

/-- Where no two reports share their path, a path is listed for its own report
alone. -/
theorem path_mem_pathsWhere (h : (a.files.map (·.path)).Nodup) (hr : r ∈ a.analyzed)
    (p : FileReport → Bool) : r.path ∈ a.pathsWhere p ↔ p r = true := by
  rw [mem_pathsWhere]
  constructor
  · rintro ⟨r', hr', hp, hpath⟩
    have hsame : r' = r :=
      List.inj_on_of_nodup_map h (List.mem_of_mem_filter hr') (List.mem_of_mem_filter hr) hpath
    exact hsame ▸ hp
  · exact fun hp => ⟨r, hr, hp, rfl⟩

/-- There the files that a flow calls unguarded are those that raise the name
and do not intercept it themselves. -/
theorem path_mem_unguardedIn (h : (a.files.map (·.path)).Nodup) (hr : r ∈ a.analyzed)
    (name : String) :
    r.path ∈ (a.flow name).unguardedIn ↔ r.raises name = true ∧ r.intercepts name = false := by
  simp only [flow, List.mem_filter, path_mem_pathsWhere h hr, List.contains_eq_mem,
    Bool.not_eq_true', decide_eq_false_iff_not, Bool.not_eq_true]

end Analysis

namespace Engine

variable {d : Disk} {root : Option Path} {p q : Path}

/-- A path as it is seen from the root, when it lies below it. -/
def inside? (d : Disk) (root : Option Path) (p : Path) : Option Path :=
  match root with
  | none => none
  | some root =>
    match identity d p, identity d root with
    | .ok p', .ok root' => root'.below? p'
    | _, _ => none

theorem displayPath_eq (d : Disk) (root : Option Path) (p : Path) :
    displayPath d root p = ((inside? d root p).getD p).text := by
  cases root with
  | none => rfl
  | some root =>
      cases hp : identity d p with
      | error fault => simp only [displayPath, inside?, hp, Option.getD_none]
      | ok p' =>
          cases hroot : identity d root with
          | error fault => simp only [displayPath, inside?, hp, hroot, Option.getD_none]
          | ok root' =>
              simp only [displayPath, inside?, hp, hroot]
              cases root'.below? p' <;> rfl

theorem inside?_eq_some :
    inside? d root p = some q ↔ ∃ r r', root = some r ∧ identity d r = .ok r' ∧
      q.anchor = .relative ∧ identity d p = .ok ⟨r'.anchor, r'.names ++ q.names⟩ := by
  cases root with
  | none => simp [inside?]
  | some root =>
      cases hp : identity d p with
      | error fault => simp [inside?, hp]
      | ok p' =>
          cases hroot : identity d root with
          | error fault => simp [inside?, hp, hroot]
          | ok root' => simp [inside?, hp, hroot, Path.below?_eq_some]

theorem identity_eq_of_inside? {x : Path} (hp : inside? d root p = some x)
    (hq : inside? d root q = some x) : identity d p = identity d q := by
  obtain ⟨r, r', hroot, hr, -, hp⟩ := inside?_eq_some.mp hp
  obtain ⟨s, s', hroot', hs, -, hq⟩ := inside?_eq_some.mp hq
  rw [hroot] at hroot'
  cases hroot'
  rw [hr] at hs
  cases hs
  rw [hp, hq]

theorem sound_identity (hworking : ∀ n ∈ d.working, Path.Proper n) {k : Path} (hp : p.Sound)
    (h : identity d p = .ok k) : k.Sound := by
  unfold identity at h
  split at h
  · rename_i hresolve
    cases h
    exact Disk.sound_resolve hworking hp hresolve
  · cases h
  · cases h
    exact Disk.sound_absolute hworking hp

theorem sound_inside? (hworking : ∀ n ∈ d.working, Path.Proper n) (hp : p.Sound)
    (h : inside? d root p = some q) : q.Sound := by
  obtain ⟨r, r', -, -, -, hid⟩ := inside?_eq_some.mp h
  exact fun n hn => sound_identity hworking hp hid n (List.mem_append_right _ hn)

/-- The second path lies outside of the root, and is spelled as the first one
is seen from the root. -/
def Confused (d : Disk) (root : Option Path) (p q : Path) : Prop :=
  inside? d root p = some q ∧ inside? d root q = none

instance (d : Disk) (root : Option Path) (p q : Path) : Decidable (Confused d root p q) :=
  inferInstanceAs (Decidable (_ ∧ _))

theorem Confused.isAbsolute_eq (h : Confused d root p q) : q.isAbsolute = false := by
  obtain ⟨r, r', -, -, hanchor, -⟩ := inside?_eq_some.mp h.1
  simp [Path.isAbsolute, hanchor]

/-- Two files are shown alike only when their paths are confused. -/
theorem displayPath_eq_iff (hworking : ∀ n ∈ d.working, Path.Proper n) (hp : p.Sound)
    (hq : q.Sound) (hne : identity d p ≠ identity d q) :
    displayPath d root p = displayPath d root q ↔
      Confused d root p q ∨ Confused d root q p := by
  have hshown : ∀ {p : Path}, p.Sound → ((inside? d root p).getD p).Sound := by
    intro p hp
    cases h : inside? d root p with
    | none => exact hp
    | some x => exact sound_inside? hworking hp h
  rw [displayPath_eq, displayPath_eq, Path.text_inj (hshown hp) (hshown hq)]
  unfold Confused
  cases hpx : inside? d root p with
  | none =>
      cases hqx : inside? d root q with
      | none =>
          have hdiffer : p ≠ q := fun heq => hne (heq ▸ rfl)
          simp [hdiffer]
      | some y => simp [eq_comm]
  | some x =>
      cases hqx : inside? d root q with
      | none => simp
      | some y =>
          have hdiffer : x ≠ y := fun heq => hne (identity_eq_of_inside? hpx (heq ▸ hqx))
          simp [hdiffer]

theorem paths_of_analyze {e : Engine} {ix : Index} {paths : List Path} {a : Analysis}
    (h : (e.analyze d root ix paths).1 = .ok a) :
    a.files.map (·.path) = (firstOccurrences d paths).map (displayPath d root) := by
  obtain ⟨-, hfiles⟩ := files_of_analyze h
  generalize firstOccurrences d paths = files at hfiles
  generalize a.files = reports at hfiles
  induction files generalizing reports with
  | nil => rw [List.map_eq_nil_iff.mp hfiles]; rfl
  | cons p files ih =>
      cases reports with
      | nil => cases hfiles
      | cons report reports =>
          obtain ⟨hreport, hrest⟩ := List.cons.inj hfiles
          rw [List.map_cons, List.map_cons, ih reports hrest, path_of_analyzeFile hreport.symm]

theorem mem_of_mem_firstOccurrences {paths : List Path} (h : p ∈ firstOccurrences d paths) :
    p ∈ paths := by
  obtain ⟨⟨q, i⟩, hmem, rfl⟩ := List.mem_map.mp h
  exact List.fst_mem_of_mem_zipIdx (List.mem_of_mem_filter hmem)

/-- The reports of a run differ in their paths just when no file outside of the
root is spelled as another is seen from the root; so they do without a root,
and where every path outside of the root is absolute. The flows then tell the
files apart. -/
theorem shown_paths_differ (e : Engine) (d : Disk) (root : Option Path) (ix : Index)
    (texts : List String) (hworking : ∀ n ∈ d.working, Path.Proper n) {a : Analysis}
    (h : (e.analyze d root ix (texts.map Path.ofString)).1 = .ok a) :
    let files := firstOccurrences d (texts.map Path.ofString)
    ((a.files.map (·.path)).Nodup ↔ ∀ p ∈ files, ∀ q ∈ files, ¬ Confused d root p q) ∧
    ((∀ p ∈ files, root = none ∨ p.isAbsolute = true ∨ (inside? d root p).isSome = true) →
      (a.files.map (·.path)).Nodup) ∧
    ((a.files.map (·.path)).Nodup → ∀ r ∈ a.analyzed, ∀ name,
      (r.path ∈ (a.flow name).unguardedIn ↔
        r.raises name = true ∧ r.intercepts name = false)) := by
  intro files
  have hsound : ∀ p ∈ files, p.Sound := by
    intro p hp
    obtain ⟨text, -, rfl⟩ := List.mem_map.mp (mem_of_mem_firstOccurrences hp)
    exact Path.sound_ofString text
  have hapart : Apart d files := (apart_of_uniquePaths (files_of_analyze h).1).1
  have hiff : (a.files.map (·.path)).Nodup ↔
      ∀ p ∈ files, ∀ q ∈ files, ¬ Confused d root p q := by
    rw [paths_of_analyze h]
    constructor
    · intro hshown p hp q hq hconfused
      have hne : p ≠ q := by
        rintro rfl
        cases hconfused.1.symm.trans hconfused.2
      have hid : identity d p ≠ identity d q :=
        fun heq => hne (List.inj_on_of_nodup_map (List.pairwise_map.mpr hapart.2) hp hq heq)
      refine hne (List.inj_on_of_nodup_map hshown hp hq ?_)
      exact (displayPath_eq_iff hworking (hsound p hp) (hsound q hq) hid).mpr (.inl hconfused)
    · intro hnone
      refine List.pairwise_map.mpr (hapart.2.imp_of_mem fun {p q} hp hq hid hsame => ?_)
      obtain hconfused | hconfused :=
        (displayPath_eq_iff hworking (hsound p hp) (hsound q hq) hid).mp hsame
      · exact hnone p hp q hq hconfused
      · exact hnone q hq p hp hconfused
  refine ⟨hiff, fun hkind => hiff.mpr fun p hp q hq hconfused => ?_,
    fun hnodup r hr name => Analysis.path_mem_unguardedIn hnodup hr name⟩
  obtain rfl | habsolute | hinside := hkind q hq
  · cases hconfused.1
  · rw [hconfused.isAbsolute_eq] at habsolute
    cases habsolute
  · rw [hconfused.2] at hinside
    cases hinside

/-- A file that raises an error below a directory, and beside the directory a
file of the same name that intercepts it. -/
def namesakes : Disk :=
  ⟨.directory [("sub", .directory [("a.ts", .file "throw new LoginError()".toUTF8)]),
    ("a.ts", .file "try \x7b\x7d catch (e) \x7b e instanceof LoginError \x7d".toUTF8)], [], []⟩

theorem resolve_namesakes : ∀ text ∈ ["sub", "sub/a.ts", "a.ts", "/a.ts"],
    namesakes.resolve (Path.ofString text) = .ok ⟨.root, (Path.ofString text).names⟩ := by
  intro text htext
  have hnames : ∀ text ∈ ["sub", "sub/a.ts", "a.ts", "/a.ts"],
      Disk.Ordinary (Path.ofString text).names ∧
        ((Path.ofString text).names.any fun n => n.toList.contains (Char.ofNat 0)) = false := by
    decide +kernel
  obtain ⟨hordinary, hnull⟩ := hnames text htext
  exact Disk.resolve_at_root rfl rfl hordinary hnull

theorem inside?_namesakes (text : String) (htext : text ∈ ["sub", "sub/a.ts", "a.ts", "/a.ts"]) :
    inside? namesakes (some (Path.ofString "sub")) (Path.ofString text) =
      (⟨.root, ["sub"]⟩ : Path).below? ⟨.root, (Path.ofString text).names⟩ := by
  have hid := (identity_eq_ok_iff rfl).mpr (resolve_namesakes text htext)
  have hroot := (identity_eq_ok_iff rfl).mpr (resolve_namesakes "sub" (by decide))
  have hnames : (Path.ofString "sub").names = ["sub"] := by decide +kernel
  simp only [inside?, hid, hroot, hnames]

/-- With its full path the file outside of the root is shown apart. -/
theorem namesakes_apart :
    let e : Engine := ⟨Source.grammar, .defaults, .ofTexts .substring ["Error"], "unknown"⟩
    let texts := ["sub/a.ts", "/a.ts"]
    ∃ a, (e.analyze namesakes (some (Path.ofString "sub")) .empty
      (texts.map Path.ofString)).1 = .ok a ∧ (a.files.map (·.path)).Nodup := by
  intro e texts
  have hmem : ∀ text ∈ texts, text ∈ ["sub", "sub/a.ts", "a.ts", "/a.ts"] := by decide
  have hgives : ∃ a, (e.analyze namesakes (some (Path.ofString "sub")) .empty
      (texts.map Path.ofString)).1 = .ok a := by
    have hlimit : e.settings.maxFileSizeBytes = .ok 5242880 := rfl
    refine exists_analysis (Matcher.textual_ofTexts _ _) hlimit fun p hp => ?_
    obtain ⟨text, htext, rfl⟩ := List.mem_map.mp hp
    exact ⟨_, resolve_namesakes text (hmem text htext)⟩
  obtain ⟨a, ha⟩ := hgives
  refine ⟨a, ha, ?_⟩
  obtain ⟨-, hkinds, -⟩ := shown_paths_differ e namesakes _ .empty texts
    (fun n hn => absurd hn List.not_mem_nil) ha
  refine hkinds fun p hp => .inr ?_
  obtain ⟨text, htext, rfl⟩ := List.mem_map.mp (mem_of_mem_firstOccurrences hp)
  have hkind : ∀ text ∈ texts, (Path.ofString text).isAbsolute = true ∨
      ((⟨.root, ["sub"]⟩ : Path).below? ⟨.root, (Path.ofString text).names⟩).isSome = true := by
    decide +kernel
  rw [inside?_namesakes text (hmem text htext)]
  exact hkind text htext

/-- With a short one it is taken for the file below the root, and a raise that
nothing guards counts as guarded. -/
theorem namesake_hides_raise :
    let e : Engine := ⟨Source.grammar, .defaults, .ofTexts .substring ["Error"], "unknown"⟩
    let inner := Path.ofString "sub/a.ts"
    let outer := Path.ofString "a.ts"
    namesakes.top.linkCount = 0 ∧ identity namesakes inner ≠ identity namesakes outer ∧
    ∃ a, (e.analyze namesakes (some (Path.ofString "sub")) .empty [inner, outer]).1 = .ok a ∧
      a.files.map (·.path) = ["a.ts", "a.ts"] ∧
      (∃ r ∈ a.analyzed, r.raises "LoginError" = true ∧ r.intercepts "LoginError" = false) ∧
      (a.flow "LoginError").unguardedIn = [] := by
  intro e inner outer
  have hinner : namesakes.resolve inner = .ok ⟨.root, ["sub", "a.ts"]⟩ :=
    resolve_namesakes "sub/a.ts" (by decide)
  have houter : namesakes.resolve outer = .ok ⟨.root, ["a.ts"]⟩ :=
    resolve_namesakes "a.ts" (by decide)
  have hid : identity namesakes inner = _ := (identity_eq_ok_iff rfl).mpr hinner
  have hid' : identity namesakes outer = _ := (identity_eq_ok_iff rfl).mpr houter
  have hdiffer : identity namesakes inner ≠ identity namesakes outer := by
    rw [hid, hid']
    exact fun heq => absurd (Except.ok.inj heq) (by decide)
  have hunique : uniquePaths namesakes [] [inner, outer] = .ok [inner, outer] := by
    simp only [uniquePaths, hid, hid']
    rfl
  have hreport : (e.analyzeFile namesakes .empty (some (Path.ofString "sub")) inner).1 =
      .ok ⟨"a.ts", [], [⟨"LoginError", .raised, ⟨"a.ts", 1⟩⟩], [], 0, none⟩ := by
    have hshown : displayPath namesakes (some (Path.ofString "sub")) inner = "a.ts" := by
      rw [displayPath_eq, inside?_namesakes "sub/a.ts" (by decide)]
      decide +kernel
    have hstat : namesakes.stat ⟨.root, ["sub", "a.ts"]⟩ =
        .ok (.file "throw new LoginError()".toUTF8) :=
      Disk.stat_short rfl rfl (by decide) (by decide +kernel)
    rw [analyzeFile_of_source hinner (by decide +kernel : _ = some .typescript) hstat rfl, hshown]
    decide +kernel
  have hreport' : (e.analyzeFile namesakes .empty (some (Path.ofString "sub")) outer).1 =
      .ok ⟨"a.ts", [], [], [⟨"LoginError", .intercepted, ⟨"a.ts", 1⟩⟩], 0, none⟩ := by
    have hshown : displayPath namesakes (some (Path.ofString "sub")) outer = "a.ts" := by
      rw [displayPath_eq, inside?_namesakes "a.ts" (by decide)]
      decide +kernel
    have hstat : namesakes.stat ⟨.root, ["a.ts"]⟩ =
        .ok (.file "try \x7b\x7d catch (e) \x7b e instanceof LoginError \x7d".toUTF8) :=
      Disk.stat_short rfl rfl (by decide) (by decide +kernel)
    rw [analyzeFile_of_source houter (by decide +kernel : _ = some .typescript) hstat rfl, hshown]
    decide +kernel
  refine ⟨rfl, hdiffer, ?_⟩
  rw [(analyze_eq e _ _ hunique).1, List.mapM_cons, List.mapM_cons, hreport, hreport']
  exact ⟨_, rfl, rfl, ⟨_, List.mem_cons_self, by decide, by decide⟩, by decide⟩

end Engine

end ThrowCatch
