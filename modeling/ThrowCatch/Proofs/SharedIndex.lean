import Mathlib.Data.List.Basic
import ThrowCatch.Proofs.CacheHistory
import ThrowCatch.Proofs.Classifying

/-!
One run over a shared index. The files of a run have different keys, so what
one of them adds to the index is not seen by another, and every file is
answered as if the run had just begun. The run is thereby told file by file:
its reports are those of the single files, and the index gains the entries
that the single files would add.
-/

namespace ThrowCatch

namespace Index

section

variable (g : Grammar) (d : Disk) (s : Settings)

/-- Why the file at a resolved path is refused, with the reason given for it.
Each cause is looked at only where those before it do not apply. -/
inductive Refusal (k : Path) : String → Prop
  | unsupported (hlanguage : Language.ofPath? k = none) :
      Refusal k ("unsupported file type '" ++ k.suffix ++ "'")
  | missing {language : Language} {error : DiskError}
      (hlanguage : Language.ofPath? k = some language) (hstat : d.stat k = .error error) :
      Refusal k ("cannot stat file: " ++ error.text)
  | tooLarge {language : Language} {entry : Entry} {limit : Int}
      (hlanguage : Language.ofPath? k = some language) (hstat : d.stat k = .ok entry)
      (hlimit : s.maxFileSizeBytes = .ok limit) (hsize : limit < sizeOf entry) :
      Refusal k ("file is " ++ toString (sizeOf entry) ++ " bytes, limit is " ++ toString limit)
  | unreadable {language : Language} {entry : Entry} {limit : Int} {error : DiskError}
      (hlanguage : Language.ofPath? k = some language) (hstat : d.stat k = .ok entry)
      (hlimit : s.maxFileSizeBytes = .ok limit) (hsize : ¬ limit < sizeOf entry)
      (hread : d.read k = .error error) :
      Refusal k ("cannot read file: " ++ error.text)
  | malformed {language : Language} {entry : Entry} {limit : Int} {bytes : ByteArray}
      (hlanguage : Language.ofPath? k = some language) (hstat : d.stat k = .ok entry)
      (hlimit : s.maxFileSizeBytes = .ok limit) (hsize : ¬ limit < sizeOf entry)
      (hread : d.read k = .ok bytes)
      (herrors : ((g language bytes).hasErrors && s.strictParse.truthy) = true) :
      Refusal k "syntax errors in file"

theorem Refusal.parseFile_eq {k : Path} {reason : String} (h : Refusal g d s k reason) :
    parseFile g d s k = .error (.problem (.sourceUnavailable k.text reason)) := by
  unfold parseFile
  cases h with
  | unsupported hlanguage => rw [hlanguage]
  | missing hlanguage hstat => simp only [hlanguage, hstat]
  | tooLarge hlanguage hstat hlimit hsize =>
      simp only [hlanguage, hstat, hlimit, if_pos hsize]
  | unreadable hlanguage hstat hlimit hsize hread =>
      simp only [hlanguage, hstat, hlimit, if_neg hsize, hread]
  | malformed hlanguage hstat hlimit hsize hread herrors =>
      simp only [hlanguage, hstat, hlimit, if_neg hsize, hread, if_pos herrors]

theorem parseFile_of_source {k : Path} {language : Language} {entry : Entry} {limit : Int}
    {bytes : ByteArray} (hlanguage : Language.ofPath? k = some language)
    (hstat : d.stat k = .ok entry) (hlimit : s.maxFileSizeBytes = .ok limit)
    (hsize : ¬ limit < sizeOf entry) (hread : d.read k = .ok bytes)
    (herrors : ((g language bytes).hasErrors && s.strictParse.truthy) = false) :
    parseFile g d s k = .ok ⟨k, language, bytes.size, g language bytes⟩ := by
  unfold parseFile
  simp only [hlanguage, hstat, hlimit, if_neg hsize, hread, herrors, Bool.false_eq_true, if_false]

/-- All that parsing a file can give: a reason to skip it, the fault of a limit
that is no number, or the parse of its bytes. -/
theorem parseFile_cases (k : Path) :
    (∃ reason, Refusal g d s k reason ∧
      parseFile g d s k = .error (.problem (.sourceUnavailable k.text reason))) ∨
    (∃ fault, s.maxFileSizeBytes = .error fault ∧ parseFile g d s k = .error fault) ∨
    (∃ limit language bytes, s.maxFileSizeBytes = .ok limit ∧
      Language.ofPath? k = some language ∧ d.read k = .ok bytes ∧
      parseFile g d s k = .ok ⟨k, language, bytes.size, g language bytes⟩) := by
  have refused : ∀ {reason}, Refusal g d s k reason → ∃ reason, Refusal g d s k reason ∧
      parseFile g d s k = .error (.problem (.sourceUnavailable k.text reason)) :=
    fun h => ⟨_, h, h.parseFile_eq⟩
  cases hlang : Language.ofPath? k with
  | none => exact .inl (refused (.unsupported hlang))
  | some language =>
      cases hstat : d.stat k with
      | error e => exact .inl (refused (.missing hlang hstat))
      | ok entry =>
          cases hlimit : s.maxFileSizeBytes with
          | error fault =>
              refine .inr (.inl ⟨fault, rfl, ?_⟩)
              unfold parseFile
              simp only [hlang, hstat, hlimit]
          | ok limit =>
              by_cases hsize : limit < sizeOf entry
              · exact .inl (refused (.tooLarge hlang hstat hlimit hsize))
              · cases hread : d.read k with
                | error e => exact .inl (refused (.unreadable hlang hstat hlimit hsize hread))
                | ok bytes =>
                    cases herrors : (g language bytes).hasErrors && s.strictParse.truthy with
                    | true =>
                        exact .inl (refused (.malformed hlang hstat hlimit hsize hread herrors))
                    | false =>
                        exact .inr (.inr ⟨limit, language, bytes, rfl, rfl, rfl,
                          parseFile_of_source g d s hlang hstat hlimit hsize hread herrors⟩)

/-- The entry that a get adds to an index, when it adds one. -/
def added? (ix : Index) (p : Path) : Option (Path × ParsedFile) :=
  (key d p).toOption.bind fun k =>
    if (ix.find? k).isSome then none else (parseFile g d s k).toOption.map (k, ·)

/-- The index after the gets of some paths with different keys. -/
def storeAll (ix : Index) (paths : List Path) : Index :=
  ⟨ix.entries ++ paths.filterMap (added? g d s ix),
    ix.parseCount + (paths.filterMap (added? g d s ix)).length⟩

theorem get_index_eq_storeAll (ix : Index) (p : Path) :
    (get g d s ix p).2 = storeAll g d s ix [p] := by
  obtain ⟨e, hkey, hget⟩ | ⟨k, f, hkey, hfound, hget⟩ | ⟨k, f, hkey, hmiss, hparse, hget⟩ |
    ⟨k, e, hkey, hmiss, hparse, hget⟩ := get_cases g d s ix p
  · simp [hget, storeAll, added?, hkey, Except.toOption]
  · simp [hget, storeAll, added?, hkey, hfound, Except.toOption]
  · simp [hget, storeAll, added?, hkey, hmiss, hparse, store, Except.toOption]
  · simp [hget, storeAll, added?, hkey, hmiss, hparse, Except.toOption]

def AgreeOn (ix ix' : Index) (p : Path) : Prop :=
  ∀ k, key d p = .ok k → ix.find? k = ix'.find? k

variable {g d s}

theorem get_result_congr {ix ix' : Index} {p : Path} (h : AgreeOn d ix ix' p) :
    (get g d s ix p).1 = (get g d s ix' p).1 := by
  unfold get
  cases hkey : key d p with
  | error e => rfl
  | ok k =>
      simp only [h k hkey]
      cases ix'.find? k with
      | some f => rfl
      | none => cases parseFile g d s k <;> rfl

theorem added?_congr {ix ix' : Index} {p : Path} (h : AgreeOn d ix ix' p) :
    added? g d s ix p = added? g d s ix' p := by
  unfold added?
  cases hkey : key d p with
  | error e => rfl
  | ok k => simp only [Except.toOption, Option.bind_some, h k hkey]

theorem agreeOn_get {ix : Index} {p q : Path}
    (hne : ∀ k, key d p = .ok k → key d q ≠ .ok k) :
    AgreeOn d ix (get g d s ix p).2 q := by
  intro k hk
  obtain ⟨_, _, hget⟩ | ⟨_, _, _, _, hget⟩ | ⟨k', f, hkey, _, _, hget⟩ | ⟨_, _, _, _, _, hget⟩ :=
    get_cases g d s ix p
  all_goals rw [hget]
  -- only a parse changes the index, and only under its own key
  · refine (find?_store_of_ne ?_ ix f).symm
    rintro rfl
    exact hne _ hkey hk

theorem storeAll_get {ix : Index} {p : Path} {paths : List Path}
    (hne : ∀ q ∈ paths, ∀ k, key d p = .ok k → key d q ≠ .ok k) :
    storeAll g d s (get g d s ix p).2 paths = storeAll g d s ix (p :: paths) := by
  have hsame : paths.filterMap (added? g d s (get g d s ix p).2) =
      paths.filterMap (added? g d s ix) := by
    refine List.filterMap_congr ?_
    intro q hq
    exact (added?_congr (agreeOn_get (hne q hq))).symm
  have hcons : (p :: paths).filterMap (added? g d s ix) =
      [p].filterMap (added? g d s ix) ++ paths.filterMap (added? g d s ix) := by
    rw [← List.filterMap_append]
    rfl
  rw [storeAll, hsame, get_index_eq_storeAll, storeAll, storeAll, hcons]
  simp only [List.append_assoc, List.length_append, Nat.add_assoc]

theorem storeAll_eq_self {ix : Index} {paths : List Path}
    (h : ∀ p ∈ paths, added? g d s ix p = none) : storeAll g d s ix paths = ix := by
  rw [storeAll, List.filterMap_eq_nil_iff.mpr h, List.append_nil]
  rfl

/-- The order of the paths shows in the order of the entries only. -/
theorem storeAll_perm {paths paths' : List Path} (h : paths.Perm paths') (ix : Index) :
    (storeAll g d s ix paths).entries.Perm (storeAll g d s ix paths').entries ∧
      (storeAll g d s ix paths).parseCount = (storeAll g d s ix paths').parseCount := by
  have hnew := h.filterMap (added? g d s ix)
  refine ⟨hnew.append_left ix.entries, ?_⟩
  simp only [storeAll, hnew.length_eq]

end

end Index

namespace Engine

/-! ### One file -/

/-- The report on what a get gave. -/
def reportFor (e : Engine) (shown : String) : Except Fault ParsedFile → Except Fault FileReport
  | .ok f => e.reportOn shown f
  | .error fault =>
    match skipReason? fault with
    | some reason => .ok (.unavailable shown reason)
    | none => .error fault

theorem analyzeFile_eq (e : Engine) (d : Disk) (ix : Index) (root : Option Path) (p : Path) :
    e.analyzeFile d ix root p =
      (e.reportFor (displayPath d root p) (Index.get e.grammar d e.settings ix p).1,
        (Index.get e.grammar d e.settings ix p).2) := by
  unfold analyzeFile reportFor
  rcases Index.get e.grammar d e.settings ix p with ⟨fault | f, ix'⟩
  · cases hreason : skipReason? fault <;> simp only [hreason]
  · rfl

theorem analyzeFile_result_congr {e : Engine} {d : Disk} {ix ix' : Index} {p : Path}
    (h : Index.AgreeOn d ix ix' p) (root : Option Path) :
    (e.analyzeFile d ix root p).1 = (e.analyzeFile d ix' root p).1 := by
  rw [analyzeFile_eq, analyzeFile_eq, Index.get_result_congr h]

theorem skipReason?_sourceUnavailable (path reason : String) :
    skipReason? (.problem (.sourceUnavailable path reason)) = some reason := by
  simp [skipReason?, Problem.sourceUnavailable]

/-- A path that stands for a file has a key, or a reason to be skipped. -/
theorem key_cases {d : Disk} {p k : Path} (h : identity d p = .ok k) :
    Index.key d p = .ok k ∨
      ∃ reason, Index.key d p = .error (.problem (.sourceUnavailable p.text reason)) := by
  cases hresolve : d.resolve p with
  | ok found =>
      simp only [identity, hresolve] at h
      simp only [Index.key, hresolve]
      exact .inl h
  | error error =>
      simp only [Index.key, hresolve]
      cases error with
      | nullByte => simp only [identity, hresolve] at h; cases h
      | loop path => exact .inr ⟨_, rfl⟩

theorem identity_of_key {d : Disk} {p k : Path} (h : Index.key d p = .ok k) :
    identity d p = .ok k := by
  unfold identity
  rw [Index.key_eq_ok_iff.mp h]

/-- Why the analysis of a file that can be named ends in a fault: the limit on
sizes is no number, or its classes cannot be told apart. -/
theorem fault_of_analyzeFile {e : Engine} {d : Disk} {ix : Index} {root : Option Path}
    {p k : Path} {fault : Fault} (hid : identity d p = .ok k)
    (h : (e.analyzeFile d ix root p).1 = .error fault) :
    e.settings.maxFileSizeBytes = .error fault ∨
      ∃ f, (Index.get e.grammar d e.settings ix p).1 = .ok f ∧
        e.reportOn (displayPath d root p) f = .error fault := by
  rw [analyzeFile_eq] at h
  simp only at h
  obtain ⟨fault', hkey, hget⟩ | ⟨k', f, _, _, hget⟩ | ⟨k', f, _, _, _, hget⟩ |
    ⟨k', fault', hkey, _, hparse, hget⟩ := Index.get_cases e.grammar d e.settings ix p
  · obtain hok | ⟨reason, hskip⟩ := key_cases hid
    · rw [hkey] at hok
      cases hok
    · rw [hkey] at hskip
      cases hskip
      rw [hget, reportFor, skipReason?_sourceUnavailable] at h
      cases h
  · rw [hget] at h ⊢
    exact .inr ⟨f, rfl, h⟩
  · rw [hget] at h ⊢
    exact .inr ⟨f, rfl, h⟩
  · rw [hget] at h
    obtain ⟨reason, _, hskip⟩ | ⟨fault'', hlimit, herror⟩ | ⟨_, _, _, _, _, _, hok⟩ :=
      Index.parseFile_cases e.grammar d e.settings k'
    · rw [hparse] at hskip
      cases hskip
      rw [reportFor, skipReason?_sourceUnavailable] at h
      cases h
    · rw [hparse] at herror
      cases herror
      simp only [reportFor] at h
      split at h
      · cases h
      · cases h
        exact .inl hlimit
    · rw [hparse] at hok
      cases hok

/-- With texts for names only the limit is left. -/
theorem maxFileSizeBytes_of_analyzeFile_error {e : Engine} {d : Disk} {ix : Index}
    {root : Option Path} {p k : Path} {fault : Fault} (htexts : e.matcher.Textual)
    (hid : identity d p = .ok k) (h : (e.analyzeFile d ix root p).1 = .error fault) :
    e.settings.maxFileSizeBytes = .error fault := by
  obtain hlimit | ⟨f, -, hfault⟩ := fault_of_analyzeFile hid h
  · exact hlimit
  · obtain ⟨report, hreport⟩ := exists_reportOn (displayPath d root p) f htexts
    rw [hreport] at hfault
    cases hfault

/-- Without a limit on sizes nothing is ever stored. -/
theorem added?_eq_none {e : Engine} {fault : Fault}
    (h : e.settings.maxFileSizeBytes = .error fault) (d : Disk) (ix : Index) (p : Path) :
    Index.added? e.grammar d e.settings ix p = none := by
  unfold Index.added?
  cases Index.key d p with
  | error _ => rfl
  | ok k =>
      obtain ⟨reason, _, hparse⟩ | ⟨_, _, hparse⟩ | ⟨limit, _, _, hlimit, _⟩ :=
        Index.parseFile_cases e.grammar d e.settings k
      · simp [hparse, Except.toOption]
      · simp [hparse, Except.toOption]
      · rw [h] at hlimit
        cases hlimit

/-! ### Many files -/

/-- Paths that stand for different files. -/
def Apart (d : Disk) (paths : List Path) : Prop :=
  (∀ p ∈ paths, ∃ k, identity d p = .ok k) ∧
    paths.Pairwise fun p q => identity d p ≠ identity d q

theorem Apart.perm {d : Disk} {paths paths' : List Path} (h : Apart d paths)
    (hperm : paths.Perm paths') : Apart d paths' := by
  refine ⟨fun p hp => h.1 p (hperm.mem_iff.mpr hp), ?_⟩
  exact (hperm.pairwise_iff fun hne => Ne.symm hne).mp h.2

theorem key_ne_of_identity_ne {d : Disk} {p q : Path} (h : identity d p ≠ identity d q) :
    ∀ k, Index.key d p = .ok k → Index.key d q ≠ .ok k := by
  intro k hp hq
  exact h ((identity_of_key hp).trans (identity_of_key hq).symm)

/-- After the first of the files the others are answered as before, and what
they add goes on from there. -/
theorem apart_cons (e : Engine) {d : Disk} (root : Option Path) {p : Path} {paths : List Path}
    (h : Apart d (p :: paths)) (ix : Index) :
    Apart d paths ∧
      (∀ q ∈ paths, (e.analyzeFile d (e.analyzeFile d ix root p).2 root q).1 =
        (e.analyzeFile d ix root q).1) ∧
      Index.storeAll e.grammar d e.settings (e.analyzeFile d ix root p).2 paths =
        Index.storeAll e.grammar d e.settings ix (p :: paths) := by
  obtain ⟨hnamed, hdiff⟩ := h
  obtain ⟨hne, hdiff⟩ := List.pairwise_cons.mp hdiff
  have hkeys : ∀ q ∈ paths, ∀ k, Index.key d p = .ok k → Index.key d q ≠ .ok k :=
    fun q hq => key_ne_of_identity_ne (hne q hq)
  rw [show (e.analyzeFile d ix root p).2 = (Index.get e.grammar d e.settings ix p).2 by
    rw [analyzeFile_eq]]
  refine ⟨⟨fun q hq => hnamed q (List.mem_cons_of_mem _ hq), hdiff⟩, ?_, ?_⟩
  · intro q hq
    exact (analyzeFile_result_congr (Index.agreeOn_get (hkeys q hq)) root).symm
  · exact Index.storeAll_get hkeys

/-- With texts for names a file that ends the run has added nothing, and no
other file would. -/
theorem storeAll_of_error {e : Engine} {d : Disk} {ix ix' : Index} {root : Option Path}
    {p k : Path} {fault : Fault} (htexts : e.matcher.Textual) (hid : identity d p = .ok k)
    (h : e.analyzeFile d ix root p = (.error fault, ix')) (paths : List Path) :
    ix' = Index.storeAll e.grammar d e.settings ix paths := by
  have hlimit := maxFileSizeBytes_of_analyzeFile_error htexts hid (congrArg Prod.fst h)
  have hnone : ∀ paths, Index.storeAll e.grammar d e.settings ix paths = ix :=
    fun _ => Index.storeAll_eq_self fun q _ => added?_eq_none hlimit d ix q
  have hix' : ix' = (Index.get e.grammar d e.settings ix p).2 := by
    rw [analyzeFile_eq] at h
    exact (congrArg Prod.snd h).symm
  rw [hix', Index.get_index_eq_storeAll, hnone, hnone]

/-- Files that are apart are analysed as if each were the first, up to the first
fault. -/
theorem analyzeEach_result (e : Engine) {d : Disk} (root : Option Path) {paths : List Path}
    (h : Apart d paths) (ix : Index) :
    (e.analyzeEach d root ix paths).1 = paths.mapM fun p => (e.analyzeFile d ix root p).1 := by
  induction paths generalizing ix with
  | nil => rfl
  | cons p paths ih =>
      obtain ⟨hapart, hothers, -⟩ := apart_cons e root h ix
      have hrest := ih hapart (e.analyzeFile d ix root p).2
      rw [mapM_congr hothers] at hrest
      rw [analyzeEach, List.mapM_cons]
      rcases hfile : e.analyzeFile d ix root p with ⟨fault | report, ix'⟩
      · rfl
      · rw [hfile] at hrest
        simp only [hrest]
        rfl

/-- Whether the index gains all that the files of a run add: no fault ends the
run early, or none comes from a file's classes. -/
def Lasts (e : Engine) (d : Disk) (root : Option Path) (ix : Index) (paths : List Path) : Prop :=
  e.matcher.Textual ∨ ∃ reports, paths.mapM (fun p => (e.analyzeFile d ix root p).1) = .ok reports

theorem analyzeEach_index (e : Engine) {d : Disk} (root : Option Path) {paths : List Path}
    (h : Apart d paths) (ix : Index) (hlasts : e.Lasts d root ix paths) :
    (e.analyzeEach d root ix paths).2 = Index.storeAll e.grammar d e.settings ix paths := by
  induction paths generalizing ix with
  | nil => simp [analyzeEach, Index.storeAll]
  | cons p paths ih =>
      obtain ⟨hapart, hothers, hstore⟩ := apart_cons e root h ix
      rw [← hstore, analyzeEach]
      rcases hfile : e.analyzeFile d ix root p with ⟨fault | report, ix'⟩
      -- a fault ends the run early, but then the other files add nothing either
      · obtain htexts | ⟨reports, hreports⟩ := hlasts
        · obtain ⟨k, hid⟩ := h.1 p List.mem_cons_self
          rw [hfile] at hstore
          exact (storeAll_of_error htexts hid hfile (p :: paths)).trans hstore.symm
        · rw [List.mapM_cons, hfile] at hreports
          cases hreports
      · refine ih hapart ix' (hlasts.imp id fun ⟨reports, hreports⟩ => ?_)
        rw [hfile] at hothers
        rw [List.mapM_cons, hfile] at hreports
        obtain ⟨first, -, hreports⟩ := bind_eq_ok hreports
        obtain ⟨rest, hrest, -⟩ := bind_eq_ok hreports
        exact ⟨rest, (mapM_congr hothers).trans hrest⟩

/-- All that the choice of the files of a run can do with a path: it stands
for a file named before, or it is taken and its file counts as named. -/
theorem uniquePaths_cons {d : Disk} {seen paths unique : List Path} {p : Path}
    (h : uniquePaths d seen (p :: paths) = .ok unique) :
    ∃ k, identity d p = .ok k ∧
      ((k ∈ seen ∧ uniquePaths d seen paths = .ok unique) ∨
        (k ∉ seen ∧ ∃ rest, uniquePaths d (k :: seen) paths = .ok rest ∧ unique = p :: rest)) := by
  rw [uniquePaths] at h
  cases hid : identity d p with
  | error fault =>
      rw [hid] at h
      cases h
  | ok k =>
      rw [hid] at h
      simp only [List.contains_eq_mem, decide_eq_true_eq] at h
      refine ⟨k, rfl, ?_⟩
      split at h
      · exact .inl ⟨‹_›, h⟩
      · cases hrest : uniquePaths d (k :: seen) paths with
        | error fault =>
            rw [hrest] at h
            cases h
        | ok rest =>
            rw [hrest] at h
            cases h
            exact .inr ⟨‹_›, rest, rfl, rfl⟩

/-- The files of a run are apart, and none was named before. -/
theorem apart_of_uniquePaths {d : Disk} {seen paths unique : List Path}
    (h : uniquePaths d seen paths = .ok unique) :
    Apart d unique ∧ ∀ p ∈ unique, ∀ k, identity d p = .ok k → k ∉ seen := by
  induction paths generalizing seen unique with
  | nil =>
      cases h
      simp [Apart]
  | cons p paths ih =>
      obtain ⟨k, hid, ⟨_, hrest⟩ | ⟨hnew, rest, hrest, rfl⟩⟩ := uniquePaths_cons h
      · exact ih hrest
      · obtain ⟨⟨hnamed, hdiff⟩, hunseen⟩ := ih hrest
        refine ⟨⟨?_, ?_⟩, ?_⟩
        · rintro q (_ | ⟨_, hq⟩)
          · exact ⟨k, hid⟩
          · exact hnamed q hq
        · refine List.pairwise_cons.mpr ⟨?_, hdiff⟩
          intro q hq hsame
          exact hunseen q hq k (hsame.symm.trans hid) List.mem_cons_self
        · rintro q (_ | ⟨_, hq⟩) k' hk'
          · rw [hid] at hk'
            cases hk'
            exact hnew
          · exact fun hmem => hunseen q hq k' hk' (List.mem_cons_of_mem _ hmem)

def sameFile (d : Disk) (p q : Path) : Bool :=
  (identity d p).toOption == (identity d q).toOption

/-- The paths that no earlier path stands for the file of. -/
def firstOccurrences (d : Disk) (paths : List Path) : List Path :=
  (paths.zipIdx.filter fun x => !(paths.take x.2).any (sameFile d x.1)).map (·.1)

theorem sameFile_iff {d : Disk} {p q k : Path} (h : identity d p = .ok k) :
    sameFile d p q = true ↔ identity d q = .ok k := by
  unfold sameFile
  rw [h]
  cases identity d q with
  | error fault => simp [Except.toOption]
  | ok k' =>
      simp only [Except.toOption, beq_iff_eq, Option.some.injEq, Except.ok.injEq]
      exact eq_comm

theorem uniquePaths_eq_filter {d : Disk} {before seen paths unique : List Path}
    (hseen : ∀ k, k ∈ seen ↔ ∃ q ∈ before, identity d q = .ok k)
    (h : uniquePaths d seen paths = .ok unique) :
    unique = ((paths.zipIdx before.length).filter fun x =>
      !((before ++ paths).take x.2).any (sameFile d x.1)).map (·.1) := by
  -- `before` are the paths already gone through, and `seen` holds their files
  induction paths generalizing before seen unique with
  | nil =>
      cases h
      rfl
  | cons p paths ih =>
      obtain ⟨k, hid, hcase⟩ := uniquePaths_cons h
      have hhead : (before.any (sameFile d p)) = true ↔ k ∈ seen := by
        rw [hseen, List.any_eq_true]
        exact exists_congr fun q => and_congr_right fun _ => sameFile_iff hid
      have hlist : before ++ p :: paths = (before ++ [p]) ++ paths := by simp
      have hlen : before.length + 1 = (before ++ [p]).length := by simp
      have htake : (before ++ p :: paths).take before.length = before := List.take_left
      rw [List.zipIdx_cons, List.filter_cons, htake, hlist, hlen]
      obtain ⟨hold, hrest⟩ | ⟨hnew, rest, hrest, rfl⟩ := hcase
      · rw [if_neg (by simpa using hhead.mpr hold)]
        refine ih (fun k' => ?_) hrest
        rw [hseen]
        simp only [List.mem_append, List.mem_singleton]
        constructor
        · rintro ⟨q, hq, hk'⟩
          exact ⟨q, .inl hq, hk'⟩
        · rintro ⟨q, hq | rfl, hk'⟩
          · exact ⟨q, hq, hk'⟩
          · rw [hid] at hk'
            cases hk'
            exact (hseen k).mp hold
      · rw [if_pos (by simpa using mt hhead.mp hnew), List.map_cons]
        congr 1
        refine ih (fun k' => ?_) hrest
        simp only [List.mem_cons, hseen, List.mem_append, List.not_mem_nil, or_false]
        constructor
        · rintro (rfl | ⟨q, hq, hk'⟩)
          · exact ⟨p, .inr rfl, hid⟩
          · exact ⟨q, .inl hq, hk'⟩
        · rintro ⟨q, hq | rfl, hk'⟩
          · exact .inr ⟨q, hq, hk'⟩
          · rw [hid] at hk'
            cases hk'
            exact .inl rfl

/-- The files of a run are those whose paths are first to stand for them. -/
theorem uniquePaths_eq_firstOccurrences {d : Disk} {paths unique : List Path}
    (h : uniquePaths d [] paths = .ok unique) : unique = firstOccurrences d paths :=
  @uniquePaths_eq_filter d [] [] paths unique (by simp) h

/-- A run, file by file. -/
theorem analyze_eq (e : Engine) {d : Disk} (root : Option Path) (ix : Index)
    {paths unique : List Path} (h : uniquePaths d [] paths = .ok unique) :
    (e.analyze d root ix paths).1 =
        (unique.mapM fun p => (e.analyzeFile d ix root p).1).map Analysis.mk ∧
      (e.Lasts d root ix unique →
        (e.analyze d root ix paths).2 = Index.storeAll e.grammar d e.settings ix unique) := by
  have hapart := (apart_of_uniquePaths h).1
  simp only [analyze, onFiles, h, analyzeEach_result e root hapart, true_and]
  exact analyzeEach_index e root hapart ix

end Engine

end ThrowCatch
