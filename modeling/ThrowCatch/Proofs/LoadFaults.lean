import ThrowCatch.CommandLine
import ThrowCatch.Proofs.Outcomes
import ThrowCatch.Proofs.SettingsEntries

/-!
How loading settings fails. Files, variables and values that no run can work
with become problems of the configuration, which the command line reports to
its user. Two faults are not turned into such a problem: a path of a settings
file that is too long to be looked up, and a member of the extensions that is
no text. The check of the extensions asks every member how it starts, and what
is no text cannot tell.
-/

namespace ThrowCatch

/-- A problem of the configuration, or of a class below it. -/
def Fault.isConfiguration : Fault → Bool
  | .problem p => p.kind.lineage.contains .configuration
  | _ => false

namespace Settings

/-- The check comes to `v` among the extensions, and `v` is no text. -/
structure StrayExtension (s : Settings) (v : Value) : Prop where
  workers : checkWorkers s.workers = .ok ()
  size : checkSize s.maxFileSizeMb = .ok ()
  files : checkAtLeastOne "max_files" s.maxFiles = .ok ()
  member : ∃ before after, s.extensions = .list (before ++ v :: after) ∧
    ∀ w ∈ before, checkExtension w = .ok ()
  noText : ∀ t, v ≠ .str t

/-- The faults of a load that are no problems of the configuration. -/
inductive Escapes (d : Disk) (file : Option Path) (env : List (String × String))
    (given : List (String × Value)) : Fault → Prop
  | path (p : Path) (hp : p ∈ [globalFile d, projectFile d] ++ file.toList)
      (hlong : d.stat p = .error .nameTooLong) :
      Escapes d file env given (.pathTooLong p.text)
  | extension (entries : List (String × Value)) (v : Value)
      (hentries : gather d file env given = .ok entries)
      (hknown : ∀ entry ∈ entries, entry.1 ∈ keys)
      (hstray : StrayExtension (fill entries) v) :
      Escapes d file env given (.noMethod v.kindName "startswith")

/-! ### The check -/

section

/-- A fault that a load reports as a problem of the configuration. -/
def Reported (fault : Fault) : Prop := (wrap fault).isConfiguration = true

theorem reported_refuse (key : String) (v : Value) (reason : String) :
    FailsOnly Reported (refuse key v reason) :=
  FailsOnly.of_error rfl

theorem reported_refuse_or {refused : Bool} (key : String) (v : Value) (reason : String)
    (next : Unit → Except Fault Unit) (hnext : FailsOnly Reported (next ())) :
    FailsOnly Reported (if refused then refuse key v reason >>= next else next ()) := by
  split
  · exact (reported_refuse key v reason).bind fun _ _ => hnext
  · exact hnext

theorem reported_comparable (operator : String) (v : Value) :
    FailsOnly Reported (comparable operator v) := by
  unfold comparable
  split
  · exact FailsOnly.of_ok _
  · exact FailsOnly.of_error rfl

theorem reported_membersOf (v : Value) : FailsOnly Reported (membersOf v) := by
  unfold membersOf
  split
  · exact FailsOnly.of_ok _
  · exact FailsOnly.of_error rfl

theorem reported_checkAtLeastOne (key : String) (v : Value) :
    FailsOnly Reported (checkAtLeastOne key v) := by
  refine (reported_comparable "<" v).bind fun n _ => ?_
  exact reported_refuse_or key v _ pure (FailsOnly.of_ok ())

theorem reported_checkWorkers (v : Value) : FailsOnly Reported (checkWorkers v) := by
  unfold checkWorkers
  split
  · exact FailsOnly.of_ok _
  · exact reported_checkAtLeastOne "workers" v

theorem reported_checkSize (v : Value) : FailsOnly Reported (checkSize v) := by
  refine (reported_comparable "<=" v).bind fun n _ => ?_
  exact reported_refuse_or _ v _ pure (FailsOnly.of_ok ())

/-- A value is gone through in texts, unless it is a list. -/
theorem list_of_membersOf {u v : Value} {vs : List Value} (h : membersOf u = .ok vs)
    (hv : v ∈ vs) (hno : ∀ t, v ≠ .str t) : u = .list vs := by
  cases u with
  | list items =>
      cases h
      rfl
  | str s =>
      cases h
      obtain ⟨c, -, rfl⟩ := List.mem_map.mp hv
      exact absurd rfl (hno _)
  | table entries =>
      cases h
      obtain ⟨entry, -, rfl⟩ := List.mem_map.mp hv
      exact absurd rfl (hno _)
  | null => cases h
  | bool b => cases h
  | int n => cases h
  | float x => cases h
  | moment m => cases h

theorem checkExtension_noText {v : Value} (hno : ∀ t, v ≠ .str t) :
    checkExtension v = .error (.noMethod v.kindName "startswith") := by
  unfold checkExtension
  split
  · exact absurd rfl (hno _)
  · rfl

theorem checkExtension_faults (v : Value) :
    FailsOnly (fun fault => Reported fault ∨
      (∀ t, v ≠ .str t) ∧ fault = .noMethod v.kindName "startswith") (checkExtension v) := by
  unfold checkExtension
  split
  · split
    · exact FailsOnly.of_ok ()
    · exact (reported_refuse _ _ _).mono fun _ => .inl
  · next hno => exact FailsOnly.of_error (.inr ⟨hno, rfl⟩)

/-- The loop over the extensions ends in a reported fault, or at the first
member that is no text. -/
theorem forM_checkExtension_faults (vs : List Value) :
    FailsOnly (fun fault => Reported fault ∨ ∃ before v after, vs = before ++ v :: after ∧
      (∀ w ∈ before, checkExtension w = .ok ()) ∧ (∀ t, v ≠ .str t) ∧
        fault = .noMethod v.kindName "startswith") (vs.forM checkExtension) := by
  induction vs with
  | nil => exact FailsOnly.of_ok ()
  | cons v vs ih =>
      refine ((checkExtension_faults v).mono fun fault hfault => hfault.imp_right ?_).bind
        fun _ hv => ih.mono fun fault hfault => hfault.imp_right ?_
      · rintro ⟨hno, heq⟩
        exact ⟨[], v, vs, rfl, by simp, hno, heq⟩
      · rintro ⟨before, w, after, rfl, hbefore, hrest⟩
        exact ⟨v :: before, w, after, rfl, List.forall_mem_cons.mpr ⟨hv, hbefore⟩, hrest⟩

theorem forM_checkExtension_stray {before after : List Value} {v : Value}
    (hbefore : ∀ w ∈ before, checkExtension w = .ok ()) (hno : ∀ t, v ≠ .str t) :
    (before ++ v :: after).forM checkExtension =
      .error (.noMethod v.kindName "startswith") := by
  induction before with
  | nil =>
      rw [List.nil_append, List.forM_eq_forM, List.forM_cons, checkExtension_noText hno]
      rfl
  | cons w before ih =>
      obtain ⟨hw, hbefore⟩ := List.forall_mem_cons.mp hbefore
      rw [List.cons_append, List.forM_eq_forM, List.forM_cons, hw]
      exact ih hbefore

theorem check_faults (s : Settings) :
    FailsOnly (fun fault => Reported fault ∨
      ∃ v, StrayExtension s v ∧ fault = .noMethod v.kindName "startswith") s.check := by
  unfold check
  refine ((reported_checkWorkers _).mono fun _ => .inl).bind fun _ hworkers => ?_
  refine ((reported_checkSize _).mono fun _ => .inl).bind fun _ hsize => ?_
  refine ((reported_checkAtLeastOne _ _).mono fun _ => .inl).bind fun _ hfiles => ?_
  refine ((reported_membersOf _).mono fun _ => .inl).bind fun vs hvs => ?_
  refine ((forM_checkExtension_faults vs).mono fun fault hfault => ?_).bind fun _ _ => ?_
  · refine hfault.imp_right ?_
    rintro ⟨before, v, after, rfl, hbefore, hno, heq⟩
    have hlist := list_of_membersOf hvs (by simp) hno
    exact ⟨v, ⟨hworkers, hsize, hfiles, ⟨before, after, hlist, hbefore⟩, hno⟩, heq⟩
  -- the remaining checks refuse values, and do nothing else
  refine FailsOnly.mono ?_ fun _ => .inl
  refine reported_refuse_or _ _ _ _ (reported_refuse_or _ _ _ _ (reported_refuse_or _ _ _ _ ?_))
  exact reported_refuse_or _ _ _ pure (FailsOnly.of_ok ())

theorem check_of_strayExtension {s : Settings} {v : Value} (h : StrayExtension s v) :
    s.check = .error (.noMethod v.kindName "startswith") := by
  obtain ⟨before, after, hlist, hbefore⟩ := h.member
  have hmembers : membersOf s.extensions = .ok (before ++ v :: after) := by rw [hlist]; rfl
  unfold check
  rw [h.workers, h.size, h.files, hmembers]
  simp only [bind, Except.bind]
  rw [forM_checkExtension_stray hbefore h.noText]

theorem ofEntries_eq_check {entries : List (String × Value)}
    (hknown : ∀ entry ∈ entries, entry.1 ∈ keys) :
    ofEntries entries = ((fill entries).check).map fun _ => fill entries := by
  have hnames : entries.map (·.1) ⊆ keys := fun key hkey => by
    obtain ⟨entry, hentry, rfl⟩ := List.mem_map.mp hkey
    exact hknown entry hentry
  exact ofEntries_of_known (find?_known hnames)

theorem ofEntries_faults (entries : List (String × Value)) :
    FailsOnly (fun fault => Reported fault ∨ ∃ v, (∀ entry ∈ entries, entry.1 ∈ keys) ∧
      StrayExtension (fill entries) v ∧ fault = .noMethod v.kindName "startswith")
      (ofEntries entries) := by
  cases hfind : (entries.map (·.1)).find? isUnknown with
  | some key =>
      rw [ofEntries_of_unknown hfind]
      exact FailsOnly.of_error (.inl rfl)
  | none =>
      have hknown : ∀ entry ∈ entries, entry.1 ∈ keys := fun entry hentry => by
        simpa [isUnknown] using List.find?_eq_none.mp hfind entry.1 (List.mem_map_of_mem hentry)
      rw [ofEntries_of_known hfind]
      refine FailsOnly.map ((check_faults _).mono fun fault hfault => ?_) _
      obtain hreported | ⟨v, hstray, heq⟩ := hfault
      · exact .inl hreported
      · exact .inr ⟨v, hknown, hstray, heq⟩

end

/-! ### The sources -/

section

variable (d : Disk)

theorem isThere_faults (p : Path) :
    FailsOnly (fun fault => d.stat p = .error .nameTooLong ∧ fault = .pathTooLong p.text)
      (isThere d p) := by
  unfold isThere
  split
  · exact FailsOnly.of_ok _
  · next hlong => exact FailsOnly.of_error ⟨hlong, rfl⟩
  · exact FailsOnly.of_ok _

theorem fromFile_faults (what : String) (p : Path) :
    FailsOnly (fun fault => fault.isConfiguration = true) (fromFile d what p) := by
  unfold fromFile
  split
  · exact FailsOnly.of_ok _
  · exact FailsOnly.of_error rfl

/-- A file is looked for, and read where it is there. -/
theorem lookup_faults (what : String) (p : Path)
    {absent : Except Fault (List (String × Value))}
    (habsent : FailsOnly (fun fault => fault.isConfiguration = true) absent) :
    FailsOnly (fun fault => fault.isConfiguration = true ∨
      d.stat p = .error .nameTooLong ∧ fault = .pathTooLong p.text)
      (isThere d p >>= fun found => if found then fromFile d what p else absent) := by
  refine ((isThere_faults d p).mono fun _ => .inr).bind fun found _ => ?_
  split
  · exact (fromFile_faults d what p).mono fun _ => .inl
  · exact habsent.mono fun _ => .inl

theorem explicitEntries_faults (file : Option Path) :
    FailsOnly (fun fault => fault.isConfiguration = true ∨
      ∃ p ∈ file, d.stat p = .error .nameTooLong ∧ fault = .pathTooLong p.text)
      (explicitEntries d file) := by
  cases file with
  | none => exact FailsOnly.of_ok []
  | some p =>
      refine (lookup_faults d _ p (FailsOnly.of_error rfl)).mono fun fault hfault => ?_
      exact hfault.imp_right fun hlong => ⟨p, rfl, hlong⟩

theorem ofEnvironment_faults (env : List (String × String)) :
    FailsOnly (fun fault => fault.isConfiguration = true) (ofEnvironment env) := by
  refine FailsOnly.foldlM keys [] fun found key _ => ?_
  split
  · exact FailsOnly.of_ok _
  · split
    · exact FailsOnly.of_ok _
    · exact FailsOnly.of_ok _
    · exact FailsOnly.of_error rfl

theorem gather_faults (file : Option Path) (env : List (String × String))
    (given : List (String × Value)) :
    FailsOnly (fun fault => fault.isConfiguration = true ∨ Escapes d file env given fault)
      (gather d file env given) := by
  have hpath : ∀ p ∈ [globalFile d, projectFile d] ++ file.toList, ∀ fault : Fault,
      d.stat p = .error .nameTooLong ∧ fault = .pathTooLong p.text →
        Escapes d file env given fault := by
    rintro p hp fault ⟨hlong, rfl⟩
    exact .path p hp hlong
  have hoptional : ∀ what, ∀ p ∈ [globalFile d, projectFile d] ++ file.toList,
      FailsOnly (fun fault => fault.isConfiguration = true ∨ Escapes d file env given fault)
        (fromOptionalFile d what p) := fun what p hp =>
    (lookup_faults d what p (FailsOnly.of_ok [])).mono fun fault hfault =>
      hfault.imp_right (hpath p hp fault)
  refine (hoptional _ _ (by simp)).bind fun home _ => ?_
  refine (hoptional _ _ (by simp)).bind fun project _ => ?_
  refine ((explicitEntries_faults d file).mono fun fault hfault =>
    hfault.imp_right ?_).bind fun explicit _ => ?_
  · rintro ⟨p, hp, hlong⟩
    exact hpath p (by simp [Option.mem_def.mp hp]) fault hlong
  refine ((ofEnvironment_faults env).mono fun _ => .inl).bind fun surroundings _ => ?_
  exact FailsOnly.of_ok _

end

theorem load_of_strayExtension {d : Disk} {file : Option Path} {env : List (String × String)}
    {given entries : List (String × Value)} {v : Value}
    (hentries : gather d file env given = .ok entries)
    (hknown : ∀ entry ∈ entries, entry.1 ∈ keys) (hstray : StrayExtension (fill entries) v) :
    load d file env given = .error (.noMethod v.kindName "startswith") := by
  unfold load
  rw [hentries]
  show (ofEntries entries).mapError wrap = _
  rw [ofEntries_eq_check hknown, check_of_strayExtension hstray]
  rfl

theorem load_faults (d : Disk) (file : Option Path) (env : List (String × String))
    (given : List (String × Value)) :
    FailsOnly (fun fault => fault.isConfiguration = true ∨ Escapes d file env given fault)
      (load d file env given) := by
  refine (gather_faults d file env given).bind fun entries hentries => ?_
  refine (ofEntries_faults entries).mapError fun fault hfault => ?_
  obtain hreported | ⟨v, hknown, hstray, rfl⟩ := hfault
  · exact .inl hreported
  · exact .inr (.extension entries v hentries hknown hstray)

/-- A load fails with a problem of the configuration, where no path is too long
and no member of the extensions is no text. The latter always ends the load
with the fault of a missing method. A command whose settings fail to load exits
with 1 in each case, and reports the problems of the configuration only.
Outside of the model are the recursion limit of the interpreter, which values
nested deep enough run into, and a home directory that cannot be told. -/
theorem load_fails_as_configuration (d : Disk) (env : List (String × String)) :
    (∀ file given fault, load d file env given = .error fault →
      fault.isConfiguration = true ∨ Escapes d file env given fault) ∧
    (∀ file given entries v, gather d file env given = .ok entries →
      (∀ entry ∈ entries, entry.1 ∈ keys) → StrayExtension (fill entries) v →
        load d file env given = .error (.noMethod v.kindName "startswith")) ∧
    ∀ (g : Grammar) (r : CommandLine.Request) (fault : Fault),
      load d (r.config.map .ofString) env r.overrides = .error fault →
        (CommandLine.perform g d env r).exitCode = 1 ∧
        ((CommandLine.perform g d env r).fault = none ↔ fault.isConfiguration = true) := by
  refine ⟨fun file given => load_faults d file env given,
    fun _ _ _ _ hentries hknown hstray => load_of_strayExtension hentries hknown hstray, ?_⟩
  intro g r fault hfault
  rw [CommandLine.perform, hfault]
  obtain hconfig | hescapes := load_faults _ _ _ _ fault hfault
  · cases fault with
    | problem p => exact ⟨rfl, iff_of_true rfl hconfig⟩
    | _ => cases hconfig
  · cases hescapes with
    | path p hp hlong => exact ⟨rfl, by simp [CommandLine.Outcome.failed, Fault.isConfiguration]⟩
    | extension entries v hentries hknown hstray =>
        exact ⟨rfl, by simp [CommandLine.Outcome.failed, Fault.isConfiguration]⟩

/-- A settings file whose only extension is a number. -/
def numberedExtension : Disk :=
  ⟨.directory [("errorflow.toml", .file "extensions = [1]\n".toUTF8)], [], []⟩

theorem number_as_extension_escapes :
    load numberedExtension none [] [] = .error (.noMethod "int" "startswith") ∧
      (Fault.noMethod "int" "startswith").isConfiguration = false := by
  have hread : Toml.read? "extensions = [1]\n" = some [("extensions", .list [.int 1])] := by
    decide +kernel
  have hproject : Says numberedExtension (projectFile numberedExtension) _ :=
    .inl (holds_top rfl rfl (by decide) (by decide) rfl hread)
  have hhome : Says numberedExtension (globalFile numberedExtension) [] :=
    says_top_missing rfl rfl (by decide) (by decide) rfl
  have hgather : gather numberedExtension none [] [] = .ok [("extensions", .list [.int 1])] := by
    rw [gather, fromOptionalFile_of_says hhome, fromOptionalFile_of_says hproject]
    rfl
  have hstray : StrayExtension (fill [("extensions", .list [.int 1])]) (.int 1) :=
    ⟨rfl, rfl, rfl, ⟨[], [], rfl, by simp⟩, by simp⟩
  obtain ⟨-, hescapes, -⟩ := load_fails_as_configuration numberedExtension []
  exact ⟨hescapes none [] _ _ hgather (by decide) hstray, rfl⟩

end Settings

end ThrowCatch
