import ThrowCatch.Proofs.Outcomes
import ThrowCatch.Proofs.SettingsEntries

/-!
Which source a setting comes from. Every key is looked for in the sources from
the strongest to the weakest, and the first one that supplies it decides; what
the sources below say about that key is never looked at. The names of keys are
checked over all sources, so one that no setting has is refused wherever it
stands.
-/

namespace ThrowCatch.Settings

/-- Where settings come from, the weakest source first. -/
inductive Source
  | home | project | explicit | environment | caller
  deriving DecidableEq, Repr

namespace Source

def rank : Source → Nat
  | .home => 0
  | .project => 1
  | .explicit => 2
  | .environment => 3
  | .caller => 4

/-- The sources in the order in which they are asked for a key. -/
def byPriority : List Source := [.caller, .environment, .explicit, .project, .home]

def isFile : Source → Bool
  | .home => true
  | .project => true
  | .explicit => true
  | _ => false

end Source

/-- What the sources of a run hold: the documents of the three files, the
variables of the environment, and the values the caller gives. -/
structure Sources where
  home : Toml.Entries
  project : Toml.Entries
  explicit : Toml.Entries
  environment : List (String × String)
  caller : List (String × Value)

/-- The text of the variable of a key. -/
def variableText? (env : List (String × String)) (key : String) : Option String :=
  (env.find? fun (k, _) => k == variableName key).map (·.2)

/-- What the environment supplies: a value for each key that has a variable and
holds no list. -/
def environmentValue? (env : List (String × String)) (key : String) : Option Value :=
  if key ∈ keys ∧ fieldKind key ≠ .many then
    (variableText? env key).bind fun text => (readAs (fieldKind key) text).toOption.join
  else none

/-- A switch that the caller turned on. -/
def isOn (given : List (String × Value)) (key : String) : Bool :=
  (Value.field? given key).any Value.truthy

/-- What the caller supplies. The switches are no keys of their own, but decide
on the verbosity, the one for quiet runs first. -/
def callerValue? (given : List (String × Value)) (key : String) : Option Value :=
  if key = "verbose" ∨ key = "quiet" then none
  else if key = "verbosity" ∧ isOn given "quiet" then some (.str "quiet")
  else if key = "verbosity" ∧ isOn given "verbose" then some (.str "verbose")
  else (Value.field? given key).filter isPresent

namespace Sources

/-- What one source supplies for a key. -/
def supplied (s : Sources) : Source → String → Option Value
  | .home => Value.field? (ownEntries s.home)
  | .project => Value.field? (ownEntries s.project)
  | .explicit => Value.field? (ownEntries s.explicit)
  | .environment => environmentValue? s.environment
  | .caller => callerValue? s.caller

/-- The value of the strongest source that supplies a key. -/
def value? (s : Sources) (key : String) : Option Value :=
  Source.byPriority.findSome? fun source => s.supplied source key

/-- The keys that the files name, in their order. -/
def fileKeys (s : Sources) : List String :=
  (ownEntries s.home ++ ownEntries s.project ++ ownEntries s.explicit).map (·.1)

/-- The keys that the sources name, in their order. -/
def mentioned (s : Sources) : List String := s.fileKeys ++ keys ++ s.caller.map (·.1)

/-- Every key with the value of the strongest source that supplies it. -/
def prioritized (s : Sources) : List (String × Value) := Value.tabulate s.value? s.mentioned

/-- The keys among them that no setting has. -/
def unknown (s : Sources) : List String := s.mentioned.filter isUnknown

/-- The sources can all be read. A file of the caller has to be there. -/
structure ReadFrom (s : Sources) (d : Disk) (file : Option Path) : Prop where
  home : Says d (globalFile d) s.home
  project : Says d (projectFile d) s.project
  explicit : match file with
    | none => s.explicit = []
    | some p => Holds d p s.explicit
  environment : ∀ key ∈ keys, ∀ text, variableText? s.environment key = some text →
    ∃ found, readAs (fieldKind key) text = .ok found
  caller : (s.caller.map (·.1)).Nodup

/-- Two states of the sources differ in what the sources weaker than one say
about a key, and in nothing else. -/
structure DifferBelow (source : Source) (key : String) (s s' : Sources) : Prop where
  unknown : s'.unknown = s.unknown
  others : ∀ other k, k ≠ key → s'.supplied other k = s.supplied other k
  above : ∀ other, source.rank ≤ other.rank → s'.supplied other key = s.supplied other key

/-- A document whose entries stand at the top, and one that has them in a table
of the program's name, next to anything else. -/
def Nested (flat nested : Toml.Entries) : Prop :=
  (∀ inner, Value.field? flat "errorflow" ≠ some (.table inner)) ∧
    Value.field? nested "errorflow" = some (.table flat)

/-- Some files have their entries in the table of the program's name instead of
at the top. -/
structure Relaid (s s' : Sources) : Prop where
  home : s'.home = s.home ∨ Nested s.home s'.home
  project : s'.project = s.project ∨ Nested s.project s'.project
  explicit : s'.explicit = s.explicit ∨ Nested s.explicit s'.explicit
  environment : s'.environment = s.environment
  caller : s'.caller = s.caller

end Sources

/-! ### What the caller supplies -/

theorem takeSwitch_eq (key word : String) (given : List (String × Value)) :
    takeSwitch key word given =
      (if isOn given key then Value.put given "verbosity" (.str word) else given).filter
        fun entry => entry.1 != key := by
  rw [takeSwitch, isOn]
  cases hfield : Value.field? given key with
  | some v => rfl
  | none =>
      refine (List.filter_eq_self.mpr fun entry hentry => ?_).symm
      have hkey : entry.1 ≠ key := fun heq =>
        Value.field?_eq_none.mp hfield (List.mem_map.mpr ⟨entry, hentry, heq⟩)
      simpa using hkey

theorem field?_takeSwitch (key word : String) (given : List (String × Value)) (other : String) :
    Value.field? (takeSwitch key word given) other =
      if other = key then none
      else if other = "verbosity" ∧ isOn given key then some (.str word)
      else Value.field? given other := by
  rw [takeSwitch_eq, Value.field?_filter_key]
  cases hon : isOn given key with
  | true => simp only [if_true, Value.field?_put, and_true]
  | false => simp only [Bool.false_eq_true, and_false, if_false]

theorem nodup_takeSwitch {given : List (String × Value)} (h : (given.map (·.1)).Nodup)
    (key word : String) : ((takeSwitch key word given).map (·.1)).Nodup := by
  rw [takeSwitch_eq]
  refine (List.filter_sublist.map _).nodup ?_
  split
  · exact Value.nodup_keys_put h _ _
  · exact h

theorem nodup_overrides {given : List (String × Value)} (h : (given.map (·.1)).Nodup) :
    ((overrides given).map (·.1)).Nodup := by
  rw [overrides]
  exact (List.filter_sublist.map _).nodup (nodup_takeSwitch (nodup_takeSwitch h _ _) _ _)

theorem field?_overrides {given : List (String × Value)} (h : (given.map (·.1)).Nodup)
    (key : String) : Value.field? (overrides given) key = callerValue? given key := by
  have hquiet : isOn (takeSwitch "verbose" "verbose" given) "quiet" = isOn given "quiet" := by
    rw [isOn, field?_takeSwitch, if_neg (by decide), if_neg (by simp)]
    rfl
  rw [overrides, Value.field?_filter_value (nodup_takeSwitch (nodup_takeSwitch h _ _) _ _),
    field?_takeSwitch, field?_takeSwitch, hquiet, callerValue?]
  by_cases hverbose : key = "verbose"
  · subst hverbose
    simp
  by_cases hkey : key = "quiet"
  · subst hkey
    simp
  rw [if_neg hkey, if_neg hverbose, if_neg (not_or.mpr ⟨hverbose, hkey⟩)]
  split
  · rfl
  · split
    · rfl
    · rfl

/-- A search over keys that passes the verbosity by. -/
theorem find?_takeSwitch {p : String × Value → Bool} (hp : ∀ v, p ("verbosity", v) = false)
    (key word : String) (given : List (String × Value)) :
    (takeSwitch key word given).find? p = given.find? fun entry => entry.1 != key && p entry := by
  rw [takeSwitch_eq, List.find?_filter]
  simp only [Bool.decide_and, Bool.decide_eq_true]
  split
  · exact Value.find?_put (by simp [hp]) _
  · rfl

/-- The first key that the caller supplies and no setting has. -/
theorem find?_keys_overrides {given : List (String × Value)} (h : (given.map (·.1)).Nodup) :
    ((overrides given).map (·.1)).find? isUnknown =
      (given.map (·.1)).find? fun key => (callerValue? given key).isSome && isUnknown key := by
  have hknown : isUnknown "verbosity" = false := by decide
  rw [overrides, List.find?_map, List.find?_map, List.find?_filter,
    find?_takeSwitch (by simp [hknown]), find?_takeSwitch (by simp [hknown]),
    ← List.head?_filter, ← List.head?_filter]
  congr 2
  refine List.filter_congr fun entry hentry => ?_
  by_cases hunknown : isUnknown entry.1 = true
  · have hverbosity : entry.1 ≠ "verbosity" := fun heq => by
      rw [heq, hknown] at hunknown
      cases hunknown
    by_cases hswitch : entry.1 = "verbose" ∨ entry.1 = "quiet"
    · rcases hswitch with hswitch | hswitch <;> simp [callerValue?, hswitch]
    · obtain ⟨hverbose, hquiet⟩ := not_or.mp hswitch
      simp [callerValue?, hverbose, hquiet, hverbosity, hunknown, Value.field?_of_mem h hentry,
        bne_iff_ne.mpr hverbose, bne_iff_ne.mpr hquiet]
  · simp [hunknown]

/-! ### What the environment supplies -/

section

variable {env : List (String × String)}

theorem readAs_many {key text : String} {found : Option Value}
    (h : readAs (fieldKind key) text = .ok found) (hmany : fieldKind key = .many) :
    found = none := by
  rw [hmany] at h
  cases h
  rfl

theorem environmentValue?_eq {key text : String} {found : Option Value} (hkey : key ∈ keys)
    (htext : variableText? env key = some text) (hread : readAs (fieldKind key) text = .ok found) :
    environmentValue? env key = found := by
  rw [environmentValue?, htext, Option.bind_some, hread]
  split
  · exact Option.join_some
  · next hnot =>
    have hmany : fieldKind key = .many := by
      by_cases hmany : fieldKind key = .many
      · exact hmany
      · exact absurd ⟨hkey, hmany⟩ hnot
    exact (readAs_many hread hmany).symm

theorem environmentValue?_eq_none {key : String} (htext : variableText? env key = none) :
    environmentValue? env key = none := by
  rw [environmentValue?, htext, Option.bind_none, ite_self]

theorem ofEnvironment_eq (h : ∀ key ∈ keys, ∀ text, variableText? env key = some text →
      ∃ found, readAs (fieldKind key) text = .ok found) :
    ofEnvironment env = .ok (Value.tabulate (environmentValue? env) keys) := by
  rw [ofEnvironment, Value.tabulate, ← List.nil_append (keys.filterMap _)]
  refine foldlM_eq_filterMap (fun found key hkey => ?_) []
  cases hfind : env.find? (fun (k, _) => k == variableName key) with
  | none =>
      have htext : variableText? env key = none := by rw [variableText?, hfind]; rfl
      rw [environmentValue?_eq_none htext]
      exact congrArg Except.ok (List.append_nil found).symm
  | some entry =>
      have htext : variableText? env key = some entry.2 := by rw [variableText?, hfind]; rfl
      obtain ⟨value, hread⟩ := h key hkey entry.2 htext
      rw [environmentValue?_eq hkey htext hread]
      simp only [hread]
      cases value with
      | none => exact congrArg Except.ok (List.append_nil found).symm
      | some v => rfl

end

/-! ### All sources together -/

namespace Sources

variable {s : Sources} {d : Disk} {file : Option Path}

/-- The entries of all sources, set one over the other. -/
def merged (s : Sources) : List (String × Value) :=
  [ownEntries s.home, ownEntries s.project, ownEntries s.explicit,
    Value.tabulate (environmentValue? s.environment) keys, overrides s.caller].foldl Value.merge []

namespace ReadFrom

theorem explicitEntries_eq (h : s.ReadFrom d file) :
    explicitEntries d file = .ok (ownEntries s.explicit) := by
  have hexplicit := h.explicit
  cases file with
  | none =>
      rw [hexplicit]
      rfl
  | some p =>
      rw [explicitEntries, isThere_of_holds hexplicit]
      exact fromFile_of_holds hexplicit _

theorem nodup_explicit (h : s.ReadFrom d file) :
    ((ownEntries s.explicit).map (·.1)).Nodup := by
  have hexplicit := h.explicit
  cases file with
  | none =>
      rw [hexplicit]
      exact List.nodup_nil
  | some p => exact nodup_ownEntries (.inl hexplicit)

theorem gather_eq (h : s.ReadFrom d file) :
    gather d file s.environment s.caller = .ok s.merged := by
  rw [gather, fromOptionalFile_of_says h.home, fromOptionalFile_of_says h.project,
    h.explicitEntries_eq, ofEnvironment_eq h.environment]
  rfl

end ReadFrom

theorem value?_eq (s : Sources) (key : String) :
    s.value? key = (s.supplied .caller key).or ((s.supplied .environment key).or
      ((s.supplied .explicit key).or ((s.supplied .project key).or (s.supplied .home key)))) := by
  have hcons : ∀ (source : Source) (rest : List Source),
      ((source :: rest).findSome? fun source => s.supplied source key) =
        (s.supplied source key).or (rest.findSome? fun source => s.supplied source key) := by
    intro source rest
    rw [List.findSome?_cons]
    cases s.supplied source key <;> rfl
  rw [value?, Source.byPriority, hcons, hcons, hcons, hcons, hcons, List.findSome?_nil,
    Option.or_none]

theorem field?_environment (env : List (String × String)) (key : String) :
    Value.field? (Value.tabulate (environmentValue? env) keys) key = environmentValue? env key := by
  rw [Value.field?_tabulate]
  split
  · rfl
  · next hkey => rw [environmentValue?, if_neg fun h => hkey h.1]

theorem ReadFrom.field?_merged (h : s.ReadFrom d file) (key : String) :
    Value.field? s.merged key = s.value? key := by
  have henvironment :
      ((Value.tabulate (environmentValue? s.environment) keys).map (·.1)).Nodup := by
    rw [Value.keys_tabulate]
    exact List.filter_sublist.nodup (by decide)
  rw [merged, List.foldl_cons, List.foldl_cons, List.foldl_cons, List.foldl_cons, List.foldl_cons,
    List.foldl_nil, Value.field?_merge _ (nodup_overrides h.caller),
    Value.field?_merge _ henvironment, Value.field?_merge _ h.nodup_explicit,
    Value.field?_merge _ (nodup_ownEntries h.project),
    Value.field?_merge _ (nodup_ownEntries h.home), Value.field?_nil, Option.or_none,
    field?_overrides h.caller, field?_environment, value?_eq]
  rfl

/-! ### The keys that are named -/

theorem mem_keys_of_environmentValue? {env : List (String × String)} {key : String}
    (h : (environmentValue? env key).isSome) : key ∈ keys := by
  rw [environmentValue?] at h
  split at h
  · next hkey => exact hkey.1
  · cases h

theorem mem_of_callerValue? {given : List (String × Value)} {key : String}
    (h : (callerValue? given key).isSome) : key ∈ keys ∨ (Value.field? given key).isSome := by
  unfold callerValue? at h
  split at h
  · cases h
  · split at h
    · next hverbosity => exact .inl (hverbosity.1 ▸ by decide)
    · split at h
      · next hverbosity => exact .inl (hverbosity.1 ▸ by decide)
      · exact .inr (Option.isSome_of_isSome_filter _ _ h)

theorem mem_fileKeys_iff {key : String} :
    key ∈ s.fileKeys ↔ ∃ source, source.isFile = true ∧ (s.supplied source key).isSome := by
  rw [fileKeys, List.map_append, List.map_append, List.mem_append, List.mem_append,
    ← Value.isSome_field?, ← Value.isSome_field?, ← Value.isSome_field?]
  constructor
  · rintro ((h | h) | h)
    · exact ⟨.home, rfl, h⟩
    · exact ⟨.project, rfl, h⟩
    · exact ⟨.explicit, rfl, h⟩
  · rintro ⟨source, hfile, h⟩
    cases source with
    | home => exact .inl (.inl h)
    | project => exact .inl (.inr h)
    | explicit => exact .inr h
    | environment => cases hfile
    | caller => cases hfile

theorem mem_mentioned_of_supplied {source : Source} {key : String}
    (h : (s.supplied source key).isSome) : key ∈ s.mentioned := by
  rw [mentioned, List.mem_append, List.mem_append]
  cases source with
  | environment => exact .inl (.inr (mem_keys_of_environmentValue? h))
  | caller =>
      rcases mem_of_callerValue? h with hkey | hgiven
      · exact .inl (.inr hkey)
      · exact .inr (Value.isSome_field?.mp hgiven)
  | home => exact .inl (.inl (mem_fileKeys_iff.mpr ⟨.home, rfl, h⟩))
  | project => exact .inl (.inl (mem_fileKeys_iff.mpr ⟨.project, rfl, h⟩))
  | explicit => exact .inl (.inl (mem_fileKeys_iff.mpr ⟨.explicit, rfl, h⟩))

theorem isSome_value? {source : Source} {key : String} (h : (s.supplied source key).isSome) :
    (s.value? key).isSome := by
  rw [value?, List.findSome?_isSome_iff]
  exact ⟨source, by cases source <;> decide, h⟩

theorem exists_supplied {key : String} (h : (s.value? key).isSome) :
    ∃ source, (s.supplied source key).isSome := by
  rw [value?, List.findSome?_isSome_iff] at h
  obtain ⟨source, -, hsome⟩ := h
  exact ⟨source, hsome⟩

theorem field?_prioritized (s : Sources) (key : String) :
    Value.field? s.prioritized key = s.value? key := by
  rw [prioritized, Value.field?_tabulate]
  split
  · rfl
  · next hkey =>
    cases hvalue : s.value? key with
    | none => rfl
    | some v =>
        obtain ⟨source, hsome⟩ := exists_supplied (Option.isSome_of_eq_some hvalue)
        exact absurd (mem_mentioned_of_supplied hsome) hkey

/-- A key that no setting has and no file names can come from the caller only. -/
theorem value?_of_unknown {key : String} (hunknown : isUnknown key = true)
    (hfiles : key ∉ s.fileKeys) : s.value? key = callerValue? s.caller key := by
  have hnone : ∀ source : Source, source ≠ .caller → s.supplied source key = none := by
    intro source hsource
    cases hsupplied : s.supplied source key with
    | none => rfl
    | some v =>
        have hsome := Option.isSome_of_eq_some hsupplied
        cases source with
        | caller => exact absurd rfl hsource
        | environment =>
            have hkey := mem_keys_of_environmentValue? hsome
            simp [isUnknown, hkey] at hunknown
        | home => exact absurd (mem_fileKeys_iff.mpr ⟨.home, rfl, hsome⟩) hfiles
        | project => exact absurd (mem_fileKeys_iff.mpr ⟨.project, rfl, hsome⟩) hfiles
        | explicit => exact absurd (mem_fileKeys_iff.mpr ⟨.explicit, rfl, hsome⟩) hfiles
  rw [value?_eq, hnone .environment (by simp), hnone .explicit (by simp),
    hnone .project (by simp), hnone .home (by simp)]
  exact Option.or_none

/-- The first unknown key of all sources set one over the other. -/
theorem ReadFrom.find?_merged (h : s.ReadFrom d file) :
    (s.merged.map (·.1)).find? isUnknown =
      (s.fileKeys.find? isUnknown).or ((s.caller.map (·.1)).find? fun key =>
        (callerValue? s.caller key).isSome && isUnknown key) := by
  rw [merged, List.foldl_cons, List.foldl_cons, List.foldl_cons, List.foldl_cons, List.foldl_cons,
    List.foldl_nil, Value.find?_keys_merge, Value.find?_keys_merge, Value.find?_keys_merge,
    Value.find?_keys_merge, Value.find?_keys_merge, Value.keys_tabulate,
    find?_known List.filter_sublist.subset, find?_keys_overrides h.caller, fileKeys,
    List.map_append, List.map_append, List.find?_append, List.find?_append]
  simp only [List.map_nil, List.find?_nil, Option.none_or, Option.or_none]

/-- The first unknown key of all sources asked one by one. -/
theorem find?_prioritized (s : Sources) :
    (s.prioritized.map (·.1)).find? isUnknown =
      (s.fileKeys.find? isUnknown).or ((s.caller.map (·.1)).find? fun key =>
        (callerValue? s.caller key).isSome && isUnknown key) := by
  have hfiles : s.fileKeys.filter (fun key => (s.value? key).isSome) = s.fileKeys := by
    refine List.filter_eq_self.mpr fun key hkey => ?_
    obtain ⟨source, -, hsome⟩ := mem_fileKeys_iff.mp hkey
    exact isSome_value? hsome
  rw [prioritized, Value.keys_tabulate, mentioned, List.filter_append, List.filter_append,
    List.find?_append, List.find?_append, hfiles, find?_known List.filter_sublist.subset,
    Option.or_none]
  cases hfind : s.fileKeys.find? isUnknown with
  | some key => rfl
  | none =>
      rw [Option.none_or, Option.none_or, List.find?_filter, ← List.head?_filter,
        ← List.head?_filter]
      congr 1
      refine List.filter_congr fun key _ => ?_
      cases hunknown : isUnknown key with
      | false => simp
      | true =>
          have hnot : key ∉ s.fileKeys := fun hkey =>
            List.find?_eq_none.mp hfind key hkey hunknown
          simp [value?_of_unknown hunknown hnot]

end Sources

/-! ### Settings from entries -/

section

variable {entries entries' : List (String × Value)}

/-- Settings depend on the entries through what is found under each key, and a
refusal through the first key that no setting has. -/
theorem ofEntries_congr (hfields : ∀ key, Value.field? entries key = Value.field? entries' key)
    (hunknown : (entries.map (·.1)).find? isUnknown = (entries'.map (·.1)).find? isUnknown) :
    ofEntries entries = ofEntries entries' := by
  have hfill : fill entries = fill entries' := by
    unfold fill
    simp only [hfields]
  cases hfind : (entries'.map (·.1)).find? isUnknown with
  | some key => rw [ofEntries_of_unknown (hunknown.trans hfind), ofEntries_of_unknown hfind]
  | none => rw [ofEntries_of_known (hunknown.trans hfind), ofEntries_of_known hfind, hfill]

theorem eq_fill_of_ofEntries {settings : Settings} (h : ofEntries entries = .ok settings) :
    settings = fill entries := by
  cases hfind : (entries.map (·.1)).find? isUnknown with
  | some key =>
      rw [ofEntries_of_unknown hfind] at h
      cases h
  | none =>
      rw [ofEntries_of_known hfind] at h
      cases hcheck : (fill entries).check with
      | error e =>
          rw [hcheck] at h
          cases h
      | ok _ =>
          rw [hcheck] at h
          cases h
          rfl

/-- A field is found as given, and otherwise as it is by default. -/
theorem field?_fill {key : String} (hkey : key ∈ keys) :
    Value.field? (fill entries).entries key =
      (Value.field? entries key).or (Value.field? defaults.entries key) := by
  simp only [keys, List.mem_cons, List.not_mem_nil, or_false] at hkey
  rcases hkey with rfl | rfl | rfl | rfl | rfl | rfl | rfl | rfl | rfl | rfl | rfl | rfl <;>
    exact Option.or_some.symm

end

namespace Sources

variable {s s' : Sources} {d d' : Disk} {file file' : Option Path}

theorem ReadFrom.load_eq (h : s.ReadFrom d file) :
    load d file s.environment s.caller = (ofEntries s.prioritized).mapError wrap := by
  rw [load, h.gather_eq]
  show (ofEntries s.merged).mapError wrap = _
  rw [ofEntries_congr (fun key => (h.field?_merged key).trans (field?_prioritized s key).symm)
    (h.find?_merged.trans (find?_prioritized s).symm)]

theorem load_congr (h : s.ReadFrom d file) (h' : s'.ReadFrom d' file')
    (hvalue : ∀ key, s'.value? key = s.value? key) (hunknown : s'.unknown = s.unknown) :
    load d' file' s'.environment s'.caller = load d file s.environment s.caller := by
  have hfind : ∀ s : Sources, (s.prioritized.map (·.1)).find? isUnknown =
      s.unknown.find? fun key => (s.value? key).isSome := by
    intro s
    rw [prioritized, Value.keys_tabulate, List.find?_filter, unknown, List.find?_filter]
    simp only [and_comm]
  rw [h'.load_eq, h.load_eq]
  refine congrArg (Except.mapError wrap) (ofEntries_congr (fun key => ?_) ?_)
  · rw [field?_prioritized, field?_prioritized, hvalue]
  · simp only [hfind, hunknown, hvalue]

theorem DifferBelow.value?_eq {source : Source} {key : String} (h : DifferBelow source key s s')
    (hsupplied : (s.supplied source key).isSome) (other : String) :
    s'.value? other = s.value? other := by
  rw [Sources.value?_eq, Sources.value?_eq]
  by_cases hother : other = key
  · subst hother
    obtain ⟨v, hv⟩ := Option.isSome_iff_exists.mp hsupplied
    -- the sources down to the one that supplies the key are the same
    cases source with
    | caller => rw [h.above .caller (by decide), hv, Option.some_or, Option.some_or]
    | environment =>
        rw [h.above .caller (by decide), h.above .environment (by decide), hv, Option.some_or,
          Option.some_or]
    | explicit =>
        rw [h.above .caller (by decide), h.above .environment (by decide),
          h.above .explicit (by decide), hv, Option.some_or, Option.some_or]
    | project =>
        rw [h.above .caller (by decide), h.above .environment (by decide),
          h.above .explicit (by decide), h.above .project (by decide), hv, Option.some_or,
          Option.some_or]
    | home =>
        rw [h.above .caller (by decide), h.above .environment (by decide),
          h.above .explicit (by decide), h.above .project (by decide), h.above .home (by decide)]
  · simp only [h.others _ other hother]

theorem ownEntries_nested {flat nested : Toml.Entries} (h : Nested flat nested) :
    ownEntries nested = ownEntries flat := by
  obtain ⟨hflat, hnested⟩ := h
  have hown : ownEntries flat = flat := by
    unfold ownEntries
    split
    · next inner hinner => exact absurd hinner (hflat inner)
    · rfl
  rw [hown, ownEntries, hnested]

theorem Relaid.ownEntries_eq (h : Relaid s s') :
    ownEntries s'.home = ownEntries s.home ∧ ownEntries s'.project = ownEntries s.project ∧
      ownEntries s'.explicit = ownEntries s.explicit := by
  have heither : ∀ {document document' : Toml.Entries},
      document' = document ∨ Nested document document' →
        ownEntries document' = ownEntries document := by
    rintro document document' (rfl | hnested)
    · rfl
    · exact ownEntries_nested hnested
  exact ⟨heither h.home, heither h.project, heither h.explicit⟩

theorem Relaid.load_eq (hrelaid : Relaid s s') (h : s.ReadFrom d file)
    (h' : s'.ReadFrom d' file') :
    load d' file' s'.environment s'.caller = load d file s.environment s.caller := by
  obtain ⟨hhome, hproject, hexplicit⟩ := hrelaid.ownEntries_eq
  refine load_congr h h' (fun key => ?_) ?_
  · simp only [Sources.value?_eq, supplied, hhome, hproject, hexplicit, hrelaid.environment,
      hrelaid.caller]
  · simp only [unknown, mentioned, fileKeys, hhome, hproject, hexplicit, hrelaid.caller]

/-- A key of a file that no setting has ends the load. -/
theorem ReadFrom.load_of_unknown (h : s.ReadFrom d file) {source : Source} {key : String}
    (hfile : source.isFile = true) (hsupplied : (s.supplied source key).isSome)
    (hkey : key ∉ keys) :
    ∃ named, named ∉ keys ∧ load d file s.environment s.caller =
      .error (.problem (.configuration
        ("Invalid configuration: " ++ (Fault.unknownSetting named).message))) := by
  have hunknown : ∀ name, isUnknown name = true ↔ name ∉ keys := by simp [isUnknown]
  have hmem : key ∈ s.fileKeys := mem_fileKeys_iff.mpr ⟨source, hfile, hsupplied⟩
  obtain ⟨named, hnamed⟩ : ∃ named, s.fileKeys.find? isUnknown = some named :=
    Option.isSome_iff_exists.mp (List.find?_isSome.mpr ⟨key, hmem, (hunknown key).mpr hkey⟩)
  refine ⟨named, (hunknown named).mp (List.find?_some hnamed), ?_⟩
  have hfind : (s.prioritized.map (·.1)).find? isUnknown = some named := by
    rw [find?_prioritized, hnamed, Option.some_or]
  rw [h.load_eq, ofEntries_of_unknown hfind]
  rfl

end Sources

/-- The outcome of a load is that of the settings made of each key with the
value of the strongest source that supplies it, and otherwise with its default.
So what a weaker source says about a setting does no harm, a key of a file that
no setting has is refused whatever the other sources say, and it makes no
difference in which of its two places a file has its entries. -/
theorem load_follows_priority {s : Sources} {d : Disk} {file : Option Path}
    (h : s.ReadFrom d file) :
    load d file s.environment s.caller = (ofEntries s.prioritized).mapError wrap ∧
    (∀ key, Value.field? s.prioritized key = s.value? key) ∧
    (∀ settings, load d file s.environment s.caller = .ok settings → ∀ key ∈ keys,
      Value.field? settings.entries key =
        (s.value? key).or (Value.field? defaults.entries key)) ∧
    (∀ s' d' file', s'.ReadFrom d' file' → ∀ source key, (s.supplied source key).isSome →
      Sources.DifferBelow source key s s' →
        load d' file' s'.environment s'.caller = load d file s.environment s.caller) ∧
    (∀ source key, source.isFile = true → (s.supplied source key).isSome → key ∉ keys →
      ∃ named, named ∉ keys ∧ load d file s.environment s.caller =
        .error (.problem (.configuration
          ("Invalid configuration: " ++ (Fault.unknownSetting named).message)))) ∧
    (∀ s' d' file', s'.ReadFrom d' file' → Sources.Relaid s s' →
      load d' file' s'.environment s'.caller = load d file s.environment s.caller) := by
  refine ⟨h.load_eq, Sources.field?_prioritized s, fun settings hload key hkey => ?_,
    fun s' d' file' h' source key hsupplied hdiffer =>
      Sources.load_congr h h' (hdiffer.value?_eq hsupplied) hdiffer.unknown,
    fun source key hfile hsupplied hkey => h.load_of_unknown hfile hsupplied hkey,
    fun s' d' file' h' hrelaid => hrelaid.load_eq h h'⟩
  have hentries : ofEntries s.prioritized = .ok settings := by
    rw [h.load_eq] at hload
    cases hof : ofEntries s.prioritized with
    | ok found =>
        rw [hof] at hload
        cases hload
        rfl
    | error e =>
        rw [hof] at hload
        cases hload
  rw [eq_fill_of_ofEntries hentries, field?_fill hkey, Sources.field?_prioritized]

/-- A file in the home directory with a table of its own, and one in the
working directory with a limit for the number of files. -/
def layeredDisk (project : String) : Disk :=
  ⟨.directory
    [(".errorflow.toml", .file "[errorflow]\nverbosity = \"quiet\"\n".toUTF8),
      ("errorflow.toml", .file project.toUTF8)], [], []⟩

/-- What they hold, with a variable for the same limit and a loud run. -/
def layeredSources (limit : Int) : Sources where
  home := [("errorflow", .table [("verbosity", .str "quiet")])]
  project := [("max_files", .int limit)]
  explicit := []
  environment := [("ERRORFLOW_MAX_FILES", "7")]
  caller := [("verbose", .bool true), ("workers", .null)]

theorem layeredSources_read {limit : Int} {project : String}
    (hproject : Toml.read? project = some [("max_files", .int limit)]) :
    (layeredSources limit).ReadFrom (layeredDisk project) none where
  home := by
    have hhome : Toml.read? "[errorflow]\nverbosity = \"quiet\"\n" =
        some [("errorflow", .table [("verbosity", .str "quiet")])] := by decide +kernel
    exact .inl (holds_top rfl rfl (by decide) (by decide) rfl hhome)
  project := .inl (holds_top rfl rfl (by decide) (by decide) rfl hproject)
  explicit := rfl
  environment := by
    have hothers : ∀ key ∈ keys, key = "max_files" ∨
        variableText? [("ERRORFLOW_MAX_FILES", "7")] key = none := by decide
    intro key hkey text htext
    obtain rfl | hnone := hothers key hkey
    · cases htext
      exact ⟨some (.int 7), rfl⟩
    · cases hnone.symm.trans htext
  caller := by simp [layeredSources]

/-- A limit that no run can work with does no harm below the variable. -/
theorem overruled_limit_harmless :
    ∃ settings, settings.maxFiles = .int 7 ∧ settings.verbosity = .str "verbose" ∧
      ∀ project ∈ ["max_files = 0\n", "max_files = 5\n"],
        load (layeredDisk project) none (layeredSources 0).environment (layeredSources 0).caller =
          .ok settings := by
  have hnone : (layeredSources 0).ReadFrom (layeredDisk "max_files = 0\n") none :=
    layeredSources_read (by decide +kernel)
  have hfive : (layeredSources 5).ReadFrom (layeredDisk "max_files = 5\n") none :=
    layeredSources_read (by decide +kernel)
  obtain ⟨hload, -, -, hharmless, -⟩ := load_follows_priority hnone
  have hdiffer : Sources.DifferBelow .environment "max_files" (layeredSources 0)
      (layeredSources 5) := by
    refine ⟨rfl, fun other k hk => ?_, fun other hrank => ?_⟩
    · cases other with
      | project =>
          show Value.field? [("max_files", .int 5)] k = Value.field? [("max_files", .int 0)] k
          rw [Value.field?_cons, Value.field?_cons, if_neg hk.symm, if_neg hk.symm]
      | _ => rfl
    · cases other with
      | project => simp [Source.rank] at hrank
      | _ => rfl
  have hsame := hharmless (layeredSources 5) _ none hfive .environment "max_files" rfl hdiffer
  refine ⟨fill (layeredSources 0).prioritized, rfl, rfl, ?_⟩
  rintro project hproject
  simp only [List.mem_cons, List.not_mem_nil, or_false] at hproject
  obtain rfl | rfl := hproject
  · exact hload
  · exact hsame.trans hload

end ThrowCatch.Settings
