import ThrowCatch.Disk.Resolve

/-!
File systems without links. No path runs into a loop there, so every path
without a null character is resolved, and one from the root that never leads
back is resolved already.
-/

namespace ThrowCatch

namespace Entry

theorem linkCount_of_mem {entries : List (String × Entry)} {name : String} {e : Entry}
    (h : linkCountIn entries = 0) (hmem : (name, e) ∈ entries) : e.linkCount = 0 := by
  induction entries with
  | nil => cases hmem
  | cons first rest ih =>
      obtain ⟨n, c⟩ := first
      rw [linkCountIn] at h
      rcases List.mem_cons.mp hmem with heq | hrest
      · cases heq
        omega
      · exact ih (by omega) hrest

theorem linkCount_of_at? {e c : Entry} {names : List String} (h : e.linkCount = 0)
    (hat : e.at? names = some c) : c.linkCount = 0 := by
  induction names generalizing e with
  | nil =>
      cases hat
      exact h
  | cons name names ih =>
      rw [at?, Option.bind_eq_some_iff] at hat
      obtain ⟨inner, hinner, hat⟩ := hat
      refine ih ?_ hat
      cases e with
      | file bytes => cases hinner
      | link target => cases hinner
      | directory entries =>
          rw [linkCount] at h
          obtain ⟨⟨n, found⟩, hfound, rfl⟩ := Option.map_eq_some_iff.mp hinner
          exact linkCount_of_mem h (List.mem_of_find?_eq_some hfound)

theorem at?_ne_link {e : Entry} (h : e.linkCount = 0) (names : List String) (target : String) :
    e.at? names ≠ some (.link target) := by
  intro hat
  cases linkCount_of_at? h hat

end Entry

namespace Disk

variable {d : Disk}

/-- Where there are no links no path leads through too many of them. -/
theorem walkNames_ne_loop (h : d.top.linkCount = 0) (follow : Bool) (links : Nat)
    (here names : List String) : d.walkNames follow links here names ≠ .error .loop := by
  induction names generalizing here with
  | nil =>
      rw [walkNames]
      rintro ⟨⟩
  | cons name names ih =>
      rw [walkNames]
      cases hhere : d.top.at? here with
      | none => rintro ⟨⟩
      | some e =>
          cases e with
          | file bytes => rintro ⟨⟩
          | link target => rintro ⟨⟩
          | directory entries =>
              simp only
              split
              · exact ih here
              · split
                · exact ih here.dropLast
                · split
                  · rintro ⟨⟩
                  · cases hnext : d.top.at? (here ++ [name]) with
                    | none => rintro ⟨⟩
                    | some c =>
                        cases c with
                        | link target => exact absurd hnext (Entry.at?_ne_link h _ target)
                        | file bytes => exact ih (here ++ [name])
                        | directory entries => exact ih (here ++ [name])

theorem stat_ne_loop (h : d.top.linkCount = 0) (p : Path) : d.stat p ≠ .error .loop := by
  unfold stat locate
  split
  · rintro ⟨⟩
  · have hwalk := walkNames_ne_loop h true maxLinks (d.start p) p.names
    cases hplace : d.walkNames true maxLinks (d.start p) p.names with
    | error e =>
        rw [hplace] at hwalk
        rintro ⟨⟩
        exact hwalk rfl
    | ok place =>
        simp only [Except.bind]
        split <;> rintro ⟨⟩

theorem resolve_of_no_null (h : d.top.linkCount = 0) {p : Path}
    (hnull : (p.names.any fun n => n.toList.contains (Char.ofNat 0)) = false) :
    d.resolve p = .ok (d.absolute ⟨.root, d.expanded p⟩) := by
  rw [resolve, if_neg (Bool.eq_false_iff.mp hnull)]
  dsimp only
  split
  · rename_i hloop
    exact absurd hloop (stat_ne_loop h _)
  · rfl

/-- Without links a path is resolved unless it has a null character in it. -/
theorem resolve_cases (h : d.top.linkCount = 0) (p : Path) :
    d.resolve p = .error .nullByte ∨ ∃ k, d.resolve p = .ok k := by
  cases hnull : p.names.any fun n => n.toList.contains (Char.ofNat 0) with
  | true => exact .inl (by rw [resolve, if_pos hnull])
  | false => exact .inr ⟨_, resolve_of_no_null h hnull⟩

theorem linkStat_ne_link (h : d.top.linkCount = 0) (p : Path) (target : String) :
    d.linkStat p ≠ .ok (.link target) := by
  unfold linkStat
  cases d.locate false p with
  | error e => rintro ⟨⟩
  | ok place =>
      simp only [Except.bind]
      cases hat : d.top.at? place.names with
      | none => rintro ⟨⟩
      | some e =>
          rintro ⟨⟩
          exact Entry.at?_ne_link h _ target hat

/-- Names that mean a place of their own, unlike the two that lead back. -/
def Ordinary (names : List String) : Prop := ∀ n ∈ names, n ≠ "." ∧ n ≠ ".."

instance (names : List String) : Decidable (Ordinary names) :=
  inferInstanceAs (Decidable (∀ n ∈ names, n ≠ "." ∧ n ≠ ".."))

/-- A name in the topmost directory is looked for there. -/
theorem stat_top (h : d.top.linkCount = 0) {entries : List (String × Entry)}
    (htop : d.top = .directory entries) {n : String} (hname : Ordinary [n])
    (hshort : n.utf8ByteSize ≤ maxNameBytes) :
    d.stat ⟨.root, [n]⟩ = match d.top.entry? n with
      | some e => .ok e
      | none => .error .missing := by
  obtain ⟨hdot, hdots⟩ := hname n List.mem_cons_self
  have hpath : ¬ maxPathBytes < (⟨.root, [n]⟩ : Path).text.utf8ByteSize := by
    have htext : (⟨.root, [n]⟩ : Path).text = "/" ++ n := rfl
    have hslash : "/".utf8ByteSize = 1 := rfl
    rw [htext, String.utf8ByteSize_append, hslash]
    unfold maxPathBytes
    unfold maxNameBytes at hshort
    omega
  have hroot : d.top.at? [] = some (.directory entries) := congrArg some htop
  have hat : d.top.at? [n] = d.top.entry? n := Option.bind_fun_some _
  rw [stat, locate, if_neg hpath]
  show Except.bind (d.walkNames true maxLinks [] [n]) _ = _
  rw [walkNames, hroot]
  simp only [List.nil_append, hat]
  rw [if_neg (by simpa using hdot), if_neg (by simpa using hdots), if_neg (by omega)]
  cases hentry : d.top.entry? n with
  | none => rfl
  | some e =>
      cases e with
      | link target => exact absurd (hat.trans hentry) (Entry.at?_ne_link h _ target)
      | file bytes =>
          simp only [walkNames, Except.bind, hat, hentry]
      | directory inner =>
          simp only [walkNames, Except.bind, hat, hentry]

theorem expand_ordinary (h : d.top.linkCount = 0) (fuel : Nat) (active : List Passage)
    (here : Passage) {names : List String} (hnames : Ordinary names) :
    (d.expand fuel active here names).1.names = here.names ++ names := by
  induction names generalizing here with
  | nil => simp only [expand, List.append_nil]
  | cons n names ih =>
      obtain ⟨hdot, hdots⟩ := hnames n List.mem_cons_self
      have hrest := fun here => ih here fun m hm => hnames m (List.mem_cons_of_mem n hm)
      rw [expand, if_neg (by simpa using hdot), if_neg (by simpa using hdots)]
      simp only
      split
      · rename_i hlink
        exact absurd hlink (linkStat_ne_link h _ _)
      · rw [hrest, List.append_assoc, List.singleton_append]

/-- What one name does to the names before it when a path is made absolute. -/
def textStep (done : List String) (n : String) : List String :=
  if n == ".." then done.dropLast else if n == "." then done else done ++ [n]

theorem foldl_textStep_ordinary {names : List String} (hnames : Ordinary names)
    (done : List String) : names.foldl textStep done = done ++ names := by
  induction names generalizing done with
  | nil => rw [List.foldl_nil, List.append_nil]
  | cons n names ih =>
      obtain ⟨hdot, hdots⟩ := hnames n List.mem_cons_self
      rw [List.foldl_cons, textStep, if_neg (by simpa using hdots), if_neg (by simpa using hdot),
        ih (fun m hm => hnames m (List.mem_cons_of_mem n hm)), List.append_assoc,
        List.singleton_append]

/-- A property of names that the path and the working directory have is kept. -/
theorem forall_mem_foldl_textStep {kind : String → Prop} {names done : List String}
    (hnames : ∀ n ∈ names, n ≠ "." → n ≠ ".." → kind n) (hdone : ∀ n ∈ done, kind n) :
    ∀ n ∈ names.foldl textStep done, kind n := by
  induction names generalizing done with
  | nil => exact hdone
  | cons m names ih =>
      refine ih (fun n hn => hnames n (List.mem_cons_of_mem m hn)) ?_
      unfold textStep
      split
      · exact fun n hn => hdone n (List.dropLast_subset _ hn)
      · rename_i hdots
        split
        · exact hdone
        · rename_i hdot
          have hm := hnames m List.mem_cons_self (by simpa using hdot) (by simpa using hdots)
          exact List.forall_mem_append.mpr ⟨hdone, List.forall_mem_singleton.mpr hm⟩

theorem absolute_ordinary {names : List String} (hnames : Ordinary names) :
    d.absolute ⟨.root, names⟩ = ⟨.root, names⟩ :=
  congrArg (Path.mk .root) (foldl_textStep_ordinary hnames [])

theorem forall_mem_start {kind : String → Prop} (hworking : ∀ n ∈ d.working, kind n) (p : Path) :
    ∀ n ∈ d.start p, kind n := by
  unfold start
  split
  · exact fun n hn => absurd hn List.not_mem_nil
  · exact hworking

/-- Without links a path that never leads back is resolved where it starts. -/
theorem resolve_of_ordinary (h : d.top.linkCount = 0) {p : Path}
    (hworking : Ordinary d.working) (hnames : Ordinary p.names)
    (hnull : (p.names.any fun n => n.toList.contains (Char.ofNat 0)) = false) :
    d.resolve p = .ok ⟨.root, d.start p ++ p.names⟩ := by
  have hexpanded : d.expanded p = d.start p ++ p.names := expand_ordinary h _ _ _ hnames
  have hall : Ordinary (d.start p ++ p.names) :=
    List.forall_mem_append.mpr ⟨forall_mem_start hworking p, hnames⟩
  rw [resolve_of_no_null h hnull, hexpanded, absolute_ordinary hall]

/-- Without links and at the root, a path that never leads back is resolved. -/
theorem resolve_at_root (h : d.top.linkCount = 0) (hworking : d.working = []) {p : Path}
    (hnames : Ordinary p.names)
    (hnull : (p.names.any fun n => n.toList.contains (Char.ofNat 0)) = false) :
    d.resolve p = .ok ⟨.root, p.names⟩ := by
  have hstart : d.start p = [] := by
    rw [start, hworking, ite_self]
  have hplace : Ordinary d.working := by
    rw [hworking]
    exact fun n hn => absurd hn List.not_mem_nil
  rw [resolve_of_ordinary h hplace hnames hnull, hstart, List.nil_append]

/-- Without links a path from the root that never leads back is resolved. -/
theorem resolve_ordinary (h : d.top.linkCount = 0) {names : List String}
    (hnames : Ordinary names)
    (hnull : (names.any fun n => n.toList.contains (Char.ofNat 0)) = false) :
    d.resolve ⟨.root, names⟩ = .ok ⟨.root, names⟩ := by
  have hexpanded : d.expanded ⟨.root, names⟩ = names := expand_ordinary h _ _ _ hnames
  rw [resolve_of_no_null h hnull, hexpanded, absolute_ordinary hnames]

end Disk

end ThrowCatch
