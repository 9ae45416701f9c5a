import Mathlib.Data.List.Basic
import ThrowCatch.Discovery
import ThrowCatch.Proofs.ExclusionRules

/-!
The walk through a tree without links. It gives files of the tree that are
visible, have one of the extensions and are not excluded, each once; and with
regular exclusion patterns it gives all of them, since a directory that is left
out on the way holds no such file.
-/

namespace ThrowCatch

namespace Entry

/-- A tree of files and directories without links. The names in one directory
differ. -/
inductive Plain : Entry → Prop
  | file (bytes : ByteArray) : Plain (.file bytes)
  | directory (entries : List (String × Entry)) (hnames : (entries.map (·.1)).Nodup)
      (hbelow : ∀ name e, (name, e) ∈ entries → Plain e) : Plain (.directory entries)

theorem entry?_eq_some {entries : List (String × Entry)} (hnames : (entries.map (·.1)).Nodup)
    {name : String} {e : Entry} :
    Entry.entry? name (.directory entries) = some e ↔ (name, e) ∈ entries := by
  unfold Entry.entry?
  induction entries with
  | nil => simp
  | cons first rest ih =>
      obtain ⟨n, c⟩ := first
      obtain ⟨hn, hrest⟩ := List.nodup_cons.mp hnames
      by_cases hsame : n = name
      · subst hsame
        have hnot : ∀ other, (n, other) ∉ rest := by
          intro other hother
          exact hn (List.mem_map.mpr ⟨(n, other), hother, rfl⟩)
        simp [hnot, eq_comm]
      · have hother : name ≠ n := fun h => hsame h.symm
        simp [hsame, hother, ih hrest]

theorem at?_cons_eq_some {entries : List (String × Entry)}
    (hnames : (entries.map (·.1)).Nodup) {name : String} {names : List String} {target : Entry} :
    (Entry.directory entries).at? (name :: names) = some target ↔
      ∃ e, (name, e) ∈ entries ∧ e.at? names = some target := by
  simp only [at?, Option.bind_eq_some_iff, entry?_eq_some hnames]

theorem at?_file_eq_some {bytes content : ByteArray} {names : List String} :
    (Entry.file bytes).at? names = some (.file content) ↔ names = [] ∧ bytes = content := by
  cases names with
  | nil => simp [at?]
  | cons name names => simp [at?, entry?]

end Entry

/-! ### Searching one directory -/

namespace Discovery

/-- A filter whose test always has an answer. -/
theorem filterM_eq_filter {α : Type} {test : α → Except Fault Bool} (keep : α → Bool)
    {items : List α} (h : ∀ x ∈ items, test x = .ok (keep x)) :
    items.filterM test = .ok (items.filter keep) := by
  -- the filter collects backwards, so the claim is made for any items collected before
  have hcollect : ∀ done, List.filterAuxM test items done =
      .ok ((items.filter keep).reverse ++ done) := by
    induction items with
    | nil => intro done; rfl
    | cons x items ih =>
        intro done
        have hitems := ih fun y hy => h y (List.mem_cons_of_mem _ hy)
        rw [List.filterAuxM, h x List.mem_cons_self]
        refine (hitems _).trans ?_
        cases hx : keep x <;> simp [hx]
  rw [List.filterM, hcollect]
  simp [Bind.bind, Except.bind, pure, Except.pure]

/-- A search gives files of a kind, each once, and all of them under the
condition. -/
def Lists (complete : Prop) (result : Except Fault (List Path)) (kind : Path → Prop) : Prop :=
  ∃ files, result = .ok files ∧ files.Nodup ∧ (∀ path ∈ files, kind path) ∧
    (complete → ∀ path, kind path → path ∈ files)

section Lists

variable {complete : Prop} {result : Except Fault (List Path)} {kind other : Path → Prop}

theorem Lists.congr (h : Lists complete result kind) (hiff : ∀ path, kind path ↔ other path) :
    Lists complete result other := by
  obtain ⟨files, hfiles, hnodup, hkind, hall⟩ := h
  exact ⟨files, hfiles, hnodup, fun path hpath => (hiff path).mp (hkind path hpath),
    fun hcomplete path hpath => hall hcomplete path ((hiff path).mpr hpath)⟩

theorem lists_nil (h : complete → ∀ path, ¬ kind path) : Lists complete (pure []) kind :=
  ⟨[], rfl, List.nodup_nil, by simp, fun hcomplete path hpath =>
    absurd hpath (h hcomplete path)⟩

theorem lists_append {first second : Except Fault (List Path)}
    (hfirst : Lists complete first kind) (hsecond : Lists complete second other)
    (hapart : ∀ path, kind path → ¬ other path) :
    Lists complete (do let a ← first; let b ← second; pure (a ++ b)) fun path =>
      kind path ∨ other path := by
  obtain ⟨a, rfl, ha, hkind, hallKind⟩ := hfirst
  obtain ⟨b, rfl, hb, hother, hallOther⟩ := hsecond
  refine ⟨a ++ b, rfl, ?_, fun path hpath => ?_, fun hcomplete path hpath => ?_⟩
  · refine List.nodup_append.mpr ⟨ha, hb, fun path hpath q hq heq => ?_⟩
    exact hapart path (hkind path hpath) (hother path (heq ▸ hq))
  · exact (List.mem_append.mp hpath).imp (hkind path) (hother path)
  · exact List.mem_append.mpr (hpath.imp (hallKind hcomplete path) (hallOther hcomplete path))

end Lists

def Visible (rules : Rules) (name : String) : Prop :=
  rules.hidden = true ∨ isHidden name = false

/-- A file of a tree that the rules ask for. `above` are the names of the
directories from the root to the tree. -/
def Wanted (rules : Rules) (above : List String) (e : Entry) (path : Path) : Prop :=
  ∃ names bytes, path = ⟨.relative, above ++ names⟩ ∧ e.at? names = some (.file bytes) ∧
    (∀ name ∈ names, Visible rules name) ∧ Text.lower path.suffix ∈ rules.extensions ∧
    Exclusion.excluded path rules.exclude = .ok false

/-- The wanted files that are reached through an entry of a directory, among
the entries that are directories or among the others. -/
def Through (rules : Rules) (above : List String) (entries : List (String × Entry))
    (directories : Bool) (path : Path) : Prop :=
  ∃ name e, (name, e) ∈ entries ∧ e.isDirectory = directories ∧ Visible rules name ∧
    Wanted rules (above ++ [name]) e path

theorem through_cons {rules : Rules} {above : List String} {name : String} {e : Entry}
    {rest : List (String × Entry)} {directories : Bool} {path : Path} :
    Through rules above ((name, e) :: rest) directories path ↔
      (e.isDirectory = directories ∧ Visible rules name ∧ Wanted rules (above ++ [name]) e path) ∨
        Through rules above rest directories path := by
  constructor
  · rintro ⟨n, c, hmem, h⟩
    cases hmem with
    | head => exact .inl h
    | tail _ hmem => exact .inr ⟨n, c, hmem, h⟩
  · rintro (h | ⟨n, c, hmem, h⟩)
    · exact ⟨name, e, List.mem_cons_self, h⟩
    · exact ⟨n, c, List.mem_cons_of_mem _ hmem, h⟩

theorem wanted_directory {rules : Rules} {above : List String}
    {entries : List (String × Entry)} (hnames : (entries.map (·.1)).Nodup) {path : Path} :
    Wanted rules above (.directory entries) path ↔
      Through rules above entries false path ∨ Through rules above entries true path := by
  constructor
  · rintro ⟨names, bytes, hpath, hat, hvisible, hrest⟩
    cases names with
    | nil => simp [Entry.at?] at hat
    | cons name names =>
        obtain ⟨e, hmem, he⟩ := (Entry.at?_cons_eq_some hnames).mp hat
        obtain ⟨hname, hvisible⟩ := List.forall_mem_cons.mp hvisible
        have hwanted : Wanted rules (above ++ [name]) e path :=
          ⟨names, bytes, by simp [hpath], he, hvisible, hrest⟩
        cases hdirectory : e.isDirectory with
        | false => exact .inl ⟨name, e, hmem, hdirectory, hname, hwanted⟩
        | true => exact .inr ⟨name, e, hmem, hdirectory, hname, hwanted⟩
  · rintro (h | h) <;>
    · obtain ⟨name, e, hmem, -, hname, names, bytes, hpath, hat, hvisible, hrest⟩ := h
      exact ⟨name :: names, bytes, by simp [hpath],
        (Entry.at?_cons_eq_some hnames).mpr ⟨e, hmem, hat⟩,
        List.forall_mem_cons.mpr ⟨hname, hvisible⟩, hrest⟩

theorem wanted_file {rules : Rules} {above : List String} {name : String} {bytes : ByteArray}
    {path : Path} :
    Wanted rules (above ++ [name]) (.file bytes) path ↔
      path = ⟨.relative, above ++ [name]⟩ ∧
        Text.lower (Path.suffixOf name) ∈ rules.extensions ∧
        Exclusion.excluded path rules.exclude = .ok false := by
  constructor
  · rintro ⟨names, content, hpath, hat, -, hsuffix, hexcluded⟩
    obtain ⟨rfl, rfl⟩ := Entry.at?_file_eq_some.mp hat
    rw [List.append_nil] at hpath
    exact ⟨hpath, by simpa [hpath, Path.suffix, Path.name] using hsuffix, hexcluded⟩
  · rintro ⟨hpath, hsuffix, hexcluded⟩
    refine ⟨[], bytes, by simpa using hpath, rfl, by simp, ?_, hexcluded⟩
    simpa [hpath, Path.suffix, Path.name] using hsuffix

theorem not_hidden_iff {rules : Rules} {name : String} :
    (isHidden name && !rules.hidden) = false ↔ Visible rules name := by
  rw [Visible]
  cases isHidden name <;> cases rules.hidden <;> decide

theorem map_not_eq_ok_true {result : Except Fault Bool} :
    result.map (!·) = .ok true ↔ result = .ok false := by
  cases result <;> simp [Except.map]

theorem enters_eq_true {rules : Rules} {above : List String} {name : String} :
    enters rules ⟨.relative, above⟩ name = .ok true ↔
      Visible rules name ∧
        Exclusion.excluded ⟨.relative, above ++ [name] ++ ["_"]⟩ rules.exclude = .ok false := by
  rw [← not_hidden_iff, enters]
  split
  case isTrue h => simp [h]
  case isFalse h =>
    rw [map_not_eq_ok_true]
    simp [h, Path.push]

theorem takes_eq_true {rules : Rules} {above : List String} {name : String} :
    takes rules ⟨.relative, above⟩ name false = .ok true ↔
      Visible rules name ∧ Text.lower (Path.suffixOf name) ∈ rules.extensions ∧
        Exclusion.excluded ⟨.relative, above ++ [name]⟩ rules.exclude = .ok false := by
  rw [← not_hidden_iff, takes]
  split
  case isTrue h => simp [h]
  case isFalse h =>
    split
    case isTrue hsuffix => simp_all
    case isFalse hsuffix =>
      simp only [Bool.false_and, Bool.false_eq_true, if_false]
      rw [map_not_eq_ok_true]
      simp_all [Path.push]

theorem enters_total {rules : Rules} (hparted : Exclusion.AllParted rules.exclude)
    (above : List String) (name : String) :
    ∃ answer, enters rules ⟨.relative, above⟩ name = .ok answer := by
  rw [enters]
  split
  · exact ⟨false, rfl⟩
  · obtain ⟨answer, hanswer⟩ :=
      Exclusion.excluded_total hparted ((Path.push ⟨.relative, above⟩ name).push "_")
    rw [hanswer]
    exact ⟨_, rfl⟩

theorem takes_total {rules : Rules} (hparted : Exclusion.AllParted rules.exclude)
    (above : List String) (name : String) (link : Bool) :
    ∃ answer, takes rules ⟨.relative, above⟩ name link = .ok answer := by
  rw [takes]
  split
  · exact ⟨false, rfl⟩
  split
  · exact ⟨false, rfl⟩
  split
  · exact ⟨false, rfl⟩
  · obtain ⟨answer, hanswer⟩ :=
      Exclusion.excluded_total hparted (Path.push ⟨.relative, above⟩ name)
    rw [hanswer]
    exact ⟨_, rfl⟩

theorem directory?_isSome {d : Disk} {links : Nat} {here : List String} {name : String}
    {e : Entry} (h : e.Plain) :
    (directory? d links here name e).isSome = e.isDirectory := by
  cases h <;> rfl

/-- Whether an entry of a plain tree is a directory that is entered. -/
def isEntered (rules : Rules) (above : List String) (x : String × Entry) : Bool :=
  x.2.isDirectory && Exclusion.passed (enters rules ⟨.relative, above⟩ x.1)

/-- Whether an entry of a plain tree is a file that is taken. -/
def isTaken (rules : Rules) (above : List String) (x : String × Entry) : Bool :=
  !x.2.isDirectory && Exclusion.passed (takes rules ⟨.relative, above⟩ x.1 false)

section Plain

variable {d : Disk} {rules : Rules} {p : Position} {above : List String}
  {entries : List (String × Entry)}

theorem entered_of_plain (hparted : Exclusion.AllParted rules.exclude)
    (hp : p.inside = ⟨.relative, above⟩)
    (hplain : ∀ name e, (name, e) ∈ entries → e.Plain) :
    entered d rules p entries = .ok ((entries.filter (isEntered rules above)).map (·.1)) := by
  rw [entered, filterM_eq_filter (isEntered rules above)]
  · rfl
  · rintro ⟨name, e⟩ hmem
    simp only [directory?_isSome (hplain name e hmem), hp, isEntered]
    cases e.isDirectory with
    | false => rfl
    | true => simpa using Exclusion.eq_ok_passed (enters_total hparted above name)

theorem taken_of_plain (hparted : Exclusion.AllParted rules.exclude)
    (hp : p.inside = ⟨.relative, above⟩)
    (hplain : ∀ name e, (name, e) ∈ entries → e.Plain) :
    taken d rules p entries =
      .ok ((entries.filter (isTaken rules above)).map fun x => ⟨.relative, above ++ [x.1]⟩) := by
  rw [taken, hp, filterM_eq_filter (isTaken rules above)]
  · rfl
  · rintro ⟨name, e⟩ hmem
    have he := hplain name e hmem
    simp only [directory?_isSome he, isTaken]
    cases he with
    | file bytes => simpa [Entry.isDirectory, Entry.isLink] using
        Exclusion.eq_ok_passed (takes_total hparted above name false)
    | directory es => rfl

theorem isTaken_file {name : String} {bytes : ByteArray} :
    isTaken rules above (name, .file bytes) = true ↔
      Visible rules name ∧ Wanted rules (above ++ [name]) (.file bytes)
        ⟨.relative, above ++ [name]⟩ := by
  simp [isTaken, Entry.isDirectory, Exclusion.passed_eq_true, takes_eq_true, wanted_file]

/-- The files of the directory itself. -/
theorem taken_lists {complete : Prop} (hparted : Exclusion.AllParted rules.exclude)
    (hp : p.inside = ⟨.relative, above⟩) (hnames : (entries.map (·.1)).Nodup)
    (hplain : ∀ name e, (name, e) ∈ entries → e.Plain) :
    Lists complete (taken d rules p entries) (Through rules above entries false) := by
  refine ⟨_, taken_of_plain hparted hp hplain, ?_, ?_, ?_⟩
  · have hkept : ((entries.filter (isTaken rules above)).map (·.1)).Nodup :=
      (List.filter_sublist.map _).nodup hnames
    rw [List.Nodup, List.pairwise_map] at hkept ⊢
    exact hkept.imp fun hne heq => hne (by simpa using heq)
  · intro path hpath
    obtain ⟨⟨name, e⟩, hmem, rfl⟩ := List.mem_map.mp hpath
    obtain ⟨hmem, htaken⟩ := List.mem_filter.mp hmem
    cases hplain name e hmem with
    | file bytes =>
        obtain ⟨hvisible, hwanted⟩ := isTaken_file.mp htaken
        exact ⟨name, .file bytes, hmem, rfl, hvisible, hwanted⟩
    | directory es => simp [isTaken, Entry.isDirectory] at htaken
  · rintro - path ⟨name, e, hmem, hfile, hvisible, hwanted⟩
    cases hplain name e hmem with
    | file bytes =>
        obtain ⟨rfl, -⟩ := wanted_file.mp hwanted
        have htaken := isTaken_file.mpr ⟨hvisible, hwanted⟩
        exact List.mem_map.mpr
          ⟨(name, .file bytes), List.mem_filter.mpr ⟨hmem, htaken⟩, rfl⟩
    | directory es => cases hfile

theorem walkEach_file {jump : Position → Entry → Except Fault (List Path)} {dirs : List String}
    {name : String} {bytes : ByteArray} {rest : List (String × Entry)} :
    walkEach d rules jump p dirs ((name, .file bytes) :: rest) =
      walkEach d rules jump p dirs rest := by
  rw [walkEach]
  cases dirs.contains name <;> cases walkEach d rules jump p dirs rest <;> rfl

theorem walkEach_directory {jump : Position → Entry → Except Fault (List Path)}
    {dirs : List String} {name : String} {es rest : List (String × Entry)} :
    walkEach d rules jump p dirs ((name, .directory es) :: rest) =
      (if dirs.contains name then
        walk d rules jump ⟨p.here ++ [name], p.links, p.inside.push name⟩ (.directory es)
      else pure []) >>= fun found =>
        walkEach d rules jump p dirs rest >>= fun others => pure (found ++ others) := by
  rw [walkEach]
  cases dirs.contains name <;> rfl

theorem isEntered_directory {name : String} {es : List (String × Entry)} :
    isEntered rules above (name, .directory es) = true ↔
      Visible rules name ∧
        Exclusion.excluded ⟨.relative, above ++ [name] ++ ["_"]⟩ rules.exclude = .ok false := by
  simp only [isEntered, Entry.isDirectory, Bool.true_and, Exclusion.passed_eq_true,
    enters_eq_true]

/-- Nothing is wanted below a directory that is not entered. -/
theorem isEntered_of_wanted (hregular : Exclusion.AllRegular rules.exclude) {name : String}
    {es : List (String × Entry)} {path : Path} (hvisible : Visible rules name)
    (hwanted : Wanted rules (above ++ [name]) (.directory es) path) :
    isEntered rules above (name, .directory es) = true := by
  obtain ⟨names, bytes, rfl, hat, -, -, hexcluded⟩ := hwanted
  have hnames : names ≠ [] := by
    rintro rfl
    simp [Entry.at?] at hat
  -- were the file `_` excluded, the wanted file would be as well
  have hunderscore :
      Exclusion.excluded ⟨.relative, above ++ [name] ++ ["_"]⟩ rules.exclude = .ok false := by
    have htotal := Exclusion.excluded_regular hregular (above ++ [name] ++ ["_"])
    cases hany : rules.exclude.any (Exclusion.excludes ⟨.relative, above ++ [name] ++ ["_"]⟩) with
    | false => rw [htotal, hany]
    | true =>
        rw [hany] at htotal
        rw [Exclusion.excluded_below hregular hnames htotal] at hexcluded
        cases hexcluded
  exact isEntered_directory.mpr ⟨hvisible, hunderscore⟩

/-- A directory gives wanted files when it is visible, and with regular
patterns all of them, whether or not it is entered. -/
theorem enter_lists {name : String} {es : List (String × Entry)}
    {found : Except Fault (List Path)}
    (hfound : Lists (Exclusion.AllRegular rules.exclude) found
      (Wanted rules (above ++ [name]) (.directory es))) :
    Lists (Exclusion.AllRegular rules.exclude)
      (if isEntered rules above (name, .directory es) then found else pure []) fun path =>
        Visible rules name ∧ Wanted rules (above ++ [name]) (.directory es) path := by
  split
  case isTrue hentered =>
    have hvisible := (isEntered_directory.mp hentered).1
    refine hfound.congr fun path => ?_
    simp [hvisible]
  case isFalse hentered =>
    refine lists_nil ?_
    rintro hregular path ⟨hvisible, hwanted⟩
    exact hentered (isEntered_of_wanted hregular hvisible hwanted)

/-- A wanted file is reached through one name only. -/
theorem name_unique {name other : String} {e c : Entry} {path : Path}
    (h : Wanted rules (above ++ [name]) e path) (hother : Wanted rules (above ++ [other]) c path) :
    name = other := by
  obtain ⟨names, -, hpath, -⟩ := h
  obtain ⟨others, -, hsame, -⟩ := hother
  have hboth : name = other ∧ names = others := by simpa using hpath.symm.trans hsame
  exact hboth.1

theorem entry_unique (hnames : (entries.map (·.1)).Nodup) {name : String} {e c : Entry}
    (he : (name, e) ∈ entries) (hc : (name, c) ∈ entries) : e = c := by
  rw [← Entry.entry?_eq_some hnames] at he hc
  exact Option.some.inj (he.symm.trans hc)

/-- The search below the directories that are entered, one after the other. -/
theorem walkEach_lists {jump : Position → Entry → Except Fault (List Path)}
    {dirs : List String} (hnames : (entries.map (·.1)).Nodup)
    (hplain : ∀ name e, (name, e) ∈ entries → e.Plain)
    (hdirs : ∀ name e, (name, e) ∈ entries →
      dirs.contains name = isEntered rules above (name, e))
    (hwalk : ∀ name es, (name, .directory es) ∈ entries → ∀ links here,
      Lists (Exclusion.AllRegular rules.exclude)
        (walk d rules jump ⟨here, links, p.inside.push name⟩ (.directory es))
        (Wanted rules (above ++ [name]) (.directory es))) :
    Lists (Exclusion.AllRegular rules.exclude) (walkEach d rules jump p dirs entries)
      (Through rules above entries true) := by
  induction entries with
  | nil =>
      rw [walkEach]
      exact lists_nil (by rintro - path ⟨name, e, hmem, -⟩; cases hmem)
  | cons first rest ih =>
      obtain ⟨name, e⟩ := first
      obtain ⟨hname, hrest⟩ := List.nodup_cons.mp hnames
      have hothers := ih hrest (fun n c hc => hplain n c (List.mem_cons_of_mem _ hc))
        (fun n c hc => hdirs n c (List.mem_cons_of_mem _ hc))
        (fun n es hes => hwalk n es (List.mem_cons_of_mem _ hes))
      cases hplain name e List.mem_cons_self with
      | file bytes =>
          rw [walkEach_file]
          refine hothers.congr fun path => ?_
          simp [through_cons, Entry.isDirectory]
      | directory es =>
          rw [walkEach_directory, hdirs name (.directory es) List.mem_cons_self]
          have hfound := enter_lists (hwalk name es List.mem_cons_self p.links (p.here ++ [name]))
          -- what lies below this name lies below no other name of the directory
          refine (lists_append hfound hothers ?_).congr fun path => ?_
          · rintro path ⟨-, hwanted⟩ ⟨n, c, hmem, -, -, hother⟩
            have hsame := name_unique hwanted hother
            exact hname (List.mem_map.mpr ⟨(n, c), hmem, hsame.symm⟩)
          · simp [through_cons, Entry.isDirectory]

/-- The search finds wanted files of a directory, and with regular patterns all
of them. -/
theorem walk_lists {jump : Position → Entry → Except Fault (List Path)}
    (hparted : Exclusion.AllParted rules.exclude) {e : Entry} (hplain : e.Plain)
    (hdirectory : e.isDirectory = true) (hp : p.inside = ⟨.relative, above⟩) :
    Lists (Exclusion.AllRegular rules.exclude) (walk d rules jump p e)
      (Wanted rules above e) := by
  induction hplain generalizing p above with
  | file bytes => cases hdirectory
  | directory entries hnames hbelow ih =>
      -- the induction is on the tree, for every position: `above` grows on the way down
      rw [walk, entered_of_plain hparted hp hbelow]
      have hfiles : Lists (Exclusion.AllRegular rules.exclude) (taken d rules p entries)
          (Through rules above entries false) := taken_lists hparted hp hnames hbelow
      have hdeeper : Lists (Exclusion.AllRegular rules.exclude) (walkEach d rules jump p
          ((entries.filter (isEntered rules above)).map (·.1)) entries)
          (Through rules above entries true) := by
        refine walkEach_lists hnames hbelow ?_ ?_
        · intro name e he
          rw [Bool.eq_iff_iff, List.contains_iff_mem, List.mem_map]
          constructor
          · rintro ⟨⟨n, c⟩, hc, rfl⟩
            obtain ⟨hc, hentered⟩ := List.mem_filter.mp hc
            rwa [entry_unique hnames he hc]
          · intro hentered
            exact ⟨(name, e), List.mem_filter.mpr ⟨he, hentered⟩, rfl⟩
        · intro name es hmem links here
          exact ih name (.directory es) hmem rfl (by rw [hp, Path.push])
      refine (lists_append hfiles hdeeper ?_).congr fun path => (wanted_directory hnames).symm
      rintro path ⟨name, e, he, hfile, -, hwanted⟩ ⟨n, c, hc, hdir, -, hother⟩
      obtain rfl := name_unique hwanted hother
      rw [entry_unique hnames he hc, hdir] at hfile
      cases hfile

theorem walkLinks_lists (hparted : Exclusion.AllParted rules.exclude) {e : Entry}
    (hplain : e.Plain) (hdirectory : e.isDirectory = true) (hp : p.inside = ⟨.relative, above⟩)
    {n : Nat} : Lists (Exclusion.AllRegular rules.exclude) (walkLinks d rules (n + 1) p e)
      (Wanted rules above e) :=
  walk_lists hparted hplain hdirectory hp

end Plain

end Discovery

end ThrowCatch
