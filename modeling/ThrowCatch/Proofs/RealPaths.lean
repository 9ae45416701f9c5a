import ThrowCatch.Proofs.LinkFree
import ThrowCatch.Proofs.PathTexts

/-!
Real paths. The place of an entry is the list of the names that lead to it from
the root without a link, and looking such a path up leads there. Resolving
takes only names of the path, of the working directory and of the links on the
way, and it goes on with the names below: from a directory without links below
it, the resolved path of a file is that of the directory with the file's names
behind.
-/

namespace ThrowCatch

namespace Entry

theorem at?_append (e : Entry) (names rest : List String) :
    e.at? (names ++ rest) = (e.at? names).bind (·.at? rest) := by
  induction names generalizing e with
  | nil => rfl
  | cons n names ih =>
      rw [List.cons_append, at?, at?]
      cases e.entry? n with
      | none => rfl
      | some c => exact ih c

/-- On the way to an entry there are only directories. -/
theorem directory_of_at?_cons {e c : Entry} {n : String} {names : List String}
    (h : e.at? (n :: names) = some c) : ∃ entries, e = .directory entries := by
  cases e with
  | directory entries => exact ⟨entries, rfl⟩
  | file bytes => cases h
  | link target => cases h

end Entry

namespace Disk

variable {d : Disk}

/-! ### Looking real paths up -/

/-- Names that the system does not take as a path from the root. -/
def TooLong (names : List String) : Prop :=
  maxPathBytes < (⟨.root, names⟩ : Path).text.utf8ByteSize ∨
    ∃ n ∈ names, maxNameBytes < n.utf8ByteSize

instance (names : List String) : Decidable (TooLong names) :=
  inferInstanceAs (Decidable (_ ∨ ∃ n ∈ names, maxNameBytes < n.utf8ByteSize))

/-- From a directory, the names to an entry below it lead there, unless one of
them is too long. -/
theorem walkNames_real {e : Entry} (follow : Bool) (links : Nat) (here : List String)
    {names : List String} (hat : d.top.at? (here ++ names) = some e) (hlink : e.isLink = false)
    (hnames : Ordinary names) :
    d.walkNames follow links here names = .ok ⟨here ++ names, links⟩ ∨
      d.walkNames follow links here names = .error .nameTooLong ∧
        ∃ n ∈ names, maxNameBytes < n.utf8ByteSize := by
  induction names generalizing here with
  | nil =>
      rw [walkNames, List.append_nil]
      exact .inl rfl
  | cons n names ih =>
      obtain ⟨hdot, hdots⟩ := hnames n List.mem_cons_self
      have hsplit : here ++ n :: names = here ++ [n] ++ names := by simp
      have hrest := (ih (here ++ [n]) (hsplit ▸ hat)
        fun m hm => hnames m (List.mem_cons_of_mem n hm)).imp_right
        (And.imp_right (List.exists_mem_cons_of_exists (a := n)))
      rw [← hsplit] at hrest
      have hdirectory : ∃ entries, d.top.at? here = some (.directory entries) := by
        rw [Entry.at?_append, Option.bind_eq_some_iff] at hat
        obtain ⟨inner, hinner, hat⟩ := hat
        obtain ⟨entries, rfl⟩ := Entry.directory_of_at?_cons hat
        exact ⟨entries, hinner⟩
      obtain ⟨entries, hentries⟩ := hdirectory
      rw [hsplit, Entry.at?_append, Option.bind_eq_some_iff] at hat
      obtain ⟨inner, hinner, hat⟩ := hat
      rw [walkNames, hentries]
      simp only [beq_iff_eq, hdot, hdots, if_false, hinner]
      split
      case isTrue hlong => exact .inr ⟨rfl, n, List.mem_cons_self, hlong⟩
      case isFalse =>
        cases inner with
        | link target =>
            -- a link has nothing below it, so it would be the entry itself
            cases names with
            | nil =>
                cases hat
                cases hlink
            | cons m names => cases hat
        | file bytes => exact hrest
        | directory inner => exact hrest

theorem locate_real {e : Entry} {names : List String} (follow : Bool)
    (hat : d.top.at? names = some e) (hlink : e.isLink = false) (hnames : Ordinary names) :
    d.locate follow ⟨.root, names⟩ = .ok ⟨names, maxLinks⟩ ∨
      d.locate follow ⟨.root, names⟩ = .error .nameTooLong ∧ TooLong names := by
  unfold locate
  split
  case isTrue hlong => exact .inr ⟨rfl, .inl hlong⟩
  case isFalse =>
    exact (walkNames_real follow maxLinks [] hat hlink hnames).imp_right (And.imp_right .inr)

theorem stat_real {e : Entry} {names : List String} (hat : d.top.at? names = some e)
    (hlink : e.isLink = false) (hnames : Ordinary names) :
    d.stat ⟨.root, names⟩ = .ok e ∨
      d.stat ⟨.root, names⟩ = .error .nameTooLong ∧ TooLong names := by
  unfold stat
  obtain hplace | ⟨hlong, hnames⟩ := locate_real true hat hlink hnames
  · rw [hplace]
    simp only [Except.bind, hat]
    exact .inl trivial
  · rw [hlong]
    exact .inr ⟨rfl, hnames⟩

theorem stat_short {e : Entry} {names : List String} (hat : d.top.at? names = some e)
    (hlink : e.isLink = false) (hnames : Ordinary names) (hshort : ¬ TooLong names) :
    d.stat ⟨.root, names⟩ = .ok e :=
  (stat_real hat hlink hnames).resolve_right fun hlong => hshort hlong.2

theorem linkStat_real {e : Entry} {names : List String} (hat : d.top.at? names = some e)
    (hlink : e.isLink = false) (hnames : Ordinary names) (target : String) :
    d.linkStat ⟨.root, names⟩ ≠ .ok (.link target) := by
  unfold linkStat
  obtain hplace | ⟨hlong, -⟩ := locate_real false hat hlink hnames
  · rw [hplace]
    simp only [Except.bind, hat]
    rintro ⟨⟩
    cases hlink
  · rw [hlong]
    rintro ⟨⟩

/-! ### Names of resolved paths -/

/-- What a resolved path says about the names of the path. -/
theorem resolve_eq_ok {p k : Path} (h : d.resolve p = .ok k) :
    (p.names.any fun n => n.toList.contains (Char.ofNat 0)) = false ∧
      k = d.absolute ⟨.root, d.expanded p⟩ := by
  unfold resolve at h
  split at h
  · cases h
  · rename_i hnull
    simp only at h
    split at h
    · cases h
    · cases h
      exact ⟨by simpa using hnull, rfl⟩

theorem forall_mem_origin {kind : String → Prop} (target : Path) {here : Passage}
    (hhere : ∀ n ∈ here.names, kind n) :
    ∀ n ∈ (if target.isAbsolute then (⟨true, []⟩ : Passage) else here).names, kind n := by
  split
  · exact fun n hn => absurd hn List.not_mem_nil
  · exact hhere

/-- Going through proper names from a proper place leads to a proper place. -/
theorem proper_expand (fuel : Nat) (active : List Passage) (here : Passage) (names : List String)
    (hhere : ∀ n ∈ here.names, Path.Proper n) (hnames : ∀ n ∈ names, Path.Proper n) :
    ∀ n ∈ (d.expand fuel active here names).1.names, Path.Proper n := by
  fun_induction expand d fuel active here names with
  | case1 => exact hhere
  | case2 fuel active here n rest hn ih =>
      exact ih hhere fun m hm => hnames m (List.mem_cons_of_mem n hm)
  | case3 fuel active here n rest hdot hn ih =>
      exact ih (fun m hm => hhere m (List.dropLast_subset _ hm))
        fun m hm => hnames m (List.mem_cons_of_mem n hm)
  | case4 fuel active here n rest hdot hdots next kept target hlink hactive =>
      have hkept : kept.names = here.names ++ (n :: rest) := by simp [kept, next]
      rw [hkept]
      exact List.forall_mem_append.mpr ⟨hhere, hnames⟩
  | case5 active here n rest hdot hdots next kept target hlink hactive =>
      have hkept : kept.names = here.names ++ (n :: rest) := by simp [kept, next]
      rw [hkept]
      exact List.forall_mem_append.mpr ⟨hhere, hnames⟩
  | case6 active here n rest hdot hdots next target hlink hactive fuel path origin found hfound
      ihtarget ihrest =>
      have horigin : ∀ m ∈ origin.names, Path.Proper m := forall_mem_origin path hhere
      have htarget := ihtarget horigin (Path.sound_ofString target)
      rw [hfound] at htarget
      exact ihrest htarget fun m hm => hnames m (List.mem_cons_of_mem n hm)
  | case7 active here n rest hdot hdots next target hlink hactive fuel path origin found hfound
      ihtarget =>
      have horigin : ∀ m ∈ origin.names, Path.Proper m := forall_mem_origin path hhere
      have htarget := ihtarget horigin (Path.sound_ofString target)
      rw [hfound] at htarget
      exact List.forall_mem_append.mpr
        ⟨htarget, fun m hm => hnames m (List.mem_cons_of_mem n hm)⟩
  | case8 fuel active here n rest hdot hdots next hlink ih =>
      refine ih ?_ fun m hm => hnames m (List.mem_cons_of_mem n hm)
      exact List.forall_mem_append.mpr
        ⟨hhere, List.forall_mem_singleton.mpr (hnames n List.mem_cons_self)⟩

section

variable (hworking : ∀ n ∈ d.working, Path.Proper n) {p : Path}

include hworking

theorem sound_absolute (h : p.Sound) : (d.absolute p).Sound :=
  forall_mem_foldl_textStep
    (fun n hn _ _ => (List.mem_append.mp hn).elim (forall_mem_start hworking p n) (h n))
    fun _ hn => absurd hn List.not_mem_nil

theorem sound_resolve {k : Path} (hp : p.Sound) (h : d.resolve p = .ok k) : k.Sound := by
  rw [(resolve_eq_ok h).2]
  exact sound_absolute hworking (proper_expand _ _ _ _ (forall_mem_start hworking p) hp)

end

/-! ### Resolving below a directory -/

/-- A name that is no link is gone through. -/
theorem expand_plain {fuel : Nat} {active : List Passage} {here : Passage} {n : String}
    (hname : n ≠ "." ∧ n ≠ "..")
    (hlink : ∀ target, d.linkStat ⟨.root, here.names ++ [n]⟩ ≠ .ok (.link target))
    (names : List String) :
    d.expand fuel active here (n :: names) =
      d.expand fuel active { here with names := here.names ++ [n] } names := by
  rw [expand, if_neg (by simpa using hname.1), if_neg (by simpa using hname.2)]
  -- by `hlink` the match falls through to its last case
  simp only

/-- Going through names and then through more: where the first ones end in a
loop, the others are kept. -/
theorem expand_append (fuel : Nat) (active : List Passage) (here : Passage)
    (names rest : List String) :
    d.expand fuel active here (names ++ rest) =
      if (d.expand fuel active here names).2 then
        d.expand fuel active (d.expand fuel active here names).1 rest
      else
        ({ (d.expand fuel active here names).1 with
          names := (d.expand fuel active here names).1.names ++ rest }, false) := by
  fun_induction expand d fuel active here names with
  | case1 => rfl
  | case2 fuel active here n names hn ih =>
      rw [List.cons_append, expand, if_pos hn, ih]
  | case3 fuel active here n names hdot hn ih =>
      rw [List.cons_append, expand, if_neg hdot, if_pos hn, ih]
  | case4 fuel active here n names hdot hdots next kept target hlink hactive =>
      rw [List.cons_append, expand, if_neg hdot, if_neg hdots]
      simp only [next, kept] at hlink hactive ⊢
      simp only [hlink, if_pos hactive, List.append_assoc, Bool.false_eq_true, if_false]
  | case5 active here n names hdot hdots next kept target hlink hactive =>
      rw [List.cons_append, expand, if_neg hdot, if_neg hdots]
      simp only [next, kept] at hlink hactive ⊢
      simp only [hlink, if_neg hactive, List.append_assoc, Bool.false_eq_true, if_false]
  | case6 active here n names hdot hdots next target hlink hactive fuel path origin found hfound
      ihtarget ihrest =>
      rw [List.cons_append, expand, if_neg hdot, if_neg hdots]
      simp only [next, origin, path, dite_eq_ite] at hlink hactive hfound ⊢
      simp only [hlink, if_neg hactive, hfound]
      exact ihrest
  | case7 active here n names hdot hdots next target hlink hactive fuel path origin found hfound
      ihtarget =>
      rw [List.cons_append, expand, if_neg hdot, if_neg hdots]
      simp only [next, origin, path, dite_eq_ite] at hlink hactive hfound ⊢
      simp only [hlink, if_neg hactive, hfound, List.append_assoc, Bool.false_eq_true, if_false]
  | case8 fuel active here n names hdot hdots next hlink ih =>
      rw [List.cons_append, expand_plain ⟨by simpa using hdot, by simpa using hdots⟩ hlink]
      exact ih

/-- Where no loop is met every name is gone through, and none that leads back
is kept. -/
theorem ordinary_expand {fuel : Nat} {active : List Passage} {here : Passage}
    {names : List String} (hhere : Ordinary here.names)
    (h : (d.expand fuel active here names).2 = true) :
    Ordinary (d.expand fuel active here names).1.names := by
  fun_induction expand d fuel active here names with
  | case1 => exact hhere
  | case2 fuel active here n names hn ih => exact ih hhere h
  | case3 fuel active here n names hdot hn ih =>
      exact ih (fun m hm => hhere m (List.dropLast_subset _ hm)) h
  | case4 => cases h
  | case5 => cases h
  | case6 active here n names hdot hdots next target hlink hactive fuel path origin found hfound
      ihtarget ihrest =>
      have horigin : Ordinary origin.names := forall_mem_origin path hhere
      rw [hfound] at ihtarget
      exact ihrest (ihtarget horigin rfl) h
  | case7 => cases h
  | case8 fuel active here n names hdot hdots next hlink ih =>
      refine ih (List.forall_mem_append.mpr ⟨hhere, ?_⟩) h
      exact List.forall_mem_singleton.mpr ⟨by simpa using hdot, by simpa using hdots⟩

/-- The names from a real place to an entry below it are gone through as they
are. -/
theorem expand_real {fuel : Nat} {active : List Passage} {here : Passage} {names : List String}
    {e : Entry} (hat : d.top.at? (here.names ++ names) = some e) (hlink : e.isLink = false)
    (hhere : Ordinary here.names) (hnames : Ordinary names) :
    (d.expand fuel active here names).1.names = here.names ++ names := by
  induction names generalizing here with
  | nil => rw [expand, List.append_nil]
  | cons n names ih =>
      have hn := hnames n List.mem_cons_self
      have hsplit : here.names ++ n :: names = here.names ++ [n] ++ names := by simp
      have hnext : Ordinary (here.names ++ [n]) :=
        List.forall_mem_append.mpr ⟨hhere, List.forall_mem_singleton.mpr hn⟩
      rw [hsplit] at hat ⊢
      have hplain : ∀ target, d.linkStat ⟨.root, here.names ++ [n]⟩ ≠ .ok (.link target) := by
        rw [Entry.at?_append, Option.bind_eq_some_iff] at hat
        obtain ⟨inner, hinner, hat⟩ := hat
        refine linkStat_real hinner ?_ hnext
        cases names with
        | nil =>
            cases hat
            exact hlink
        | cons m names =>
            obtain ⟨entries, rfl⟩ := Entry.directory_of_at?_cons hat
            rfl
      rw [expand_plain hn hplain]
      exact ih hat hnext fun m hm => hnames m (List.mem_cons_of_mem n hm)

theorem ordinary_absolute (d : Disk) (p : Path) : Ordinary (d.absolute p).names :=
  forall_mem_foldl_textStep (fun _ _ hdot hdots => ⟨hdot, hdots⟩)
    fun _ hn => absurd hn List.not_mem_nil

theorem ordinary_of_resolve {p k : Path} (h : d.resolve p = .ok k) : Ordinary k.names := by
  rw [(resolve_eq_ok h).2]
  exact d.ordinary_absolute _

theorem absolute_append (names : List String) {rest : List String} (hrest : Ordinary rest) :
    d.absolute ⟨.root, names ++ rest⟩ =
      ⟨.root, (d.absolute ⟨.root, names⟩).names ++ rest⟩ := by
  have hnames : (names ++ rest).foldl textStep [] = names.foldl textStep [] ++ rest := by
    rw [List.foldl_append, foldl_textStep_ordinary hrest]
  exact congrArg (Path.mk .root) hnames

section

variable {root : Path} {real names : List String} {e : Entry}
  (hworking : Ordinary d.working) (hroot : d.resolve root = .ok ⟨.root, real⟩)
  (hat : d.top.at? (real ++ names) = some e) (hlink : e.isLink = false)
  (hnames : Ordinary names)

include hworking hroot hat hlink hnames

theorem expanded_below :
    d.expanded (root.append ⟨.relative, names⟩) = d.expanded root ++ names := by
  have hreal : real = (d.absolute ⟨.root, d.expanded root⟩).names :=
    congrArg Path.names (resolve_eq_ok hroot).2
  have happend : d.expanded (root.append ⟨.relative, names⟩) =
      (d.expand (2 * d.top.linkCount) [] ⟨root.isAbsolute, d.start root⟩
        (root.names ++ names)).1.names := rfl
  rw [happend, expand_append]
  split
  · rename_i hthrough
    have hordinary : Ordinary (d.expanded root) :=
      ordinary_expand (forall_mem_start hworking root) hthrough
    rw [absolute_ordinary hordinary] at hreal
    rw [hreal] at hat
    exact expand_real hat hlink hordinary hnames
  · rfl

/-- Below a directory that is resolved, an entry with no link on the way is
resolved by going on with its names. -/
theorem resolve_below (hnull : (names.any fun n => n.toList.contains (Char.ofNat 0)) = false) :
    d.resolve (root.append ⟨.relative, names⟩) = .ok ⟨.root, real ++ names⟩ := by
  obtain ⟨hrootNull, hreal⟩ := resolve_eq_ok hroot
  have hfound : d.absolute ⟨.root, d.expanded (root.append ⟨.relative, names⟩)⟩ =
      ⟨.root, real ++ names⟩ := by
    rw [expanded_below hworking hroot hat hlink hnames, absolute_append _ hnames, ← hreal]
  have hnone : ¬ ((root.append ⟨.relative, names⟩).names.any fun n =>
      n.toList.contains (Char.ofNat 0)) = true := by
    change ¬ ((root.names ++ names).any _) = true
    rw [List.any_append, hrootNull, hnull]
    exact Bool.false_ne_true
  have hall : Ordinary (real ++ names) :=
    List.forall_mem_append.mpr ⟨ordinary_of_resolve hroot, hnames⟩
  rw [resolve, if_neg hnone]
  simp only [hfound]
  obtain hstat | ⟨hlong, -⟩ := stat_real hat hlink hall
  · rw [hstat]
  · rw [hlong]

end

/-! ### File systems without links -/

/-- Without links the names are replaced by those of the place they lead to. -/
theorem expand_of_walkNames (h : d.top.linkCount = 0) {follow : Bool} {links : Nat}
    {here names : List String} {place : Place}
    (hwalk : d.walkNames follow links here names = .ok place) (fuel : Nat)
    (active : List Passage) (rooted : Bool) :
    d.expand fuel active ⟨rooted, here⟩ names = (⟨rooted, place.names⟩, true) := by
  induction names generalizing here with
  | nil =>
      rw [walkNames] at hwalk
      cases hwalk
      rw [expand]
  | cons n names ih =>
      rw [walkNames] at hwalk
      split at hwalk
      · by_cases hdot : n = "."
        · rw [if_pos (by simpa using hdot)] at hwalk
          rw [expand, if_pos (by simpa using hdot), ih hwalk]
        · rw [if_neg (by simpa using hdot)] at hwalk
          by_cases hdots : n = ".."
          · rw [if_pos (by simpa using hdots)] at hwalk
            rw [expand, if_neg (by simpa using hdot), if_pos (by simpa using hdots), ih hwalk]
          · rw [if_neg (by simpa using hdots)] at hwalk
            rw [expand_plain ⟨hdot, hdots⟩ (linkStat_ne_link h _)]
            split at hwalk
            · cases hwalk
            · split at hwalk
              · cases hwalk
              · rename_i target hlink
                exact absurd hlink (Entry.at?_ne_link h _ target)
              · exact ih hwalk
      · cases hwalk
      · cases hwalk

/-- Without links a path that leads somewhere is resolved to the real path of
the place. -/
theorem exists_real_of_stat (h : d.top.linkCount = 0) (hworking : Ordinary d.working) {p : Path}
    {e : Entry} (hnull : (p.names.any fun n => n.toList.contains (Char.ofNat 0)) = false)
    (hstat : d.stat p = .ok e) :
    ∃ real, d.resolve p = .ok ⟨.root, real⟩ ∧ d.top.at? real = some e := by
  unfold stat locate at hstat
  split at hstat
  · cases hstat
  · cases hwalk : d.walkNames true maxLinks (d.start p) p.names with
    | error error =>
        rw [hwalk] at hstat
        cases hstat
    | ok place =>
        rw [hwalk] at hstat
        simp only [Except.bind] at hstat
        split at hstat
        · rename_i found hfound
          cases hstat
          have hexpand := expand_of_walkNames h hwalk (2 * d.top.linkCount) [] p.isAbsolute
          have hordinary : Ordinary place.names := by
            have hstart : Ordinary (Passage.mk p.isAbsolute (d.start p)).names :=
              forall_mem_start hworking p
            have hnames := ordinary_expand hstart (congrArg Prod.snd hexpand)
            rwa [hexpand] at hnames
          have hexpanded : d.expanded p = place.names :=
            congrArg (fun found => found.1.names) hexpand
          refine ⟨place.names, ?_, hfound⟩
          rw [resolve_of_no_null h hnull, hexpanded, absolute_ordinary hordinary]
        · cases hstat

end Disk

end ThrowCatch
